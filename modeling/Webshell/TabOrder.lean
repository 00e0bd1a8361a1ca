import Webshell.GoSlice
import Webshell.WorkspaceErrors

/-!
# The order of the tabs

Moving a tab takes it out of the slice of tabs and puts it in at another place,
both times in the slice's own array. The other tabs keep their order.
-/

namespace Webshell

open GoText

namespace Workspace

/-! ## In the array of the tabs -/

def moveTabSlice (tabs : GoSlice TerminalTab) (tabID : String) (position : TabPosition) :
    GoSlice TerminalTab × Option String :=
  match findTabIn tabID tabs.view with
  | none => (tabs, some "tab not found")
  | some (index, tab) =>
    if tabs.length ≤ 1 then (tabs, none)
    else
      match position.target index tabs.length with
      | none => (tabs, some "invalid tab position")
      | some target =>
        if target = index then (tabs, none) else ((tabs.removeAt index).insertAt target tab, none)

/-- `zero` is the nil that is appended to make room. -/
def reorderTabSlice (zero : TerminalTab) (tabs : GoSlice TerminalTab) (tabID beforeTabID : String) :
    GoSlice TerminalTab × Option String :=
  match findTabIn (trimSpace tabID) tabs.view with
  | none => (tabs, some "tab not found")
  | some (index, tab) =>
    let beforeTabID := trimSpace beforeTabID
    if beforeTabID = tab.ID then (tabs, some "tab cannot be ordered before itself")
    else if beforeTabID ≠ "" ∧ findTabIn beforeTabID tabs.view = none then (tabs, some "before tab not found")
    else
      let tabs := tabs.removeAt index
      if beforeTabID = "" then (tabs.append [tab], none)
      else
        match findTabIn beforeTabID tabs.view with
        | some (target, _) => (tabs.openAt target tab zero, none)
        | none => (tabs, none)

theorem findTabIn_lt {tabID : String} {ts : List TerminalTab} {i : Nat} {t : TerminalTab}
    (h : findTabIn tabID ts = some (i, t)) : i < ts.length := by
  obtain ⟨pre, post, rfl, rfl, -⟩ := findTabIn_some h
  simp

theorem moveTabLocked_slice {w : Workspace} {tabs : GoSlice TerminalTab} (h : tabs.view = w.tabs) (tabID : String)
    (position : TabPosition) :
    ((moveTabSlice tabs tabID position).1.view, (moveTabSlice tabs tabID position).2) =
      ((w.moveTabLocked tabID position).1.tabs, (w.moveTabLocked tabID position).2) := by
  have hlen : tabs.length = w.tabs.length := by rw [← h, GoSlice.length_view]
  unfold moveTabSlice moveTabLocked findTabIndexLocked
  rw [h, hlen]
  cases hf : findTabIn tabID w.tabs with
  | none => simp only [h]
  | some r =>
    obtain ⟨index, tab⟩ := r
    have hlt := findTabIn_lt hf
    simp only
    split
    · rw [h]
    · cases hp : position.target index w.tabs.length with
      | none => simp only [h]
      | some target =>
        simp only
        split
        · rw [h]
        · have hle : target ≤ (tabs.removeAt index).length := by
            rw [← GoSlice.length_view, GoSlice.view_removeAt, h, List.length_eraseIdx_of_lt hlt]
            exact TabPosition.target_le hlt hp
          simp only [GoSlice.view_insertAt _ hle, GoSlice.view_removeAt, h, setActiveTab_tabs]

theorem reorderTabLocked_slice {w : Workspace} {tabs : GoSlice TerminalTab} (h : tabs.view = w.tabs)
    (zero : TerminalTab) (tabID beforeTabID : String) :
    ((reorderTabSlice zero tabs tabID beforeTabID).1.view, (reorderTabSlice zero tabs tabID beforeTabID).2) =
      ((w.reorderTabLocked tabID beforeTabID).1.tabs, (w.reorderTabLocked tabID beforeTabID).2) := by
  unfold reorderTabSlice reorderTabLocked findTabLocked findTabIndexLocked
  simp only [h, Option.map_eq_none_iff, GoSlice.view_removeAt]
  cases findTabIn (trimSpace tabID) w.tabs with
  | none => simp only [h]
  | some r =>
    obtain ⟨index, tab⟩ := r
    simp only
    split
    · rw [h]
    split
    · rw [h]
    split
    · simp only [GoSlice.view_append, GoSlice.view_removeAt, h]
    cases hf : findTabIn (trimSpace beforeTabID) (w.tabs.eraseIdx index) with
    | none => simp only [GoSlice.view_removeAt, h]
    | some r =>
      obtain ⟨target, next⟩ := r
      have hle : target ≤ (tabs.removeAt index).length := by
        rw [← GoSlice.length_view, GoSlice.view_removeAt, h]
        exact Nat.le_of_lt (findTabIn_lt hf)
      simp only [GoSlice.view_openAt _ hle, GoSlice.view_removeAt, h]

end Workspace

/-! ## What moves -/

/-- `tab` is taken out from behind `before` and put in behind `before'`. -/
structure TabMoved (tab : TerminalTab) (before after before' after' ts ts' : List TerminalTab) : Prop where
  old : ts = before ++ tab :: after
  new : ts' = before' ++ tab :: after'
  others : before' ++ after' = before ++ after

namespace TabMoved

variable {tab : TerminalTab} {before after before' after' ts ts' : List TerminalTab}

theorem perm (h : TabMoved tab before after before' after' ts ts') : ts'.Perm ts := by
  rw [h.old, h.new]
  apply List.perm_middle.trans
  rw [h.others]
  exact List.perm_middle.symm

theorem still (h : ts = before ++ tab :: after) : TabMoved tab before after before after ts ts := ⟨h, h, rfl⟩

theorem eraseIdx_middle : (before ++ tab :: after).eraseIdx before.length = before ++ after := by
  rw [List.eraseIdx_append_of_length_le (Nat.le_refl _), Nat.sub_self]
  rfl

theorem insertIdx (h : ts = before ++ tab :: after) (ho : before' ++ after' = before ++ after) :
    TabMoved tab before after before' after' ts ((ts.eraseIdx before.length).insertIdx before'.length tab) := by
  refine ⟨h, ?_, ho⟩
  rw [h, eraseIdx_middle, ← ho, GoSlice.insertIdx_split rfl]

end TabMoved

namespace Workspace

/-- How many tabs stand before the one that moves, when `before` of `count` others did. -/
def TabPosition.place (before count : Nat) : TabPosition → Nat
  | .first => 0
  | .left => before - 1
  | .right => min count (before + 1)
  | .last => count
  | .other _ => before

theorem moveTab_moved {w w' : Workspace} {tabID : String} {position : TabPosition}
    (h : w.moveTabLocked tabID position = (w', none)) : ∃ tab before after before' after',
      TabMoved tab before after before' after' w.tabs w'.tabs ∧ tab.ID = tabID ∧
      before'.length = position.place before.length (before ++ after).length := by
  unfold moveTabLocked findTabIndexLocked at h
  cases hf : findTabIn tabID w.tabs with
  | none =>
    rw [hf] at h
    cases h
  | some r =>
    obtain ⟨index, tab⟩ := r
    obtain ⟨before, after, htabs, rfl, hid⟩ := findTabIn_some hf
    have hlen : w.tabs.length = (before ++ after).length + 1 := by
      rw [htabs]
      simp only [List.length_append, List.length_cons]
      omega
    have hbefore : before.length ≤ (before ++ after).length := by simp
    rw [hf] at h
    simp only at h
    split at h
    · rename_i hone
      cases h
      refine ⟨tab, before, after, before, after, .still htabs, hid, ?_⟩
      cases position with
      | first => simp only [TabPosition.place]; omega
      | left => simp only [TabPosition.place]; omega
      | right => simp only [TabPosition.place]; omega
      | last => simp only [TabPosition.place]; omega
      | other name => rfl
    · cases hp : position.target before.length w.tabs.length with
      | none =>
        rw [hp] at h
        cases h
      | some target =>
        have hplace : target = position.place before.length (before ++ after).length := by
          rw [hlen] at hp
          cases position with
          | first => cases hp; rfl
          | left => cases hp; rfl
          | right => cases hp; rfl
          | last => cases hp; rfl
          | other name => cases hp
        rw [hp] at h
        simp only at h
        split at h
        · rename_i heq
          cases h
          exact ⟨tab, before, after, before, after, .still htabs, hid, heq ▸ hplace⟩
        · cases h
          have hle : target ≤ (before ++ after).length := by
            have := TabPosition.target_le (by omega) hp
            omega
          have htake : ((before ++ after).take target).length = target := by
            rw [List.length_take]
            omega
          have hmoved := TabMoved.insertIdx htabs (List.take_append_drop target (before ++ after))
          rw [htake] at hmoved
          rw [setActiveTab_tabs]
          exact ⟨tab, before, after, _, _, hmoved, hid, htake.trans hplace⟩

theorem reorderTab_moved {w w' : Workspace} {tabID beforeTabID : String}
    (h : w.reorderTabLocked tabID beforeTabID = (w', none)) : ∃ tab before after before' after',
      TabMoved tab before after before' after' w.tabs w'.tabs ∧ tab.ID = trimSpace tabID ∧
      if trimSpace beforeTabID = "" then after' = []
      else ∃ next rest, after' = next :: rest ∧ next.ID = trimSpace beforeTabID := by
  unfold reorderTabLocked findTabIndexLocked at h
  cases hf : findTabIn (trimSpace tabID) w.tabs with
  | none =>
    rw [hf] at h
    cases h
  | some r =>
    obtain ⟨index, tab⟩ := r
    obtain ⟨before, after, htabs, rfl, hid⟩ := findTabIn_some hf
    have herase : w.tabs.eraseIdx before.length = before ++ after := by rw [htabs, TabMoved.eraseIdx_middle]
    rw [hf] at h
    simp only at h
    split at h
    · cases h
    rename_i hself
    split at h
    · cases h
    rename_i hfound
    rw [herase] at h
    split at h
    · rename_i hempty
      cases h
      refine ⟨tab, before, after, before ++ after, [], ⟨htabs, rfl, List.append_nil _⟩, hid, ?_⟩
      rw [if_pos hempty]
    · rename_i hset
      have hmem : trimSpace beforeTabID ∈ tabIDsOf (before ++ after) := by
        have hm := not_not.mp fun hn => hfound ⟨hset, findTabLocked_none.mpr hn⟩
        have hperm : w.tabs.Perm (tab :: (before ++ after)) := htabs ▸ List.perm_middle
        rw [(tabIDsOf_perm hperm).mem_iff, tabIDsOf_cons] at hm
        exact (List.mem_cons.mp hm).resolve_left hself
      cases hn : findTabIn (trimSpace beforeTabID) (before ++ after) with
      | none => exact absurd hmem (findTabIn_none.mp hn)
      | some r =>
        obtain ⟨target, next⟩ := r
        obtain ⟨before', rest, hothers, rfl, hnext⟩ := findTabIn_some hn
        rw [hn] at h
        cases h
        refine ⟨tab, before, after, before', next :: rest, ⟨htabs, ?_, hothers.symm⟩, hid, ?_⟩
        · rw [hothers, GoSlice.insertIdx_split rfl]
        · rw [if_neg hset]
          exact ⟨next, rest, rfl, hnext⟩

end Workspace

end Webshell
