import Mathlib.Data.List.Perm.Subperm
import Webshell.StateApply

/-!
# The browser agrees with the state

Each round of the loop leaves its tab with the panes of the state and all other
tabs as they were. A layout that is kept shows the panes it showed, and they are
those of the state.
-/

namespace Webshell

/-! ## What is sent and what is there -/

structure SentTab.Sound (t : SentTab) : Prop where
  distinct : (t.panes.map (·.id)).Nodup
  layout : (collectPaneIds t.layout []).Perm ((t.panes.map (·.id)).map some)
  active : t.active_pane_id ∈ t.panes.map (·.id)

/-- The structural invariant of the server, in what is sent. -/
structure SentState.Sound (s : SentState) : Prop where
  distinct : (s.tabs.map (·.id)).Nodup
  tabs : ∀ t ∈ s.tabs, t.Sound

structure BrowserTab.Sound (tab : BrowserTab) : Prop where
  layout : (collectPaneIds tab.layout []).Perm (tab.panes.keys.map some)
  keyed : ∀ p pane, tab.panes.get p = some pane → pane.id = p

/-! ### The state of a server -/

mutual
theorem collectPaneIds_ofLayout : ∀ {n : LayoutNode} (r : List (Option String)), "" ∉ n.leaves →
    collectPaneIds (ofLayout n) r = r ++ n.leaves.map some
  | .nil, r, _ => by
    rw [ofLayout, collectPaneIds, leaves_nil, List.map_nil, List.append_nil]
  | .node t d p cs z, r, h => by
    rw [ofLayout, collectPaneIds]
    rw [LayoutNode.leaves] at h ⊢
    split
    · rename_i ht
      rw [if_pos ht, List.mem_singleton] at h
      rw [if_neg (Ne.symm h)]
      rfl
    · rename_i ht
      rw [if_neg ht] at h
      exact collectChildPaneIds_ofLayouts r h
theorem collectChildPaneIds_ofLayouts : ∀ {cs : List LayoutNode} (r : List (Option String)), "" ∉ leavesOf cs →
    collectChildPaneIds (ofLayouts cs) r = r ++ (leavesOf cs).map some
  | [], r, _ => by
    rw [ofLayouts, collectChildPaneIds, leavesOf_nil, List.map_nil, List.append_nil]
  | c :: cs, r, h => by
    rw [leavesOf_cons, List.mem_append, not_or] at h
    rw [ofLayouts, collectChildPaneIds, collectPaneIds_ofLayout r h.1, collectChildPaneIds_ofLayouts _ h.2, leavesOf_cons,
      List.map_append, List.append_assoc]
end

/-- Panes are sent under the ids a tab has for them. -/
theorem sentPanes_ids {panes : PaneMap} (hid : ∀ id, ∀ pane ∈ panes.lookup id, pane.id = id) : ∀ {ids : List String},
    (∀ id ∈ ids, id ∈ panes) → (ids.filterMap fun id => panes.lookup id).map (·.id) = ids
  | [], _ => rfl
  | id :: ids, h => by
    obtain ⟨hin, hrest⟩ := List.forall_mem_cons.mp h
    obtain ⟨pane, hpane⟩ := Option.isSome_iff_exists.mp (AList.lookup_isSome.mpr hin)
    simp only [List.filterMap_cons, hpane, List.map_cons]
    rw [hid id pane hpane, sentPanes_ids hid hrest]

/-- A structurally sound workspace sends sound states. -/
theorem received_sound (agentCapabilities : List String) {w : Workspace} (h : StructuralInv w.snapshot.1)
    (hid : ∀ id, ∀ pane ∈ w.snapshot.1.panes.lookup id, pane.id = id)
    (hnamed : ∀ t ∈ w.snapshot.1.tabs, "" ∉ t.PaneIDs) : (received agentCapabilities w.snapshot.2).Sound where
  distinct := by
    have hids : (received agentCapabilities w.snapshot.2).tabs.map (·.id) = tabIDsOf w.snapshot.1.tabs := by
      show ((w.snapshot.1.tabs.map _).map _).map _ = _
      rw [List.map_map, List.map_map]
      rfl
    rw [hids]
    exact h.tabIDs
  tabs := by
    intro sent hm
    obtain ⟨state, hstate, rfl⟩ := List.mem_map.mp hm
    obtain ⟨tab, ht, rfl⟩ := List.mem_map.mp hstate
    have ht : tab ∈ w.snapshot.1.tabs := ht
    have hpanes : (tab.PaneIDs.filterMap fun id => w.snapshot.1.panes.lookup id).map (·.id) = tab.PaneIDs :=
      sentPanes_ids hid fun id hin => (h.panes id).mpr ⟨tab, ht, hin⟩
    have hsent : (((tab.PaneIDs.filterMap fun id => w.snapshot.1.panes.lookup id).map fun pane =>
        ({ id := pane.id, cols := pane.cols, rows := pane.rows, exited := pane.exited } : SentPane)).map (·.id)) =
          tab.PaneIDs := by
      rw [List.map_map]
      exact hpanes
    obtain ⟨-, hnodup, hleaves⟩ := h.layout tab ht
    have hperm : tab.Layout.leaves.Perm tab.PaneIDs := by
      refine (List.perm_ext_iff_of_nodup hnodup ?_).mpr hleaves
      exact (List.nodup_flatMap.mp h.paneIDs).1 tab ht
    exact {
      distinct := by
        show (((tab.PaneIDs.filterMap fun id => w.snapshot.1.panes.lookup id).map _).map _).Nodup
        rw [hsent]
        exact (List.nodup_flatMap.mp h.paneIDs).1 tab ht
      layout := by
        show (collectPaneIds (ofLayout tab.Layout) []).Perm
          ((((tab.PaneIDs.filterMap fun id => w.snapshot.1.panes.lookup id).map _).map _).map some)
        rw [hsent, collectPaneIds_ofLayout _ fun hin => hnamed tab ht ((hleaves "").mp hin)]
        exact hperm.map some
      active := by
        show tab.ActivePaneID ∈ ((tab.PaneIDs.filterMap fun id => w.snapshot.1.panes.lookup id).map _).map _
        rw [hsent]
        exact h.activePane tab ht }

namespace BrowserWorkspace

/-- A tab is found by its id. -/
def Keyed (w : BrowserWorkspace) : Prop := ∀ k tab, w.tabs.get k = some tab → tab.id = k

structure Sound (w : BrowserWorkspace) : Prop where
  keyed : w.Keyed
  tabs : ∀ k tab, w.tabs.get k = some tab → tab.Sound

/-! ## Editing a tab -/

theorem get_modifyTab (w : BrowserWorkspace) (k : String) (f : BrowserTab → BrowserTab) (k' : String) :
    (w.modifyTab k f).tabs.get k' = if k' = k then (w.tabs.get k).map f else w.tabs.get k' := by
  unfold modifyTab
  cases h : w.tabs.get k with
  | none =>
    by_cases hk : k' = k
    · rw [if_pos hk, hk, h]
      rfl
    · rw [if_neg hk]
  | some tab =>
    by_cases hk : k' = k
    · rw [if_pos hk, hk]
      exact w.tabs.get_set
    · rw [if_neg hk]
      exact w.tabs.get_set_of_ne hk

@[simp] theorem modifyTab_active (w : BrowserWorkspace) (k : String) (f : BrowserTab → BrowserTab) :
    (w.modifyTab k f).activeTabId = w.activeTabId := by
  unfold modifyTab
  split <;> rfl

/-- One tab is `tab'` now, and all else stands as it stood. -/
structure Edits (k : String) (tab' : BrowserTab) (w w' : BrowserWorkspace) : Prop where
  here : w'.tabs.get k = some tab'
  others : ∀ k', k' ≠ k → w'.tabs.get k' = w.tabs.get k'
  active : w'.activeTabId = w.activeTabId

theorem Edits.trans {k : String} {tab₁ tab₂ : BrowserTab} {w w₁ w₂ : BrowserWorkspace} (h₁ : Edits k tab₁ w w₁)
    (h₂ : Edits k tab₂ w₁ w₂) : Edits k tab₂ w w₂ where
  here := h₂.here
  others := fun k' hk => (h₂.others k' hk).trans (h₁.others k' hk)
  active := h₂.active.trans h₁.active

theorem modifyTab_edits {w : BrowserWorkspace} {k : String} {tab : BrowserTab} (h : w.tabs.get k = some tab)
    (f : BrowserTab → BrowserTab) : Edits k (f tab) w (w.modifyTab k f) where
  here := by rw [get_modifyTab, if_pos rfl, h]; rfl
  others := fun k' hk => by rw [get_modifyTab, if_neg hk]
  active := modifyTab_active ..

/-- All of a tab but its panes. -/
structure SameFrame (tab tab' : BrowserTab) : Prop where
  id : tab'.id = tab.id
  layout : tab'.layout = tab.layout
  activePaneId : tab'.activePaneId = tab.activePaneId

theorem SameFrame.trans {tab tab₁ tab₂ : BrowserTab} (h₁ : SameFrame tab tab₁) (h₂ : SameFrame tab₁ tab₂) :
    SameFrame tab tab₂ := ⟨h₂.id.trans h₁.id, h₂.layout.trans h₁.layout, h₂.activePaneId.trans h₁.activePaneId⟩

/-! ## The panes of a tab -/

theorem dropPane_frame (targetName : String) (w : BrowserWorkspace) (pane : PaneSession) :
    ((w.destroyLocalHistory targetName pane).disposePane pane).tabs = w.tabs ∧
      ((w.destroyLocalHistory targetName pane).disposePane pane).activeTabId = w.activeTabId := by
  unfold destroyLocalHistory disposePane
  split <;> exact ⟨rfl, rfl⟩

theorem dropPanes_edits {targetName k : String} : ∀ (panes : List PaneSession) {w : BrowserWorkspace} {tab : BrowserTab},
    w.tabs.get k = some tab → ∃ tab', Edits k tab' w (panes.foldl (dropPane targetName k) w) ∧ SameFrame tab tab' ∧
      ∀ p, tab'.panes.get p = if p ∈ panes.map (·.id) then none else tab.panes.get p
  | [], w, tab, h => ⟨tab, ⟨h, fun _ _ => rfl, rfl⟩, ⟨rfl, rfl, rfl⟩, fun p => (if_neg List.not_mem_nil).symm⟩
  | pane :: panes, w, tab, h => by
    obtain ⟨htabs, hactive⟩ := dropPane_frame targetName w pane
    have hedit : Edits k { tab with panes := tab.panes.delete pane.id } w (w.dropPane targetName k pane) := by
      have he := modifyTab_edits (by rw [htabs]; exact h) fun tab => { tab with panes := tab.panes.delete pane.id }
      exact ⟨he.here, fun k' hk => (he.others k' hk).trans (by rw [htabs]), he.active.trans hactive⟩
    obtain ⟨tab', hrest, hframe, hpanes⟩ := dropPanes_edits panes hedit.here
    refine ⟨tab', hedit.trans hrest, ⟨hframe.id, hframe.layout, hframe.activePaneId⟩, fun p => ?_⟩
    rw [hpanes p, List.map_cons, tab.panes.get_delete p]
    by_cases hp : p = pane.id
    · simp [hp]
    · simp [hp]

theorem paneExit_object (exited : Bool) (pane : PaneSession) :
    (paneExit exited pane).object = pane.object ∧ (paneExit exited pane).id = pane.id := by
  unfold paneExit
  repeat' split
  all_goals exact ⟨rfl, rfl⟩

/-- What a state does to the panes of a tab that stay or are new. -/
structure PanesApplied (ids : List String) (tab tab' : BrowserTab) : Prop where
  frame : SameFrame tab tab'
  has : ∀ p, tab'.panes.has p = true ↔ tab.panes.has p = true ∨ p ∈ ids
  sessions : ∀ p pane, tab.panes.get p = some pane → ∃ pane', tab'.panes.get p = some pane' ∧ pane'.object = pane.object
  keyed : (∀ p pane, tab.panes.get p = some pane → pane.id = p) → ∀ p pane, tab'.panes.get p = some pane → pane.id = p

theorem PanesApplied.trans {ids₁ ids₂ : List String} {tab tab₁ tab₂ : BrowserTab} (h₁ : PanesApplied ids₁ tab tab₁)
    (h₂ : PanesApplied ids₂ tab₁ tab₂) : PanesApplied (ids₁ ++ ids₂) tab tab₂ where
  frame := h₁.frame.trans h₂.frame
  has := fun p => by rw [h₂.has, h₁.has, List.mem_append, or_assoc]
  sessions := by
    intro p pane h
    obtain ⟨pane₁, hp₁, ho₁⟩ := h₁.sessions p pane h
    obtain ⟨pane₂, hp₂, ho₂⟩ := h₂.sessions p pane₁ hp₁
    exact ⟨pane₂, hp₂, ho₂.trans ho₁⟩
  keyed := fun h => h₂.keyed (h₁.keyed h)

/-- A pane put where none was, or in the place of one with the same session. -/
theorem panesApplied_set {tab : BrowserTab} {p : String} {pane : PaneSession} (hid : pane.id = p)
    (hobject : ∀ old, tab.panes.get p = some old → pane.object = old.object) :
    PanesApplied [p] tab { tab with panes := tab.panes.set p pane } where
  frame := ⟨rfl, rfl, rfl⟩
  has := by
    intro q
    unfold OrderedMap.has
    by_cases hq : q = p
    · simp [hq, tab.panes.get_set]
    · simp [hq, tab.panes.get_set_of_ne hq]
  sessions := by
    intro q old h
    by_cases hq : q = p
    · subst hq
      exact ⟨pane, tab.panes.get_set, hobject old h⟩
    · exact ⟨old, (tab.panes.get_set_of_ne hq).trans h, rfl⟩
  keyed := by
    intro hkeyed q found h
    by_cases hq : q = p
    · subst hq
      rw [tab.panes.get_set] at h
      rw [← Option.some.inj h, hid]
    · rw [tab.panes.get_set_of_ne hq] at h
      exact hkeyed q found h

theorem createPaneSession_edits {w : BrowserWorkspace} {k targetName : String} {tab : BrowserTab} (pane : SentPane)
    (h : w.tabs.get k = some tab) (hnew : tab.panes.get pane.id = none) :
    ∃ tab', Edits k tab' w (w.createPaneSession k targetName pane) ∧ PanesApplied [pane.id] tab tab' := by
  have he := modifyTab_edits h fun tab => { tab with
    panes := tab.panes.set pane.id {
      object := w.nextObject, id := pane.id, name := targetName, initialCols := pane.cols, initialRows := pane.rows } }
  refine ⟨_, ⟨he.here, he.others, he.active⟩, panesApplied_set rfl fun old hold => ?_⟩
  rw [hnew] at hold
  cases hold

theorem settlePane_edits {w : BrowserWorkspace} {k : String} {tab : BrowserTab} (paneState : SentPane)
    (h : w.tabs.get k = some tab) (hkeyed : ∀ p pane, tab.panes.get p = some pane → pane.id = p)
    (hhas : tab.panes.has paneState.id = true) :
    ∃ tab', Edits k tab' w (w.modifyTab k fun tab =>
      match tab.panes.get paneState.id with
      | none => tab
      | some pane => { tab with panes := tab.panes.set paneState.id (paneExit paneState.exited pane) }) ∧
      PanesApplied [paneState.id] tab tab' := by
  obtain ⟨pane, hpane⟩ := (tab.panes.has_iff).mp hhas
  refine ⟨_, modifyTab_edits h _, ?_⟩
  rw [hpane]
  obtain ⟨hobject, hid⟩ := paneExit_object paneState.exited pane
  refine panesApplied_set (hid.trans (hkeyed _ _ hpane)) fun old hold => ?_
  rw [hpane] at hold
  rw [hobject, Option.some.inj hold]

theorem applyPane_edits {w : BrowserWorkspace} {k targetName : String} {tab : BrowserTab} (paneState : SentPane)
    (h : w.tabs.get k = some tab) (hkeyed : ∀ p pane, tab.panes.get p = some pane → pane.id = p) :
    ∃ tab', Edits k tab' w (applyPane targetName k w paneState) ∧ PanesApplied [paneState.id] tab tab' := by
  unfold applyPane
  rw [h]
  simp only [Option.map_some, Option.getD_some]
  by_cases hhas : tab.panes.has paneState.id = true
  · rw [if_pos hhas]
    exact settlePane_edits paneState h hkeyed hhas
  · rw [if_neg hhas]
    have hnone : tab.panes.get paneState.id = none := Option.not_isSome_iff_eq_none.mp hhas
    obtain ⟨tab₁, he₁, hp₁⟩ := createPaneSession_edits paneState h hnone
    obtain ⟨tab₂, he₂, hp₂⟩ := settlePane_edits paneState he₁.here (hp₁.keyed hkeyed)
      ((hp₁.has _).mpr (.inr (List.mem_singleton_self _)))
    have happlied := hp₁.trans hp₂
    refine ⟨tab₂, he₁.trans he₂, { happlied with has := fun p => ?_ }⟩
    rw [happlied.has p]
    simp

theorem applyPanes_edits {k targetName : String} : ∀ (panes : List SentPane) {w : BrowserWorkspace} {tab : BrowserTab},
    w.tabs.get k = some tab → (∀ p pane, tab.panes.get p = some pane → pane.id = p) →
    ∃ tab', Edits k tab' w (panes.foldl (applyPane targetName k) w) ∧ PanesApplied (panes.map (·.id)) tab tab'
  | [], w, tab, h, _ => ⟨tab, ⟨h, fun _ _ => rfl, rfl⟩, ⟨rfl, rfl, rfl⟩, fun p => by simp, fun p pane hp => ⟨pane, hp, rfl⟩, id⟩
  | paneState :: panes, w, tab, h, hkeyed => by
    obtain ⟨tab₁, he₁, hp₁⟩ := @applyPane_edits _ _ targetName _ paneState h hkeyed
    obtain ⟨tab₂, he₂, hp₂⟩ := applyPanes_edits panes he₁.here (hp₁.keyed hkeyed)
    exact ⟨tab₂, he₁.trans he₂, hp₁.trans hp₂⟩

/-! ## A round of the loop -/

/-- A tab after its round, where `before` was there. -/
structure Applied (passive : Bool) (t : SentTab) (before : Option BrowserTab) (tab : BrowserTab) : Prop where
  id : tab.id = t.id
  panes : ∀ p, tab.panes.has p = true ↔ p ∈ t.panes.map (·.id)
  sound : tab.Sound
  active : ∃ p ∈ tab.activePaneId, p ∈ t.panes.map (·.id)
  activeKept : passive = true → ∀ old ∈ before, ∀ p ∈ old.activePaneId, p ∈ t.panes.map (·.id) → tab.activePaneId = some p
  sessions : ∀ old ∈ before, ∀ p pane, old.panes.get p = some pane → p ∈ t.panes.map (·.id) →
    ∃ pane', tab.panes.get p = some pane' ∧ pane'.object = pane.object

/-- Unless its membership has changed, a tab has the panes of the state. -/
theorem keys_of_same_membership {wanted : List String} {tab : BrowserTab} (hn : wanted.Nodup)
    (h : membershipChanged wanted tab = false) : tab.panes.keys.Perm wanted := by
  unfold membershipChanged at h
  rw [Bool.or_eq_false_iff, decide_eq_false_iff_not, not_not, List.any_eq_false] at h
  have hsub : wanted ⊆ tab.panes.keys := by
    intro id hm
    have := h.2 id hm
    rw [Bool.not_eq_true, Bool.not_eq_false'] at this
    exact (tab.panes.has_iff_mem_keys).mp this
  have hlength : tab.panes.keys.length ≤ wanted.length := by
    rw [hn.dedup] at h
    rw [h.1]
    exact Nat.le_of_eq (List.length_map _)
  exact ((hn.subperm hsub).perm_of_length_le hlength).symm

theorem adopt_layout (passive : Bool) {t : SentTab} (ht : t.Sound) {tab : BrowserTab} (htab : tab.Sound) :
    (collectPaneIds (adopt passive t tab).layout []).Perm ((t.panes.map (·.id)).map some) := by
  unfold adopt
  dsimp only
  cases hm : membershipChanged (t.panes.map (·.id)) tab with
  | true =>
    rw [Bool.or_true, if_pos rfl]
    exact ht.layout
  | false =>
    rw [Bool.or_false]
    split
    · exact ht.layout
    · exact htab.layout.trans ((keys_of_same_membership ht.distinct hm).map some)

theorem adopt_active (passive : Bool) {t : SentTab} (ht : t.Sound) (tab : BrowserTab) :
    (∃ p ∈ (adopt passive t tab).activePaneId, p ∈ t.panes.map (·.id)) ∧
      (passive = true → ∀ p ∈ tab.activePaneId, p ∈ t.panes.map (·.id) → (adopt passive t tab).activePaneId = some p) := by
  unfold adopt
  dsimp only
  cases ha : tab.activePaneId with
  | none =>
    refine ⟨⟨t.active_pane_id, ?_, ht.active⟩, fun _ p hp => by cases hp⟩
    rw [Option.map_none, Option.getD_none, Bool.not_false, Bool.or_true, if_pos rfl]
    rfl
  | some a =>
    rw [Option.map_some, Option.getD_some]
    by_cases hin : a ∈ t.panes.map (·.id)
    · rw [List.contains_iff_mem.mpr hin, Bool.not_true, Bool.or_false]
      refine ⟨?_, fun hpassive p hp _ => ?_⟩
      · split
        · exact ⟨_, rfl, ht.active⟩
        · exact ⟨a, rfl, hin⟩
      · rw [if_neg (by simp [hpassive])]
        exact hp
    · have hout : (t.panes.map (·.id)).contains a = false := by
        rw [Bool.eq_false_iff]
        exact fun h => hin (List.contains_iff_mem.mp h)
      rw [hout, Bool.not_false, Bool.or_true, if_pos rfl]
      refine ⟨⟨_, rfl, ht.active⟩, fun _ p hp hm => absurd hm ?_⟩
      rw [← Option.some.inj hp]
      exact hin

theorem sound_empty (id label : String) (customLabel : Bool) : BrowserTab.Sound { id := id, label := label, customLabel := customLabel } where
  layout := by
    rw [collectPaneIds]
    exact List.Perm.refl _
  keyed := fun _ _ h => by cases h

/-- The tab a round works on: the one that is there, or a new one. -/
theorem tab_present (page : BrowserPage) {w : BrowserWorkspace} (t : SentTab)
    (hw : ∀ tab ∈ w.tabs.get t.id, tab.id = t.id ∧ tab.Sound) :
    ∃ tab, Edits t.id tab w (if w.tabs.has t.id then w else w.createTab page t.id t.label t.custom_label) ∧
      tab.id = t.id ∧ tab.Sound ∧ ∀ old ∈ w.tabs.get t.id, tab = old := by
  by_cases hhas : w.tabs.has t.id = true
  · obtain ⟨tab, htab⟩ := w.tabs.has_iff.mp hhas
    obtain ⟨hid, hsound⟩ := hw tab htab
    rw [if_pos hhas]
    exact ⟨tab, ⟨htab, fun _ _ => rfl, rfl⟩, hid, hsound, fun old hold => Option.some.inj (htab.symm.trans hold)⟩
  · rw [if_neg hhas]
    refine ⟨_, ⟨w.tabs.get_set, fun k' hk => w.tabs.get_set_of_ne hk, rfl⟩, rfl, sound_empty .., fun old hold => ?_⟩
    exact absurd (w.tabs.has_iff.mpr ⟨old, hold⟩) hhas

theorem applyTab_applied (page : BrowserPage) (passive : Bool) (targetName : String) {w : BrowserWorkspace}
    (changedTabs : List String) {t : SentTab} (ht : t.Sound) (hw : ∀ tab ∈ w.tabs.get t.id, tab.id = t.id ∧ tab.Sound) :
    ∃ tab, Edits t.id tab w (applyTab page passive targetName (w, changedTabs) t).1 ∧
      Applied passive t (w.tabs.get t.id) tab := by
  obtain ⟨tab, hpresent, hid, hsound, hold⟩ := tab_present page t hw
  unfold applyTab
  simp only [hpresent.here]
  have hadopt := modifyTab_edits hpresent.here (adopt passive t)
  obtain ⟨dropped, hdrop, hdropFrame, hdropped⟩ := @dropPanes_edits targetName _
    (tab.panes.values.filter fun pane => !(t.panes.map (·.id)).contains pane.id) _ _ hadopt.here
  have hgone {p : String} {pane : PaneSession} (hp : tab.panes.get p = some pane) :
      p ∈ (tab.panes.values.filter fun pane => !(t.panes.map (·.id)).contains pane.id).map (·.id) ↔
        p ∉ t.panes.map (·.id) := by
    constructor
    · rintro hm hin
      obtain ⟨other, hother, rfl⟩ := List.mem_map.mp hm
      have hnot := (List.mem_filter.mp hother).2
      rw [List.contains_iff_mem.mpr hin] at hnot
      cases hnot
    · intro hnot
      refine List.mem_map.mpr ⟨pane, List.mem_filter.mpr ⟨tab.panes.mem_of_get hp, ?_⟩, hsound.keyed p pane hp⟩
      rw [hsound.keyed p pane hp, Bool.not_eq_true', Bool.eq_false_iff]
      exact fun h => hnot (List.contains_iff_mem.mp h)
  have hget {p : String} {pane : PaneSession} : dropped.panes.get p = some pane ↔
      tab.panes.get p = some pane ∧ p ∈ t.panes.map (·.id) := by
    rw [hdropped p]
    constructor
    · intro h
      split at h
      · cases h
      · rename_i hkeep
        exact ⟨h, not_not.mp fun hout => hkeep ((hgone h).mpr hout)⟩
    · rintro ⟨h, hin⟩
      rw [if_neg fun hm => (hgone h).mp hm hin]
      exact h
  have hkeyed : ∀ p pane, dropped.panes.get p = some pane → pane.id = p := fun p pane h => hsound.keyed p pane (hget.mp h).1
  obtain ⟨tab', happly, hpanes⟩ := @applyPanes_edits _ targetName t.panes _ _ hdrop.here hkeyed
  have hhas (p : String) : tab'.panes.has p = true ↔ p ∈ t.panes.map (·.id) := by
    rw [hpanes.has p, or_iff_right_iff_imp, OrderedMap.has_iff]
    rintro ⟨pane, hp⟩
    exact (hget.mp hp).2
  have hactive : tab'.activePaneId = (adopt passive t tab).activePaneId :=
    hpanes.frame.activePaneId.trans hdropFrame.activePaneId
  obtain ⟨hin, hkept⟩ := adopt_active passive ht tab
  refine ⟨tab', hpresent.trans (hadopt.trans (hdrop.trans happly)), ?_⟩
  exact {
    id := hpanes.frame.id.trans (hdropFrame.id.trans hid)
    panes := hhas
    sound := {
      layout := by
        rw [hpanes.frame.layout, hdropFrame.layout]
        exact (adopt_layout passive ht hsound).trans ((OrderedMap.keys_perm _ ht.distinct hhas).symm.map some)
      keyed := hpanes.keyed hkeyed }
    active := by rwa [hactive]
    activeKept := by
      intro hpassive old hm p hp hin
      rw [hactive]
      rw [← hold old hm] at hp
      exact hkept hpassive p hp hin
    sessions := by
      intro old hm p pane hp hin
      rw [← hold old hm] at hp
      exact hpanes.sessions p pane (hget.mpr ⟨hp, hin⟩) }

/-- Every tab of the state has had its round, and no other tab is touched. -/
theorem applyTabs_applied (page : BrowserPage) (passive : Bool) (targetName : String) : ∀ {tabs : List SentTab}
    {w : BrowserWorkspace} (changedTabs : List String), (tabs.map (·.id)).Nodup → (∀ t ∈ tabs, t.Sound) →
    (∀ t ∈ tabs, ∀ tab ∈ w.tabs.get t.id, tab.id = t.id ∧ tab.Sound) →
    (∀ t ∈ tabs, ∃ tab ∈ (tabs.foldl (applyTab page passive targetName) (w, changedTabs)).1.tabs.get t.id,
        Applied passive t (w.tabs.get t.id) tab) ∧
      (∀ k, k ∉ tabs.map (·.id) →
        (tabs.foldl (applyTab page passive targetName) (w, changedTabs)).1.tabs.get k = w.tabs.get k) ∧
      (tabs.foldl (applyTab page passive targetName) (w, changedTabs)).1.activeTabId = w.activeTabId
  | [], w, changedTabs, _, _, _ => ⟨fun _ h => absurd h List.not_mem_nil, fun _ _ => rfl, rfl⟩
  | t :: tabs, w, changedTabs, hn, hs, hw => by
    obtain ⟨hnot, hn⟩ := List.nodup_cons.mp hn
    obtain ⟨ht, hs⟩ := List.forall_mem_cons.mp hs
    obtain ⟨hwt, hw⟩ := List.forall_mem_cons.mp hw
    obtain ⟨tab, hedit, happlied⟩ := applyTab_applied page passive targetName changedTabs ht hwt
    rw [List.foldl_cons]
    generalize applyTab page passive targetName (w, changedTabs) t = done at hedit ⊢
    obtain ⟨w₁, changed₁⟩ := done
    have hother {u : SentTab} (hu : u ∈ tabs) : w₁.tabs.get u.id = w.tabs.get u.id :=
      hedit.others u.id fun he => hnot (List.mem_map.mpr ⟨u, hu, he⟩)
    obtain ⟨hall, hrest, hactive⟩ := applyTabs_applied page passive targetName changed₁ hn hs fun u hu tab hm =>
      hw u hu tab (by rwa [← hother hu])
    refine ⟨List.forall_mem_cons.mpr ⟨⟨tab, ?_, happlied⟩, fun u hu => ?_⟩, fun k hk => ?_, hactive.trans hedit.active⟩
    · rw [hrest t.id hnot]
      exact hedit.here
    · rw [← hother hu]
      exact hall u hu
    · rw [List.map_cons, List.mem_cons, not_or] at hk
      exact (hrest k hk.2).trans (hedit.others k hk.1)

/-! ## Closing tabs -/

theorem rememberRecentTab_frame (w : BrowserWorkspace) (id : String) (previous : Option String) :
    (w.rememberRecentTab id previous).tabs = w.tabs ∧ (w.rememberRecentTab id previous).activeTabId = w.activeTabId := by
  unfold rememberRecentTab applyRecentTabIds
  exact ⟨rfl, rfl⟩

@[simp] theorem setActiveTab_tabs (w : BrowserWorkspace) (id : String) (rememberRecent : Bool) :
    (w.setActiveTab id rememberRecent).tabs = w.tabs := by
  unfold setActiveTab
  split
  · dsimp only
    split
    · exact (rememberRecentTab_frame _ _ _).1
    · rfl
  · rfl

theorem setActiveTab_active {w : BrowserWorkspace} {id : String} (h : w.tabs.has id = true) (rememberRecent : Bool) :
    (w.setActiveTab id rememberRecent).activeTabId = some id := by
  unfold setActiveTab
  rw [if_pos h]
  dsimp only
  split
  · exact (rememberRecentTab_frame _ _ _).2
  · rfl

theorem disposePanes_frame : ∀ (panes : List PaneSession) (w : BrowserWorkspace),
    (panes.foldl disposePane w).tabs = w.tabs ∧ (panes.foldl disposePane w).activeTabId = w.activeTabId
  | [], _ => ⟨rfl, rfl⟩
  | pane :: panes, w => disposePanes_frame panes (w.disposePane pane)

theorem destroyHistories_frame (targetName : String) : ∀ (panes : List PaneSession) (w : BrowserWorkspace),
    (panes.foldl (destroyLocalHistory targetName) w).tabs = w.tabs ∧
      (panes.foldl (destroyLocalHistory targetName) w).activeTabId = w.activeTabId
  | [], _ => ⟨rfl, rfl⟩
  | pane :: panes, w => by
    obtain ⟨htabs, hactive⟩ := destroyHistories_frame targetName panes (w.destroyLocalHistory targetName pane)
    obtain ⟨htabs', hactive'⟩ := dropPane_frame targetName w pane
    exact ⟨htabs.trans htabs', hactive.trans hactive'⟩

theorem closeTab_tabs (page : BrowserPage) {w : BrowserWorkspace} (hw : w.Keyed) (k : String) :
    (w.closeTab page k).tabs = w.tabs.delete k ∨ w.tabs.get k = none ∧ w.closeTab page k = w := by
  unfold closeTab
  split
  · rename_i h
    exact .inr ⟨h, rfl⟩
  · rename_i tab h
    left
    dsimp only
    rw [hw k tab h, (disposePanes_frame tab.panes.values w).1]
    split
    · split
      · exact setActiveTab_tabs ..
      · rfl
    · rfl

theorem closeTab_get (page : BrowserPage) {w : BrowserWorkspace} (hw : w.Keyed) (k k' : String) :
    (w.closeTab page k).tabs.get k' = if k' = k then none else w.tabs.get k' := by
  rcases closeTab_tabs page hw k with h | ⟨hnone, h⟩
  · rw [h]
    exact w.tabs.get_delete k'
  · rw [h]
    split
    · rename_i he
      rw [he, hnone]
    · rfl

/-- Only closing the active tab moves to another one. -/
theorem closeTab_active (page : BrowserPage) {w : BrowserWorkspace} (hw : w.Keyed) {k : String} (h : w.activeTabId ≠ some k) :
    (w.closeTab page k).activeTabId = w.activeTabId := by
  unfold closeTab
  split
  · rfl
  · rename_i tab htab
    dsimp only
    rw [hw k tab htab, (disposePanes_frame tab.panes.values w).2, if_neg h]

/-- Some tabs are closed: the others stand, and the active one stays active if it stands. -/
structure Closes (gone : String → Prop) (w w' : BrowserWorkspace) : Prop where
  closed : ∀ k, gone k → w'.tabs.get k = none
  others : ∀ k, ¬gone k → w'.tabs.get k = w.tabs.get k
  active : ∀ k, ¬gone k → w.activeTabId = some k → w'.activeTabId = some k

theorem Closes.keyed {gone : String → Prop} {w w' : BrowserWorkspace} (h : Closes gone w w') (hw : w.Keyed) : w'.Keyed := by
  intro k tab hk
  by_cases hg : gone k
  · rw [h.closed k hg] at hk
    cases hk
  · rw [h.others k hg] at hk
    exact hw k tab hk

theorem Closes.trans {gone₁ gone₂ : String → Prop} {w w₁ w₂ : BrowserWorkspace} (h₁ : Closes gone₁ w w₁)
    (h₂ : Closes gone₂ w₁ w₂) : Closes (fun k => gone₁ k ∨ gone₂ k) w w₂ where
  closed := by
    intro k hk
    by_cases hg : gone₂ k
    · exact h₂.closed k hg
    · rw [h₂.others k hg, h₁.closed k (hk.resolve_right hg)]
  others := fun k hk => (h₂.others k fun h => hk (.inr h)).trans (h₁.others k fun h => hk (.inl h))
  active := fun k hk ha => h₂.active k (fun h => hk (.inr h)) (h₁.active k (fun h => hk (.inl h)) ha)

theorem closes_none (w : BrowserWorkspace) : Closes (fun _ => False) w w :=
  ⟨fun _ h => h.elim, fun _ _ => rfl, fun _ _ h => h⟩

theorem closeTab_closes (page : BrowserPage) {w : BrowserWorkspace} (hw : w.Keyed) (id : String) :
    Closes (· = id) w (w.closeTab page id) where
  closed := fun k hk => by rw [closeTab_get page hw, if_pos hk]
  others := fun k hk => by rw [closeTab_get page hw, if_neg hk]
  active := fun k hk ha => (closeTab_active page hw (by rw [ha]; exact fun h => hk (Option.some.inj h))).trans ha

/-- A loop that closes tabs, one or none in a round. -/
theorem foldl_closes {α : Type} {step : BrowserWorkspace → α → BrowserWorkspace} {gone : α → String → Prop}
    (hstep : ∀ w x, w.Keyed → Closes (gone x) w (step w x)) : ∀ (l : List α) {w : BrowserWorkspace}, w.Keyed →
    Closes (fun k => ∃ x ∈ l, gone x k) w (l.foldl step w)
  | [], w, _ => by
    have h := closes_none w
    exact ⟨fun k ⟨x, hx, _⟩ => absurd hx List.not_mem_nil, fun k _ => h.others k id, fun k _ => h.active k id⟩
  | x :: l, w, hw => by
    have h₁ := hstep w x hw
    have h := h₁.trans (foldl_closes hstep l (h₁.keyed hw))
    have hiff (k : String) : (∃ y ∈ x :: l, gone y k) ↔ gone x k ∨ ∃ y ∈ l, gone y k := by simp
    exact ⟨fun k hk => h.closed k ((hiff k).mp hk), fun k hk => h.others k fun hg => hk ((hiff k).mpr hg),
      fun k hk => h.active k fun hg => hk ((hiff k).mpr hg)⟩

theorem closeGone_closes (page : BrowserPage) (targetName : String) (nextTabIDs : List String) (w : BrowserWorkspace)
    (tab : BrowserTab) (hw : w.Keyed) : Closes (fun k => k = tab.id ∧ k ∉ nextTabIDs) w (w.closeGone page targetName nextTabIDs tab) := by
  unfold closeGone
  by_cases hin : tab.id ∈ nextTabIDs
  · rw [if_pos (List.contains_iff_mem.mpr hin)]
    have h := closes_none w
    exact ⟨fun k hk => absurd hin (hk.1 ▸ hk.2), fun k _ => h.others k id, fun k _ => h.active k id⟩
  · rw [if_neg fun h => hin (List.contains_iff_mem.mp h)]
    obtain ⟨htabs, hactive⟩ := destroyHistories_frame targetName tab.panes.values w
    generalize tab.panes.values.foldl (destroyLocalHistory targetName) w = w₁ at htabs hactive
    have hw₁ : w₁.Keyed := fun k tab hk => hw k tab (by rwa [htabs] at hk)
    have h := closeTab_closes page hw₁ tab.id
    have hiff {k : String} : (k = tab.id ∧ k ∉ nextTabIDs) ↔ k = tab.id := and_iff_left_of_imp fun he => he ▸ hin
    exact ⟨fun k hk => h.closed k hk.1, fun k hk => (h.others k fun he => hk (hiff.mpr he)).trans (by rw [htabs]),
      fun k hk ha => h.active k (fun he => hk (hiff.mpr he)) (hactive.trans ha)⟩

/-! ## In line with the state -/

/-- The tabs are those of the state; `before` are the tabs that were not closed for a new generation. -/
structure Reconciled (passive : Bool) (s : SentState) (before : String → Option BrowserTab) (w : BrowserWorkspace) : Prop where
  tabs : ∀ t ∈ s.tabs, ∃ tab ∈ w.tabs.get t.id, Applied passive t (before t.id) tab
  gone : ∀ k, k ∉ s.tabs.map (·.id) → w.tabs.get k = none

theorem Reconciled.has_iff {passive : Bool} {s : SentState} {before : String → Option BrowserTab} {w : BrowserWorkspace}
    (h : Reconciled passive s before w) (k : String) : w.tabs.has k = true ↔ k ∈ s.tabs.map (·.id) := by
  rw [OrderedMap.has_iff]
  constructor
  · rintro ⟨tab, htab⟩
    by_contra hnot
    rw [h.gone k hnot] at htab
    cases htab
  · intro hm
    obtain ⟨t, ht, rfl⟩ := List.mem_map.mp hm
    obtain ⟨tab, htab, -⟩ := h.tabs t ht
    exact ⟨tab, htab⟩

/-- A tab that is there is one of the state. -/
theorem Reconciled.applied {passive : Bool} {s : SentState} {before : String → Option BrowserTab} {w : BrowserWorkspace}
    (h : Reconciled passive s before w) {k : String} {tab : BrowserTab} (hk : w.tabs.get k = some tab) :
    ∃ t ∈ s.tabs, t.id = k ∧ Applied passive t (before k) tab := by
  obtain ⟨t, ht, rfl⟩ := List.mem_map.mp ((h.has_iff k).mp (w.tabs.has_iff.mpr ⟨tab, hk⟩))
  obtain ⟨tab', htab', happlied⟩ := h.tabs t ht
  rw [Option.mem_def, hk] at htab'
  cases htab'
  exact ⟨t, ht, rfl, happlied⟩

theorem Reconciled.sound {passive : Bool} {s : SentState} {before : String → Option BrowserTab} {w : BrowserWorkspace}
    (h : Reconciled passive s before w) : w.Sound where
  keyed := by
    intro k tab hk
    obtain ⟨t, -, hid, happlied⟩ := h.applied hk
    exact happlied.id.trans hid
  tabs := by
    intro k tab hk
    obtain ⟨t, -, -, happlied⟩ := h.applied hk
    exact happlied.sound

theorem reconcile_reconciled (page : BrowserPage) (passive changed : Bool) (targetName : String) {s : SentState}
    {w : BrowserWorkspace} (hw : w.Sound) (hs : s.Sound) :
    Reconciled passive s (fun k => if changed then none else w.tabs.get k) (reconcile page passive changed targetName s w).1 ∧
      (changed = false → ∀ k ∈ s.tabs.map (·.id), w.activeTabId = some k →
        (reconcile page passive changed targetName s w).1.activeTabId = some k) := by
  unfold reconcile
  dsimp only
  -- A new generation closes every tab.
  have hfirst : Closes (fun k => changed = true ∧ w.tabs.has k = true) w
      (if changed then (w.tabs.values.map (·.id)).foldl (closeTab page) w else w) := by
    cases changed with
    | false =>
      have h := closes_none w
      exact ⟨fun k hk => absurd hk.1 Bool.false_ne_true, fun k _ => h.others k id, fun k _ => h.active k id⟩
    | true =>
      have h := foldl_closes (fun w id hw => closeTab_closes page hw id) (w.tabs.values.map (·.id)) hw.keyed
      have hiff (k : String) : (∃ id ∈ w.tabs.values.map (·.id), k = id) ↔ w.tabs.has k = true := by
        rw [OrderedMap.has_iff]
        constructor
        · rintro ⟨id, hm, rfl⟩
          obtain ⟨tab, htab, rfl⟩ := List.mem_map.mp hm
          obtain ⟨k, hk⟩ := w.tabs.exists_of_mem_values htab
          exact ⟨tab, by rw [hw.keyed k tab hk, hk]⟩
        · rintro ⟨tab, htab⟩
          exact ⟨k, List.mem_map.mpr ⟨tab, w.tabs.mem_of_get htab, hw.keyed k tab htab⟩, rfl⟩
      exact ⟨fun k hk => h.closed k ((hiff k).mpr hk.2), fun k hk => h.others k fun hg => hk ⟨rfl, (hiff k).mp hg⟩,
        fun k hk => h.active k fun hg => hk ⟨rfl, (hiff k).mp hg⟩⟩
  generalize (if changed then (w.tabs.values.map (·.id)).foldl (closeTab page) w else w) = w₁ at hfirst ⊢
  have hw₁ : w₁.Keyed := hfirst.keyed hw.keyed
  have hget₁ (k : String) : w₁.tabs.get k = if changed then none else w.tabs.get k := by
    by_cases hg : changed = true ∧ w.tabs.has k = true
    · rw [hfirst.closed k hg, if_pos hg.1]
    · rw [hfirst.others k hg]
      cases hc : changed with
      | false => rfl
      | true => exact Option.not_isSome_iff_eq_none.mp fun hsome => hg ⟨hc, hsome⟩
  -- The tabs that the state has not are closed.
  have hsecond := foldl_closes (closeGone_closes page targetName (s.tabs.map (·.id))) w₁.tabs.values hw₁
  have hstay {k : String} (hk : k ∈ s.tabs.map (·.id)) :
      ¬∃ tab ∈ w₁.tabs.values, k = tab.id ∧ k ∉ s.tabs.map (·.id) := fun ⟨_, _, _, hnot⟩ => hnot hk
  have hgone {k : String} (hk : k ∉ s.tabs.map (·.id)) :
      (w₁.tabs.values.foldl (closeGone page targetName (s.tabs.map (·.id))) w₁).tabs.get k = none := by
    cases hget : w₁.tabs.get k with
    | some tab => exact hsecond.closed k ⟨tab, w₁.tabs.mem_of_get hget, (hw₁ k tab hget).symm, hk⟩
    | none =>
      rw [hsecond.others k, hget]
      rintro ⟨tab, htab, rfl, -⟩
      obtain ⟨k', hk'⟩ := w₁.tabs.exists_of_mem_values htab
      rw [hw₁ k' tab hk', hk'] at hget
      cases hget
  generalize w₁.tabs.values.foldl (closeGone page targetName (s.tabs.map (·.id))) w₁ = w₂ at hsecond hgone ⊢
  have hget₂ {t : SentTab} (ht : t ∈ s.tabs) : w₂.tabs.get t.id = if changed then none else w.tabs.get t.id := by
    rw [hsecond.others _ (hstay (List.mem_map_of_mem ht)), hget₁]
  have hw₂ : ∀ t ∈ s.tabs, ∀ tab ∈ w₂.tabs.get t.id, tab.id = t.id ∧ tab.Sound := by
    intro t ht tab htab
    rw [hget₂ ht] at htab
    split at htab
    · cases htab
    · exact ⟨hw.keyed _ _ htab, hw.tabs _ _ htab⟩
  obtain ⟨hall, hrest, hactive⟩ := applyTabs_applied page passive targetName [] hs.distinct hs.tabs hw₂
  refine ⟨⟨fun t ht => ?_, fun k hk => (hrest k hk).trans (hgone hk)⟩, fun hc k hk ha => ?_⟩
  · rw [← hget₂ ht]
    exact hall t ht
  · rw [hactive]
    exact hsecond.active k (hstay hk) (hfirst.active k (fun hg => by rw [hc] at hg; exact absurd hg.1 Bool.false_ne_true) ha)

/-! ## The active tab -/

theorem applyRecentTabIds_frame (w : BrowserWorkspace) (ids : List String) :
    (w.applyRecentTabIds ids).tabs = w.tabs ∧ (w.applyRecentTabIds ids).activeTabId = w.activeTabId := by
  unfold applyRecentTabIds
  exact ⟨rfl, rfl⟩

/-- The active tab is there, and there is one unless there are no tabs. -/
def ActiveSound (w : BrowserWorkspace) : Prop :=
  (∀ k ∈ w.activeTabId, w.tabs.has k = true) ∧ (w.activeTabId = none ↔ ∀ k, w.tabs.has k = false)

theorem activeSound_of_some {w : BrowserWorkspace} {k : String} (ha : w.activeTabId = some k) (hk : w.tabs.has k = true) :
    w.ActiveSound := by
  refine ⟨fun k' h => ?_, ?_⟩
  · rw [← Option.some.inj (ha.symm.trans h)]
    exact hk
  · rw [ha]
    refine ⟨nofun, fun h => ?_⟩
    rw [h k] at hk
    cases hk

theorem activeSound_cleared {w : BrowserWorkspace} (h : w.tabs.first = none) : w.clearActiveTab.ActiveSound := by
  refine ⟨nofun, fun _ k => ?_, fun _ => rfl⟩
  rw [Bool.eq_false_iff]
  intro hk
  obtain ⟨tab, htab⟩ := w.tabs.has_iff.mp hk
  have := w.tabs.mem_of_get htab
  rw [w.tabs.first_eq_none.mp h] at this
  cases this

/-- A tab that stands in the map, if there is one. -/
def Standing (w : BrowserWorkspace) (choice : Option BrowserTab) : Prop := ∀ tab ∈ choice, w.tabs.has tab.id = true

theorem standing_get {w : BrowserWorkspace} (hw : w.Keyed) (k : String) : w.Standing (w.tabs.get k) := by
  intro tab htab
  rw [hw k tab htab]
  exact w.tabs.has_iff.mpr ⟨tab, htab⟩

theorem standing_first {w : BrowserWorkspace} (hw : w.Keyed) : w.Standing w.tabs.first := by
  intro tab htab
  obtain ⟨k, hk⟩ := w.tabs.exists_of_mem_values (w.tabs.first_mem htab)
  exact standing_get hw k tab hk

theorem standing_bind {w : BrowserWorkspace} (hw : w.Keyed) (choice : Option String) : w.Standing (choice.bind w.tabs.get) := by
  intro tab htab
  obtain ⟨k, -, hk⟩ := Option.bind_eq_some_iff.mp htab
  exact standing_get hw k tab hk

theorem Standing.or {w : BrowserWorkspace} {choice other : Option BrowserTab} (h : w.Standing choice) (h' : w.Standing other) :
    w.Standing (choice.or other) := by
  intro tab htab
  rcases Option.or_eq_some_iff.mp htab with hc | ⟨-, ho⟩
  · exact h tab hc
  · exact h' tab ho

theorem keepActive_tabs (previous : Option String) (changedTabs : List String) (w : BrowserWorkspace) :
    (keepActive previous changedTabs w).tabs = w.tabs := by
  unfold keepActive
  split
  · rfl
  · split
    · exact setActiveTab_tabs ..
    · rfl

theorem keepActive_sound {w : BrowserWorkspace} (hw : w.Keyed) {previous : Option String} (changedTabs : List String)
    (hprevious : ∀ k ∈ previous, w.tabs.has k = true → w.activeTabId = some k) :
    (keepActive previous changedTabs w).ActiveSound ∧
      ∀ k ∈ previous, w.tabs.has k = true → (keepActive previous changedTabs w).activeTabId = some k := by
  unfold keepActive
  split
  · rename_i hnone
    obtain ⟨hor, hfirst⟩ := Option.or_eq_none_iff.mp hnone
    refine ⟨activeSound_cleared hfirst, fun k hk hhas => ?_⟩
    obtain ⟨tab, htab⟩ := w.tabs.has_iff.mp hhas
    have hbind := (Option.or_eq_none_iff.mp hor).1
    rw [Option.mem_def.mp hk, Option.bind_some, htab] at hbind
    cases hbind
  · rename_i current hcurrent
    have hhas : w.tabs.has current.id = true :=
      ((standing_bind hw previous).or (standing_bind hw w.activeTabId)).or (standing_first hw) current hcurrent
    -- Where the previous tab is still there, it is the current one.
    have hprev : ∀ k ∈ previous, w.tabs.has k = true → current.id = k := by
      intro k hk hhas
      obtain ⟨tab, htab⟩ := w.tabs.has_iff.mp hhas
      rw [Option.mem_def.mp hk, Option.bind_some, htab, Option.some_or, Option.some_or] at hcurrent
      rw [← Option.some.inj hcurrent]
      exact hw k tab htab
    split
    · have hactive := setActiveTab_active hhas false
      refine ⟨activeSound_of_some hactive (by rw [setActiveTab_tabs]; exact hhas), fun k hk hin => ?_⟩
      rw [hactive, hprev k hk hin]
    · rename_i hsame
      rw [not_or, not_not] at hsame
      exact ⟨activeSound_of_some (hprevious _ hsame.1.symm hhas) hhas, hprevious⟩

theorem recallRecentTabs_frame (page : BrowserPage) (targetName : String) (s : SentState) (w : BrowserWorkspace) :
    (recallRecentTabs page targetName s w).tabs = w.tabs := by
  unfold recallRecentTabs
  split
  · exact (applyRecentTabIds_frame ..).1
  · exact (applyRecentTabIds_frame ..).1

theorem nextActiveTab_standing (page : BrowserPage) (targetName : String) (preferStateActiveTab : Bool) (s : SentState)
    {w : BrowserWorkspace} (hw : w.Keyed) : w.Standing (nextActiveTab page targetName preferStateActiveTab s w) ∧
      (nextActiveTab page targetName preferStateActiveTab s w = none → w.tabs.first = none) := by
  have hget (k : String) := standing_get hw k
  unfold nextActiveTab
  dsimp only
  split
  · exact ⟨((((hget _).or (hget _)).or (hget _)).or (hget _)).or (standing_first hw), fun h => (Option.or_eq_none_iff.mp h).2⟩
  · exact ⟨((((hget _).or (hget _)).or (hget _)).or (hget _)).or (standing_first hw), fun h => (Option.or_eq_none_iff.mp h).2⟩

theorem chooseActive_sound (page : BrowserPage) (targetName : String) (preferStateActiveTab : Bool) (s : SentState)
    {w : BrowserWorkspace} (hw : w.Keyed) : (chooseActive page targetName preferStateActiveTab s w).tabs = w.tabs ∧
      (chooseActive page targetName preferStateActiveTab s w).ActiveSound := by
  have htabs := recallRecentTabs_frame page targetName s w
  unfold chooseActive
  dsimp only
  generalize recallRecentTabs page targetName s w = w₁ at htabs ⊢
  have hw₁ : w₁.Keyed := fun k tab hk => hw k tab (by rwa [htabs] at hk)
  obtain ⟨hstanding, hnone⟩ := nextActiveTab_standing page targetName preferStateActiveTab s hw₁
  split
  · rename_i hn
    exact ⟨htabs, activeSound_cleared (hnone hn)⟩
  · rename_i next hnext
    have hhas := hstanding next hnext
    have hactive := setActiveTab_active hhas s.recent_tab_ids.isNone
    have hsame := setActiveTab_tabs w₁ next.id s.recent_tab_ids.isNone
    generalize w₁.setActiveTab next.id s.recent_tab_ids.isNone = w₂ at hactive hsame ⊢
    have hhas₂ : w₂.tabs.has next.id = true := by rw [hsame, hhas]
    split
    · obtain ⟨ht, ha⟩ := applyRecentTabIds_frame w₂ (next.id :: w₂.recentTabIds)
      exact ⟨ht.trans (hsame.trans htabs), activeSound_of_some (ha.trans hactive) (by rw [ht]; exact hhas₂)⟩
    · exact ⟨hsame.trans htabs, activeSound_of_some hactive hhas₂⟩

/-! ## The whole of it -/

/-- The browser's copy agrees with the state. -/
structure Agrees (s : SentState) (w : BrowserWorkspace) : Prop where
  tabs : ∀ k, w.tabs.has k = true ↔ k ∈ s.tabs.map (·.id)
  panes : ∀ t ∈ s.tabs, ∀ tab ∈ w.tabs.get t.id, ∀ p, tab.panes.has p = true ↔ p ∈ t.panes.map (·.id)
  layout : ∀ k, ∀ tab ∈ w.tabs.get k, (collectPaneIds tab.layout []).Perm (tab.panes.keys.map some)
  activePane : ∀ k, ∀ tab ∈ w.tabs.get k, ∃ p ∈ tab.activePaneId, tab.panes.has p = true
  activeTab : w.ActiveSound

/-- What the browser had chosen stays chosen, and the sessions of panes that stay in their tabs are kept. -/
structure KeptIn (w w' : BrowserWorkspace) : Prop where
  activeTab : ∀ k ∈ w.activeTabId, w'.tabs.has k = true → w'.activeTabId = some k
  activePane : ∀ k, ∀ tab ∈ w.tabs.get k, ∀ tab' ∈ w'.tabs.get k, ∀ p ∈ tab.activePaneId, tab'.panes.has p = true →
    tab'.activePaneId = some p
  sessions : ∀ k, ∀ tab ∈ w.tabs.get k, ∀ tab' ∈ w'.tabs.get k, ∀ p, ∀ pane ∈ tab.panes.get p, tab'.panes.has p = true →
    ∃ pane' ∈ tab'.panes.get p, pane'.object = pane.object

theorem Reconciled.agrees {passive : Bool} {s : SentState} {before : String → Option BrowserTab} {w : BrowserWorkspace}
    (h : Reconciled passive s before w) (hactive : w.ActiveSound) : w.Agrees s where
  tabs := h.has_iff
  panes := by
    intro t ht tab htab
    obtain ⟨tab', htab', happlied⟩ := h.tabs t ht
    rw [Option.some.inj (htab.symm.trans htab')]
    exact happlied.panes
  layout := fun k tab htab => (h.sound.tabs k tab htab).layout
  activePane := by
    intro k tab htab
    obtain ⟨t, -, -, happlied⟩ := h.applied htab
    obtain ⟨p, hp, hin⟩ := happlied.active
    exact ⟨p, hp, (happlied.panes p).mpr hin⟩
  activeTab := hactive

theorem Reconciled.kept {s : SentState} {w w' : BrowserWorkspace} (h : Reconciled true s w.tabs.get w')
    (hactive : ∀ k ∈ w.activeTabId, w'.tabs.has k = true → w'.activeTabId = some k) : w.KeptIn w' where
  activeTab := hactive
  activePane := by
    intro k tab htab tab' htab' p hp hhas
    obtain ⟨t, -, -, happlied⟩ := h.applied htab'
    exact happlied.activeKept rfl tab htab p hp ((happlied.panes p).mp hhas)
  sessions := by
    intro k tab htab tab' htab' p pane hpane hhas
    obtain ⟨t, -, -, happlied⟩ := h.applied htab'
    exact happlied.sessions tab htab p pane hpane ((happlied.panes p).mp hhas)

theorem Reconciled.of_tabs {passive : Bool} {s : SentState} {before : String → Option BrowserTab} {w w' : BrowserWorkspace}
    (h : Reconciled passive s before w) (htabs : w'.tabs = w.tabs) : Reconciled passive s before w' :=
  ⟨by rw [htabs]; exact h.tabs, by rw [htabs]; exact h.gone⟩

/-- A state arrives for the instance that is still shown, from a server that may serve it. -/
structure CurrentRequest (page : BrowserPage) (s : SentState) (options : ApplyOptions) : Prop where
  selector : ensureResponseSelector s (jsTrim options.instanceName) = .ok ()
  alive : page.disposed = false
  named : options.targetName s ≠ ""
  current : page.isCurrentRequest (options.targetName s) = true
  managed : requireManagedClientWorkspace s = .ok ()

theorem apply_eq {page : BrowserPage} {s : SentState} {options : ApplyOptions} (hc : CurrentRequest page s options)
    (w : BrowserWorkspace) : ∃ (v : BrowserWorkspace) (changed : Bool), v.tabs = w.tabs ∧ v.activeTabId = w.activeTabId ∧
      (jsTrim s.workspace_generation = w.activeWorkspaceGeneration → changed = false) ∧
      w.apply page s options =
        let r := reconcile page (options.preserveLocalState && !changed) changed (options.targetName s) s v
        .ok (if options.preserveLocalState && !changed then keepActive w.activeTabId r.2 r.1
          else chooseActive page (options.targetName s) options.preferStateActiveTab s r.1, true) := by
  have hguard : ¬(page.disposed = true ∨ options.targetName s = "" ∨ page.isCurrentRequest (options.targetName s) = false) := by
    rw [hc.alive, hc.current]
    simp [hc.named]
  unfold apply setWorkspaceGenerationFromState
  rw [hc.selector, hc.managed]
  simp only [bind, Except.bind]
  rw [if_neg hguard]
  by_cases hsame : jsTrim s.workspace_generation = w.activeWorkspaceGeneration
  · refine ⟨w, false, rfl, rfl, fun _ => rfl, ?_⟩
    rw [if_pos hsame]
  · refine ⟨{ w with activeWorkspaceGeneration := jsTrim s.workspace_generation }, true, rfl, rfl, fun h => absurd h hsame, ?_⟩
    rw [if_neg hsame]

theorem apply_agrees {page : BrowserPage} {s : SentState} {options : ApplyOptions} {w : BrowserWorkspace} (hw : w.Sound)
    (hs : s.Sound) (hc : CurrentRequest page s options) :
    ∃ w', w.apply page s options = .ok (w', true) ∧ w'.Sound ∧ w'.Agrees s ∧
      (options.preserveLocalState = true → jsTrim s.workspace_generation = w.activeWorkspaceGeneration → w.KeptIn w') := by
  obtain ⟨v, changed, htabs, hactive, hsame, heq⟩ := apply_eq hc w
  have hv : v.Sound := ⟨fun k tab hk => hw.keyed k tab (by rwa [← htabs]), fun k tab hk => hw.tabs k tab (by rwa [← htabs])⟩
  obtain ⟨hr, hstay⟩ := reconcile_reconciled page (options.preserveLocalState && !changed) changed (options.targetName s) hv hs
  rw [heq]
  dsimp only
  generalize reconcile page (options.preserveLocalState && !changed) changed (options.targetName s) s v = r at hr hstay ⊢
  refine ⟨_, rfl, ?_⟩
  cases hpassive : options.preserveLocalState && !changed with
  | false =>
    obtain ⟨ht, ha⟩ := chooseActive_sound page (options.targetName s) options.preferStateActiveTab s hr.sound.keyed
    have hr' := hr.of_tabs ht
    refine ⟨hr'.sound, hr'.agrees ha, fun hpreserve hgeneration => ?_⟩
    rw [hpreserve, hsame hgeneration] at hpassive
    cases hpassive
  | true =>
    obtain ⟨hpreserve, hchanged⟩ := Bool.and_eq_true_iff.mp hpassive
    rw [Bool.not_eq_true'] at hchanged
    -- The previous tab has not been closed if it is one of the state.
    have hprevious : ∀ k ∈ w.activeTabId, r.1.tabs.has k = true → r.1.activeTabId = some k := by
      intro k hk hhas
      exact hstay hchanged k ((hr.has_iff k).mp hhas) (hactive.trans hk)
    obtain ⟨ha, hkept⟩ := keepActive_sound hr.sound.keyed r.2 hprevious
    have ht := keepActive_tabs w.activeTabId r.2 r.1
    have hr' := hr.of_tabs ht
    refine ⟨hr'.sound, hr'.agrees ha, fun _ _ => ?_⟩
    rw [hpassive, hchanged] at hr'
    simp only [Bool.false_eq_true, if_false, htabs] at hr'
    exact hr'.kept fun k hk hhas => hkept k hk (by rwa [ht] at hhas)

def leafOf (paneId : String) : BrowserNode := .node .leaf .none (some paneId) [] none

/-- Two panes side by side in one tab, which is shown. -/
def sideBySide : BrowserWorkspace where
  tabs := ⟨[("tab-1", {
    id := "tab-1", label := "ROOT", customLabel := false, activePaneId := some "pane-1"
    layout := .node .split .vertical none [leafOf "pane-1", leafOf "pane-2"] none
    panes := ⟨[("pane-1", { object := 0, id := "pane-1", name := "box", initialCols := 80, initialRows := 24 }),
      ("pane-2", { object := 1, id := "pane-2", name := "box", initialCols := 80, initialRows := 24 })], by decide⟩ })], by decide⟩
  activeTabId := some "tab-1"
  activeWorkspaceGeneration := "g"
  nextObject := 2

/-- The second pane has moved to a tab of its own. -/
def movedApart : SentState where
  selector := "box"
  agent_capabilities := []
  workspace_generation := "g"
  active_tab_id := "tab-2"
  recent_tab_ids := some ["tab-2", "tab-1"]
  tabs := [
    { id := "tab-1", label := "ROOT", custom_label := false, active_pane_id := "pane-1", layout := leafOf "pane-1"
      panes := [{ id := "pane-1", cols := 80, rows := 24, exited := false }] },
    { id := "tab-2", label := "ROOT", custom_label := false, active_pane_id := "pane-2", layout := leafOf "pane-2"
      panes := [{ id := "pane-2", cols := 80, rows := 24, exited := false }] }]

def boxPage : BrowserPage where
  disposed := false
  isCurrentRequest name := name == "box"
  readRestartTabForName _ := ""
  requestedTab := ""
  readLastActiveTab _ := "tab-1"
  storedRecentTabIds _ := []
  tabButtons _ := []
  defaultLabel id := id

theorem apply_agrees_moved : ∃ w', sideBySide.apply boxPage movedApart { instanceName := "box", preserveLocalState := true } =
    .ok (w', true) ∧ w'.Sound ∧ w'.Agrees movedApart ∧ sideBySide.KeptIn w' := by
  have hw : sideBySide.Sound := by
    constructor
    · intro k tab h
      cases List.mem_singleton.mp (sideBySide.tabs.entry_of_get h)
      rfl
    · intro k tab h
      cases List.mem_singleton.mp (sideBySide.tabs.entry_of_get h)
      refine ⟨List.Perm.refl _, fun p pane hp => ?_⟩
      rcases List.mem_pair.mp (OrderedMap.entry_of_get _ hp) with he | he
      · cases he
        rfl
      · cases he
        rfl
  have hs : movedApart.Sound := by
    refine ⟨by decide, fun t ht => ?_⟩
    rcases List.mem_pair.mp ht with rfl | rfl
    · exact ⟨by decide, List.Perm.refl _, by decide⟩
    · exact ⟨by decide, List.Perm.refl _, by decide⟩
  have hc : CurrentRequest boxPage movedApart { instanceName := "box", preserveLocalState := true } :=
    ⟨by decide +kernel, rfl, by decide +kernel, by decide +kernel, by decide +kernel⟩
  obtain ⟨w', happly, hsound, hagrees, hkept⟩ := apply_agrees hw hs hc
  exact ⟨w', happly, hsound, hagrees, hkept rfl (by decide +kernel)⟩

end BrowserWorkspace

end Webshell
