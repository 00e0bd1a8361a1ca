import Webshell.WorkspaceInv

/-!
# Every action keeps the structural invariant

`WorkspaceInv` is what holds of a workspace between any two operations. Each
action is followed through the core lemma for what it does to the tabs, and
ends by selecting a tab or by keeping the selection.
-/

namespace Webshell

open GoText

def RecentInv (tabs : List TerminalTab) (recent : List String) : Prop :=
  recent.length ≤ 2 ∧ recent.Nodup ∧ ∀ id ∈ recent, id ∈ tabIDsOf tabs

/-- The active tab exists unless there is none; recent tabs are two existing ones at most. -/
structure SelectInv (w : Workspace) : Prop where
  active : w.activeTab ∈ tabIDsOf w.tabs ∨ w.activeTab = "" ∧ w.tabs = []
  recent : RecentInv w.tabs w.recentTabs

structure WorkspaceInv (w : Workspace) : Prop where
  core : CoreInv w.tabs w.panes w.nextTabID w.nextPaneID
  select : SelectInv w

namespace Workspace

/-! ## Active and recent tabs -/

theorem appendRecentTab_inv {w : Workspace} {items : List String} (tabID : String) (hn : items.Nodup)
    (hm : ∀ id ∈ items, id ∈ tabIDsOf w.tabs) :
    (w.appendRecentTabLocked items tabID).Nodup ∧ (∀ id ∈ w.appendRecentTabLocked items tabID, id ∈ tabIDsOf w.tabs) ∧
      (w.appendRecentTabLocked items tabID).length ≤ items.length + 1 := by
  unfold appendRecentTabLocked
  simp only
  split
  · exact ⟨hn, hm, by omega⟩
  · rename_i hf
    split
    · exact ⟨hn, hm, by omega⟩
    · rename_i hc
      rw [not_or, findTabLocked_none, not_not] at hf
      have hnot : trimSpace tabID ∉ items := by simpa using hc
      refine ⟨?_, ?_, by simp⟩
      · exact List.nodup_append.mpr ⟨hn, List.nodup_singleton _, fun a ha b hb => by
          rw [List.mem_singleton.mp hb]; exact fun e => hnot (e ▸ ha)⟩
      · intro id hid
        rcases List.mem_append.mp hid with hid | hid
        · exact hm id hid
        · rw [List.mem_singleton.mp hid]; exact hf.2

theorem collectRecentTabs_inv (w : Workspace) : ∀ (tabIDs next : List String), next.length ≤ 1 → next.Nodup →
    (∀ id ∈ next, id ∈ tabIDsOf w.tabs) → RecentInv w.tabs (w.collectRecentTabs tabIDs next)
  | [], next, hl, hn, hm => ⟨by simp only [collectRecentTabs]; omega, hn, hm⟩
  | tabID :: tabIDs, next, hl, hn, hm => by
    obtain ⟨hn', hm', hl'⟩ := appendRecentTab_inv tabID hn hm
    rw [collectRecentTabs]
    split
    · exact ⟨by omega, hn', hm'⟩
    · exact collectRecentTabs_inv w tabIDs _ (by omega) hn' hm'

theorem setRecentTabs_inv (w : Workspace) (tabIDs : List String) :
    RecentInv (w.setRecentTabsLocked tabIDs).tabs (w.setRecentTabsLocked tabIDs).recentTabs :=
  collectRecentTabs_inv w tabIDs [] (by simp) List.nodup_nil (by simp)

theorem setRecentTabs_frame (w : Workspace) (tabIDs : List String) :
    ∃ recent, w.setRecentTabsLocked tabIDs = { w with recentTabs := recent } ∧ RecentInv w.tabs recent :=
  ⟨_, rfl, setRecentTabs_inv w tabIDs⟩

@[simp] theorem setRecentTabs_tabs (w : Workspace) (tabIDs : List String) :
    (w.setRecentTabsLocked tabIDs).tabs = w.tabs := rfl

@[simp] theorem setRecentTabs_activeTab (w : Workspace) (tabIDs : List String) :
    (w.setRecentTabsLocked tabIDs).activeTab = w.activeTab := rfl

theorem select_withActive {v : Workspace} {tabID : String} (hr : RecentInv v.tabs v.recentTabs)
    (hm : tabID ∈ tabIDsOf v.tabs) : SelectInv { v with activeTab := tabID } := ⟨Or.inl hm, hr⟩

/-- Selecting a tab touches the selection only. -/
theorem setActiveTab_frame (w : Workspace) (tabID : String) :
    ∃ active recent, w.setActiveTabLocked tabID = { w with activeTab := active, recentTabs := recent } := by
  unfold setActiveTabLocked rememberRecentTabLocked pruneRecentTabsLocked setRecentTabsLocked
  simp only
  split
  · exact ⟨_, _, rfl⟩
  · split
    · exact ⟨_, _, rfl⟩
    · split <;> exact ⟨_, _, rfl⟩

@[simp] theorem setActiveTab_tabs (w : Workspace) (tabID : String) : (w.setActiveTabLocked tabID).tabs = w.tabs := by
  obtain ⟨_, _, h⟩ := setActiveTab_frame w tabID; rw [h]

theorem rememberRecentTab_eq {w : Workspace} {tabID : String} (ht : Trimmed tabID) (hm : tabID ∈ tabIDsOf w.tabs) :
    w.rememberRecentTabLocked tabID = w.setRecentTabsLocked (tabID :: w.activeTab :: w.recentTabs) := by
  have hf : ¬ (tabID = "" ∨ w.findTabLocked tabID = none) := by
    rw [findTabLocked_none, not_or, not_not]; exact ⟨ht.2, hm⟩
  unfold rememberRecentTabLocked
  rw [ht.1]
  exact if_neg hf

theorem setActiveTab_eq {w : Workspace} {tabID : String} (ht : Trimmed tabID) (hm : tabID ∈ tabIDsOf w.tabs) :
    w.setActiveTabLocked tabID =
      { w.setRecentTabsLocked (tabID :: w.activeTab :: w.recentTabs) with activeTab := tabID } := by
  have hf : ¬ w.findTabLocked tabID = none := by rw [findTabLocked_none, not_not]; exact hm
  unfold setActiveTabLocked
  rw [ht.1]
  simp only
  rw [if_neg ht.2, if_neg hf, rememberRecentTab_eq ht hm]

theorem setActiveTab_select {w : Workspace} {tabID : String} (ht : Trimmed tabID) (hm : tabID ∈ tabIDsOf w.tabs) :
    SelectInv (w.setActiveTabLocked tabID) := by
  rw [setActiveTab_eq ht hm]
  exact select_withActive (setRecentTabs_inv w _) (by rw [setRecentTabs_tabs]; exact hm)

theorem pruneRecentTabs_select {w : Workspace}
    (h : w.activeTab ∈ tabIDsOf w.tabs ∨ w.activeTab = "" ∧ w.tabs = []) : SelectInv w.pruneRecentTabsLocked where
  active := by unfold pruneRecentTabsLocked; rw [setRecentTabs_tabs, setRecentTabs_activeTab]; exact h
  recent := setRecentTabs_inv w w.recentTabs

theorem setActiveTab_none {w : Workspace} (ht : w.tabs = []) : SelectInv (w.setActiveTabLocked "") := by
  unfold setActiveTabLocked
  rw [trimSpace_empty]
  simp only [ite_true]
  exact pruneRecentTabs_select (Or.inr ⟨rfl, ht⟩)

theorem SelectInv.of_frame {w w' : Workspace} (h : SelectInv w) (ht : ∀ id, id ∈ tabIDsOf w'.tabs ↔ id ∈ tabIDsOf w.tabs)
    (ha : w'.activeTab = w.activeTab) (hr : w'.recentTabs = w.recentTabs) : SelectInv w' where
  active := by
    rw [ha]
    rcases h.active with hm | ⟨he, hn⟩
    · exact Or.inl ((ht _).mpr hm)
    · refine Or.inr ⟨he, ?_⟩
      cases hw : w'.tabs with
      | nil => rfl
      | cons t ts =>
        have := (ht t.ID).mp (by rw [hw]; exact List.mem_cons_self ..)
        rw [hn] at this; cases this
  recent := by
    rw [hr]
    exact ⟨h.recent.1, h.recent.2.1, fun id hid => (ht id).mpr (h.recent.2.2 id hid)⟩

/-- After an edit of the tabs that keeps the core, selecting a tab gives the whole invariant. -/
theorem inv_setActiveTab {w : Workspace} {tabID : String}
    (h : CoreInv w.tabs w.panes w.nextTabID w.nextPaneID) (hm : tabID ∈ tabIDsOf w.tabs) :
    WorkspaceInv (w.setActiveTabLocked tabID) := by
  refine ⟨?_, setActiveTab_select (h.trimmed tabID hm) hm⟩
  obtain ⟨_, _, he⟩ := setActiveTab_frame w tabID
  rw [he]; exact h

/-! ## New panes and tabs -/

/-- Starting a pane: an error uses up the id and nothing else. -/
theorem newPane_cases (w : Workspace) (cols rows : Int) (cwd : String) (spawn : SpawnResult) :
    (∃ err, w.newPaneLocked cols rows cwd spawn = ({ w with nextPaneID := w.nextPaneID + 1 }, .error err)) ∨
    ∃ pane : WorkspacePane, pane.id = taggedID "pane-" w.nextPaneID ∧ pane.exited = false ∧
      w.newPaneLocked cols rows cwd spawn =
        ({ w with
            nextPaneID := w.nextPaneID + 1
            panes := w.panes.insert (taggedID "pane-" w.nextPaneID) pane
            running := taggedID "pane-" w.nextPaneID :: w.running }, .ok (taggedID "pane-" w.nextPaneID)) := by
  cases spawn with
  | error err => exact Or.inl ⟨err, rfl⟩
  | ok directory => exact Or.inr ⟨_, rfl, rfl, rfl⟩

theorem insertTab_perm (w : Workspace) (tab : TerminalTab) (sourceTabID : String) :
    ∃ tabs', w.insertTabAfterSourceLocked tab sourceTabID = { w with tabs := tabs' } ∧ tabs'.Perm (tab :: w.tabs) := by
  have key : ∀ n : Nat, ∃ tabs', (if w.tabs.length ≤ n then { w with tabs := w.tabs ++ [tab] }
      else { w with tabs := w.tabs.insertIdx n tab } : Workspace) = { w with tabs := tabs' } ∧
        tabs'.Perm (tab :: w.tabs) := by
    intro n
    split
    · exact ⟨_, rfl, List.perm_append_singleton ..⟩
    · rename_i hlt
      exact ⟨_, rfl, List.perm_insertIdx _ _ (Nat.le_of_not_le hlt)⟩
  exact key _

theorem tabInv_single (tabID label paneID : String) :
    TabInv {
      ID := tabID, Label := label, CustomLabel := false, ActivePaneID := paneID, Layout := leafNode paneID 0,
      PaneIDs := [paneID] } :=
  ⟨by simp, wellFormed_leafNode .., by simp, by simp⟩

theorem createTab_inv {w : Workspace} (h : WorkspaceInv w) (sourceTabID sourcePaneID : String) (cols rows : Int)
    (spawn : SpawnResult) : WorkspaceInv (w.createTabLocked sourceTabID sourcePaneID cols rows spawn).1 := by
  have hc := h.core
  unfold createTabLocked
  simp only
  rcases newPane_cases w cols rows (w.resolveSourcePaneCWDLocked sourceTabID sourcePaneID) spawn with
    ⟨err, he⟩ | ⟨pane, -, -, he⟩
  · rw [he]
    exact ⟨hc.mono (Int.le_refl _) (by simp), ⟨h.select.active, h.select.recent⟩⟩
  · rw [he]
    simp only [nextTabIDStringLocked]
    obtain ⟨tabs', hi, hp⟩ := insertTab_perm
      { w with
        nextTabID := w.nextTabID + 1, nextPaneID := w.nextPaneID + 1
        panes := w.panes.insert (taggedID "pane-" w.nextPaneID) pane
        running := taggedID "pane-" w.nextPaneID :: w.running }
      { ID := taggedID "tab-" w.nextTabID
        Label := if displayPathLabel (w.resolveSourcePaneCWDLocked sourceTabID sourcePaneID) = "" then
            taggedID "Shell " (w.nextTabID + 1 - 1)
          else displayPathLabel (w.resolveSourcePaneCWDLocked sourceTabID sourcePaneID)
        CustomLabel := false, ActivePaneID := taggedID "pane-" w.nextPaneID
        Layout := leafNode (taggedID "pane-" w.nextPaneID) 0, PaneIDs := [taggedID "pane-" w.nextPaneID] } sourceTabID
    rw [hi]
    refine inv_setActiveTab (CoreInv.perm ?_ hp) ?_
    · have hfresh : ∀ n, w.nextPaneID + 1 ≤ n → taggedID "pane-" n ≠ taggedID "pane-" w.nextPaneID := by
        intro n hn; rw [Ne, taggedID_inj]; omega
      refine hc.add rfl rfl (fun id => AList.mem_insert _) ?_ (Int.le_add_one (Int.le_refl _)) hfresh
        (tabInv_single ..)
      exact hc.freshPane _ (Int.le_refl _)
    · exact (hp.map _).mem_iff.mpr (List.mem_cons_self ..)

/-! ## Editing one tab -/

theorem core_set {tabs rest : List TerminalTab} {panes : PaneMap} {a b : Int} {i : Nat} {t t' : TerminalTab}
    (h : CoreInv tabs panes a b) (hi : TabAt tabs i t rest) (hid : t'.ID = t.ID) (hp : t'.PaneIDs = t.PaneIDs)
    (ht : TabInv t') : CoreInv (tabs.set i t') panes a b :=
  ((h.perm hi.whole.symm).edit hid hp ht).perm (hi.set t')

theorem TabAt.inv {tabs rest : List TerminalTab} {panes : PaneMap} {a b : Int} {i : Nat} {t : TerminalTab}
    (hi : TabAt tabs i t rest) (h : CoreInv tabs panes a b) : TabInv t ∧ t.PaneIDs.Nodup := by
  have hc := h.perm hi.whole.symm
  refine ⟨hc.each t (List.mem_cons_self ..), ?_⟩
  have := hc.paneIDs
  rw [paneIDsOf_cons] at this
  exact (List.nodup_append.mp this).1

theorem renameTab_inv {w : Workspace} (h : WorkspaceInv w) (tabID label : String) :
    WorkspaceInv (w.renameTabLocked tabID label).1 := by
  unfold renameTabLocked
  cases hf : w.findTabIndexLocked tabID with
  | none => exact h
  | some r =>
    obtain ⟨i, t⟩ := r
    obtain ⟨-, rest, hi⟩ := found hf
    obtain ⟨ht, -⟩ := hi.inv h.core
    simp only
    split
    · exact h
    · refine ⟨core_set h.core hi rfl rfl ⟨ht.nonempty, ht.wellFormed, ht.leaves, ht.active⟩, ?_⟩
      exact SelectInv.of_frame h.select (hi.mem_set_iff rfl) rfl rfl

theorem activatePane_inv {w : Workspace} (h : WorkspaceInv w) (tabID paneID : String) :
    WorkspaceInv (w.activatePaneLocked tabID paneID).1 := by
  unfold activatePaneLocked
  cases hf : w.findTabIndexLocked tabID with
  | none => exact h
  | some r =>
    obtain ⟨i, t⟩ := r
    obtain ⟨-, rest, hi⟩ := found hf
    obtain ⟨ht, -⟩ := hi.inv h.core
    simp only
    split
    · exact h
    · rename_i hp
      rw [Bool.not_eq_true', Bool.not_eq_false, hasPane_iff] at hp
      have hid : ({ t with ActivePaneID := paneID } : TerminalTab).ID = t.ID := rfl
      simp only
      exact inv_setActiveTab (core_set h.core hi hid rfl ⟨ht.nonempty, ht.wellFormed, ht.leaves, hp⟩)
        ((hi.mem_set_iff hid _).mpr hi.mem_self)

theorem updateLayout_inv {w : Workspace} (h : WorkspaceInv w) (tabID : String) (layout : LayoutNode)
    (activePaneID : String) : WorkspaceInv (w.updateLayoutLocked tabID layout activePaneID).1 := by
  unfold updateLayoutLocked
  cases hf : w.findTabIndexLocked tabID with
  | none => exact h
  | some r =>
    obtain ⟨i, t⟩ := r
    obtain ⟨-, rest, hi⟩ := found hf
    obtain ⟨ht, hn⟩ := hi.inv h.core
    simp only
    split
    · exact h
    · cases hv : validateLayoutForTab (cloneLayout layout) t with
      | error err => exact h
      | ok normalized =>
        obtain ⟨hw, -, -, hl⟩ := validateLayoutForTab_ok hv
        have hstored : WorkspaceInv { w with tabs := w.tabs.set i { t with Layout := normalized } } :=
          ⟨core_set h.core hi rfl rfl ⟨ht.nonempty, hw, hl, ht.active⟩,
            SelectInv.of_frame h.select (hi.mem_set_iff rfl) rfl rfl⟩
        simp only
        split
        · exact hstored
        · split
          · exact hstored
          · rename_i hp
            rw [Bool.not_eq_true', Bool.not_eq_false, hasPane_iff] at hp
            rw [List.set_set]
            exact ⟨core_set h.core hi rfl rfl ⟨ht.nonempty, hw, hl, hp⟩,
              SelectInv.of_frame h.select (hi.mem_set_iff rfl) rfl rfl⟩

theorem activateTab_inv {w : Workspace} (h : WorkspaceInv w) (tabID : String) (recent : Option (List String)) :
    WorkspaceInv (w.activateTabLocked tabID recent).1 := by
  unfold activateTabLocked
  cases hf : w.findTabLocked tabID with
  | none => exact h
  | some t =>
    have hm : t.ID ∈ tabIDsOf w.tabs := List.mem_map_of_mem (findTabLocked_some hf).1
    cases recent with
    | none =>
      simp only
      exact inv_setActiveTab h.core hm
    | some ids =>
      obtain ⟨recent, he, hr⟩ := setRecentTabs_frame w (t.ID :: ids)
      simp only [he]
      exact ⟨h.core, Or.inl hm, hr⟩

/-! ## Closing -/

/-- Closing the tab at `i`, once the panes left are those of the other tabs. -/
theorem closeTab_of_core {w : Workspace} {tabID : String} {i : Nat} {t : TerminalTab}
    (hf : w.findTabIndexLocked tabID = some (i, t))
    (hc : CoreInv (w.tabs.eraseIdx i) (w.dropPanes t.PaneIDs).panes w.nextTabID w.nextPaneID)
    (ha : w.activeTab = tabID ∨ w.activeTab ∈ tabIDsOf (w.tabs.eraseIdx i)) :
    WorkspaceInv (w.closeTabLocked tabID).1 := by
  unfold closeTabLocked
  rw [hf]
  obtain ⟨panes, running, hd⟩ := dropPanes_frame t.PaneIDs w
  rw [hd] at hc
  simp only [hd] at hc ⊢
  split
  · rename_i hact
    simp only
    cases hn : (w.tabs.eraseIdx i)[min i ((w.tabs.eraseIdx i).length - 1)]? with
    | some next =>
      simp only
      exact inv_setActiveTab hc (List.mem_map_of_mem (List.mem_of_getElem? hn))
    | none =>
      have hnil : w.tabs.eraseIdx i = [] := by
        rw [List.getElem?_eq_none_iff] at hn
        exact List.eq_nil_of_length_eq_zero (by omega)
      refine ⟨?_, setActiveTab_none hnil⟩
      obtain ⟨_, _, he⟩ := setActiveTab_frame
        { w with tabs := w.tabs.eraseIdx i, panes := panes, running := running } ""
      simp only
      rw [he]; exact hc
  · rename_i hact
    exact ⟨hc, pruneRecentTabs_select (Or.inl (ha.resolve_left hact))⟩

theorem activeTab_mem_erase {w : Workspace} (h : SelectInv w) {i : Nat} {t : TerminalTab} {rest : List TerminalTab}
    (hi : TabAt w.tabs i t rest) : w.activeTab = t.ID ∨ w.activeTab ∈ tabIDsOf (w.tabs.eraseIdx i) := by
  rcases h.active with hm | ⟨-, hn⟩
  · rw [(tabIDsOf_perm hi.whole).mem_iff, tabIDsOf_cons] at hm
    rcases List.mem_cons.mp hm with he | hm
    · exact Or.inl he
    · exact Or.inr ((tabIDsOf_perm hi.erase).mem_iff.mpr hm)
  · have := hi.lt
    rw [hn] at this; exact absurd this (Nat.not_lt_zero i)

theorem closeTab_inv {w : Workspace} (h : WorkspaceInv w) (tabID : String) :
    WorkspaceInv (w.closeTabLocked tabID).1 := by
  cases hf : w.findTabIndexLocked tabID with
  | none => unfold closeTabLocked; rw [hf]; exact h
  | some r =>
    obtain ⟨i, t⟩ := r
    obtain ⟨hid, rest, hi⟩ := found hf
    refine closeTab_of_core hf ?_ (hid ▸ activeTab_mem_erase h.select hi)
    exact ((h.core.perm hi.whole.symm).drop fun id => mem_dropPanes).perm hi.erase

theorem closeTab_ok {w : Workspace} {tabID : String} (hm : tabID ∈ tabIDsOf w.tabs) :
    (w.closeTabLocked tabID).2 = none := by
  unfold closeTabLocked
  cases hf : w.findTabIndexLocked tabID with
  | none => exact absurd hm (findTabIn_none.mp hf)
  | some r => simp only; split <;> rfl

/-- Closing a tab keeps the other tabs. -/
theorem closeTab_keeps {w : Workspace} {tabID other : String} (hm : other ∈ tabIDsOf w.tabs) (hne : tabID ≠ other) :
    other ∈ tabIDsOf (w.closeTabLocked tabID).1.tabs := by
  unfold closeTabLocked
  cases hf : w.findTabIndexLocked tabID with
  | none => exact hm
  | some r =>
    obtain ⟨i, t⟩ := r
    obtain ⟨hid, rest, hi⟩ := found hf
    have hmem : other ∈ tabIDsOf (w.tabs.eraseIdx i) := by
      rw [(tabIDsOf_perm hi.whole).mem_iff, tabIDsOf_cons, hid] at hm
      exact (tabIDsOf_perm hi.erase).mem_iff.mpr ((List.mem_cons.mp hm).resolve_left (Ne.symm hne))
    obtain ⟨panes, running, hd⟩ := dropPanes_frame t.PaneIDs w
    simp only [hd]
    split
    · rw [setActiveTab_tabs]; exact hmem
    · exact hmem

theorem closeTabsBelow_inv (tabID : String) : ∀ (n : Nat) {w : Workspace}, WorkspaceInv w → tabID ∈ tabIDsOf w.tabs →
    WorkspaceInv (closeTabsBelow tabID n w).1 ∧ tabID ∈ tabIDsOf (closeTabsBelow tabID n w).1.tabs ∧
      (closeTabsBelow tabID n w).2 = none
  | 0, w, h, hm => ⟨h, hm, rfl⟩
  | n + 1, w, h, hm => by
    rw [closeTabsBelow]
    cases hg : w.tabs[n]? with
    | none => exact ⟨h, hm, rfl⟩
    | some t =>
      simp only
      split
      · exact closeTabsBelow_inv tabID n h hm
      · rename_i hne
        have hmt : t.ID ∈ tabIDsOf w.tabs := List.mem_map_of_mem (List.mem_of_getElem? hg)
        have hok := closeTab_ok hmt
        have hinv := closeTab_inv h t.ID
        have hkeep := closeTab_keeps hm hne
        revert hok hinv hkeep
        cases w.closeTabLocked t.ID with
        | mk w' err =>
          rintro rfl hinv hkeep
          exact closeTabsBelow_inv tabID n hinv hkeep

theorem closeOtherTabs_inv {w : Workspace} (h : WorkspaceInv w) (tabID : String) :
    WorkspaceInv (w.closeOtherTabsLocked tabID).1 := by
  unfold closeOtherTabsLocked
  split
  · exact h
  · rename_i hf
    rw [findTabLocked_none, not_not] at hf
    obtain ⟨hinv, hm, hok⟩ := closeTabsBelow_inv tabID w.tabs.length h hf
    revert hinv hm hok
    cases closeTabsBelow tabID w.tabs.length w with
    | mk w' err =>
      rintro hinv hm rfl
      simp only
      exact inv_setActiveTab hinv.core hm

theorem firstExistingPaneID_mem {current : String} {paneIDs : List String} (h : paneIDs ≠ []) :
    firstExistingPaneID current paneIDs ∈ paneIDs := by
  unfold firstExistingPaneID
  split
  · rename_i hc; simpa using hc
  · cases paneIDs with
    | nil => exact absurd rfl h
    | cons p ps => exact List.mem_cons_self ..

theorem takePane_inv {t : TerminalTab} {p : String} (ht : TabInv t) (hne : t.PaneIDs.filter (· ≠ p) ≠ []) :
    TabInv (takePane t p) := by
  have hperm : (t.Layout.leaves.filter (· ≠ p)).Perm (t.PaneIDs.filter (· ≠ p)) := ht.leaves.filter _
  have hleaves : t.Layout.leaves.filter (· ≠ p) ≠ [] := fun he => hne (by rw [he] at hperm; exact hperm.nil_eq.symm)
  have hl := (removePaneFromLayoutNode_spec p ht.wellFormed).2
  have hcol : collectLayoutPaneIDs (removePaneFromLayoutNode p t.Layout) [] = t.Layout.leaves.filter (· ≠ p) := by
    rw [collectLayoutPaneIDs_eq, hl]
  refine ⟨hne, removePane_wellFormed ht.wellFormed hleaves, by unfold takePane; rw [hl]; exact hperm, ?_⟩
  unfold takePane
  simp only [hcol]
  apply hperm.mem_iff.mp
  generalize (if t.ActivePaneID = p then (adjacentPaneID p t.Layout).1 else t.ActivePaneID) = next
  split
  · cases hq : t.Layout.leaves.filter (· ≠ p) with
    | nil => exact absurd hq hleaves
    | cons q qs => exact List.mem_cons_self ..
  · exact firstExistingPaneID_mem hleaves

theorem closePaneInTab_inv {w : Workspace} (h : WorkspaceInv w) {i : Nat} {t : TerminalTab} {rest : List TerminalTab}
    (hi : TabAt w.tabs i t rest) (paneID : String) : WorkspaceInv (w.closePaneInTabLocked i t paneID).1 := by
  unfold closePaneInTabLocked
  split
  · exact h
  · rename_i hp
    rw [Bool.not_eq_true', Bool.not_eq_false, hasPane_iff] at hp
    obtain ⟨ht, -⟩ := hi.inv h.core
    have hkeys : ∀ id, id ∈ (w.dropPane paneID).panes ↔ id ∈ w.panes ∧ id ≠ paneID := fun id => mem_dropPane
    obtain ⟨panes, running, hd⟩ := dropPane_frame w paneID
    rw [hd] at hkeys ⊢
    simp only at hkeys ⊢
    have hcons := h.core.perm hi.whole.symm
    by_cases hnil : t.PaneIDs.filter (· ≠ paneID) = []
    · -- the last pane: the emptied tab is found again by its id and closed
      have hall : ∀ id, id ∈ t.PaneIDs ↔ id = paneID := by
        intro id
        rw [List.filter_eq_nil_iff] at hnil
        constructor
        · intro hm; simpa using hnil id hm
        · rintro rfl; exact hp
      have hempty : (takePane t paneID).PaneIDs = [] := hnil
      have hid : (takePane t paneID).ID = t.ID := rfl
      rw [if_pos (Or.inl hempty)]
      refine closeTab_of_core (i := i) (t := takePane t paneID) (hi.find h.core.tabIDs _ hid) ?_ ?_
      · simp only
        rw [List.eraseIdx_set_eq, hempty]
        refine (hcons.drop fun id => ?_).perm hi.erase
        rw [hall]; exact hkeys id
      · simp only
        rw [List.eraseIdx_set_eq, hid]
        exact activeTab_mem_erase h.select hi
    · have ht' := takePane_inv ht hnil
      rw [if_neg]
      · have hid : (takePane t paneID).ID = t.ID := rfl
        have hps : (takePane t paneID).PaneIDs = t.PaneIDs.filter (· ≠ paneID) := rfl
        refine ⟨?_, SelectInv.of_frame h.select (hi.mem_set_iff hid) rfl rfl⟩
        refine ((hcons.remove hid hps hp ht').keys fun id => ?_).perm (hi.set _)
        rw [hkeys, AList.mem_erase]; exact and_comm
      · rw [not_or]
        exact ⟨hnil, by simp [ht'.wellFormed.not_nil]⟩

theorem closePane_inv {w : Workspace} (h : WorkspaceInv w) (tabID paneID : String) :
    WorkspaceInv (w.closePaneLocked tabID paneID).1 := by
  unfold closePaneLocked
  cases hf : w.findTabIndexLocked tabID with
  | none => exact h
  | some r =>
    obtain ⟨-, rest, hi⟩ := found hf
    exact closePaneInTab_inv h hi paneID

theorem removePaneAfterExit_inv {w : Workspace} (h : WorkspaceInv w) (paneID : String) :
    WorkspaceInv (w.removePaneAfterExit paneID) := by
  unfold removePaneAfterExit
  cases hf : findPaneTab paneID w.tabs with
  | none => exact h
  | some r =>
    obtain ⟨-, rest, hi⟩ := foundPane hf
    exact closePaneInTab_inv h hi paneID

/-! ## New panes in an existing tab -/

theorem splitPane_inv {w : Workspace} (h : WorkspaceInv w) (tabID paneID : String) (direction : Direction)
    (cols rows : Int) (spawn : SpawnResult) :
    WorkspaceInv (w.splitPaneLocked tabID paneID direction cols rows spawn).1 := by
  have hc := h.core
  unfold splitPaneLocked
  cases hf : w.findTabIndexLocked tabID with
  | none => exact h
  | some r =>
    obtain ⟨i, t⟩ := r
    obtain ⟨-, rest, hi⟩ := found hf
    obtain ⟨ht, hn⟩ := hi.inv hc
    simp only
    split
    · exact h
    · rename_i hp
      rw [Bool.not_eq_true', Bool.not_eq_false, hasPane_iff] at hp
      split
      · exact h
      · rename_i hdir
        have hlegal : LegalDirection direction := by
          unfold LegalDirection
          by_cases hv : direction = .vertical
          · exact Or.inl hv
          · exact Or.inr (not_not.mp fun hz => hdir ⟨hv, hz⟩)
        rcases newPane_cases w cols rows (w.resolveSourcePaneCWDLocked tabID paneID) spawn with
          ⟨err, he⟩ | ⟨pane, -, -, he⟩
        · rw [he]
          exact ⟨hc.mono (Int.le_refl _) (by simp), ⟨h.select.active, h.select.recent⟩⟩
        · rw [he]
          obtain ⟨layout, hl, hw, hs⟩ : ∃ layout,
              splitLayoutNode paneID direction (taggedID "pane-" w.nextPaneID) t.Layout = some layout ∧
                WellFormedLayout layout ∧
                  SplitLeaves paneID (taggedID "pane-" w.nextPaneID) t.Layout.leaves layout.leaves :=
            splitLayoutNode_some hlegal ht.wellFormed (ht.leaves.mem_iff.mpr hp)
          simp only [hl]
          have hcons := hc.perm hi.whole.symm
          have hfresh : taggedID "pane-" w.nextPaneID ∉ t.PaneIDs := fun hm =>
            hcons.freshPane _ (Int.le_refl _) (List.mem_append_left _ hm)
          have hid : ({ t with
            Layout := layout, PaneIDs := t.PaneIDs ++ [taggedID "pane-" w.nextPaneID]
            ActivePaneID := taggedID "pane-" w.nextPaneID } : TerminalTab).ID = t.ID := rfl
          refine inv_setActiveTab ((hcons.grow hid rfl ?_ ?_ ?_ ?_).perm (hi.set _)) ?_
          · intro p hm
            rcases List.mem_append.mp hm with hm | hm
            · exact Or.inl hm
            · exact Or.inr (List.mem_singleton.mp hm)
          · exact List.nodup_append.mpr ⟨hn, List.nodup_singleton _, fun a ha b hb => by
              rw [List.mem_singleton.mp hb]; exact fun e => hfresh (e ▸ ha)⟩
          · intro id
            rw [AList.mem_insert, List.mem_append, List.mem_singleton, hcons.keySet, paneIDsOf_cons, List.mem_append]
            tauto
          · exact ⟨by simp, hw, hs.perm.trans (ht.leaves.append_right _), by simp⟩
          · exact (hi.mem_set_iff hid _).mpr hi.mem_self

theorem mem_replace {l : List String} {p q : String} (hp : p ∈ l) (x : String) :
    x ∈ l.map (fun id => if id = p then q else id) ↔ x = q ∨ x ∈ l ∧ x ≠ p := by
  rw [List.mem_map]
  constructor
  · rintro ⟨y, hy, rfl⟩
    by_cases he : y = p
    · exact Or.inl (if_pos he)
    · rw [if_neg he]; exact Or.inr ⟨hy, he⟩
  · rintro (rfl | ⟨hm, hne⟩)
    · exact ⟨p, hp, if_pos rfl⟩
    · exact ⟨x, hm, if_neg hne⟩

theorem nodup_replace {l : List String} (p : String) {q : String} (hq : q ∉ l) (hn : l.Nodup) :
    (l.map fun id => if id = p then q else id).Nodup := by
  refine List.Nodup.map_on (fun x hx y hy he => ?_) hn
  split at he <;> split at he
  · rename_i hx' hy'; rw [hx', hy']
  · exact absurd (he ▸ hy) hq
  · exact absurd (he ▸ hx) hq
  · exact he

theorem restartPane_inv {w : Workspace} (h : WorkspaceInv w) (tabID paneID : String) (cols rows : Int)
    (spawn : SpawnResult) : WorkspaceInv (w.restartExitedPaneLocked tabID paneID cols rows spawn).1 := by
  have hc := h.core
  unfold restartExitedPaneLocked
  split
  · rename_i i t old hf ho
    obtain ⟨-, rest, hi⟩ := found hf
    obtain ⟨ht, hn⟩ := hi.inv hc
    split
    · exact h
    · rename_i hp
      rw [Bool.not_eq_true', Bool.not_eq_false, hasPane_iff] at hp
      split
      · exact h
      · rcases newPane_cases w cols rows old.cwd spawn with ⟨err, he⟩ | ⟨pane, -, -, he⟩
        · rw [he]
          exact ⟨hc.mono (Int.le_refl _) (by simp), ⟨h.select.active, h.select.recent⟩⟩
        · rw [he]
          have hcons := hc.perm hi.whole.symm
          have hfresh : taggedID "pane-" w.nextPaneID ∉ t.PaneIDs := fun hm =>
            hcons.freshPane _ (Int.le_refl _) (List.mem_append_left _ hm)
          have hne : taggedID "pane-" w.nextPaneID ≠ paneID := fun e => hfresh (e ▸ hp)
          obtain ⟨hw, hl⟩ := replaceLayoutPane_spec paneID (taggedID "pane-" w.nextPaneID) ht.wellFormed
          have hid : ({ t with
            PaneIDs := t.PaneIDs.map fun id => if id = paneID then taggedID "pane-" w.nextPaneID else id
            Layout := replaceLayoutPane paneID (taggedID "pane-" w.nextPaneID) t.Layout
            ActivePaneID := if t.ActivePaneID = paneID then taggedID "pane-" w.nextPaneID else t.ActivePaneID } :
              TerminalTab).ID = t.ID := rfl
          simp only
          refine inv_setActiveTab ((hcons.grow hid rfl ?_ (nodup_replace paneID hfresh hn) ?_ ?_).perm (hi.set _)) ?_
          · intro p hm
            rcases (mem_replace hp p).mp hm with rfl | hm
            · exact Or.inr rfl
            · exact Or.inl hm.1
          · intro id
            rw [mem_replace hp, AList.mem_erase, AList.mem_insert, hcons.keySet, paneIDsOf_cons, List.mem_append]
            have hdisj := List.disjoint_of_nodup_append hcons.paneIDs
            constructor
            · rintro ⟨hnp, rfl | hm | hm⟩
              · exact Or.inl (Or.inl rfl)
              · exact Or.inl (Or.inr ⟨hm, hnp⟩)
              · exact Or.inr ⟨Or.inr hm, fun hx => hdisj hx hm⟩
            · rintro ((rfl | ⟨hm, hnp⟩) | ⟨hm, hnot⟩)
              · exact ⟨hne, Or.inl rfl⟩
              · exact ⟨hnp, Or.inr (Or.inl hm)⟩
              · exact ⟨fun e => hnot (e ▸ hp), Or.inr hm⟩
          · refine ⟨by simpa using ht.nonempty, hw, by rw [hl]; exact ht.leaves.map _, ?_⟩
            show (if t.ActivePaneID = paneID then _ else _) ∈ _
            rw [mem_replace hp]
            split
            · exact Or.inl rfl
            · rename_i hact
              exact Or.inr ⟨ht.active, hact⟩
          · exact (hi.mem_set_iff hid _).mpr hi.mem_self
  · exact h

/-! ## Moving panes and tabs -/

theorem movePaneToTab_inv {w : Workspace} (h : WorkspaceInv w) (tabID paneID : String) :
    WorkspaceInv (w.movePaneToTabLocked tabID paneID).1 := by
  have hc := h.core
  unfold movePaneToTabLocked
  cases hf : w.findTabIndexLocked tabID with
  | none => exact h
  | some r =>
    obtain ⟨i, t⟩ := r
    obtain ⟨-, rest, hi⟩ := found hf
    obtain ⟨ht, hn⟩ := hi.inv hc
    simp only
    split
    · exact h
    · rename_i hlen
      split
      · exact h
      · rename_i hp
        rw [Bool.not_eq_true', Bool.not_eq_false, hasPane_iff] at hp
        have hcons := hc.perm hi.whole.symm
        have hnil : t.PaneIDs.filter (· ≠ paneID) ≠ [] := by
          intro hnil
          rw [List.filter_eq_nil_iff] at hnil
          have hsub : t.PaneIDs ⊆ [paneID] := fun x hx => by simpa using hnil x hx
          exact hlen (hn.length_le_of_subset hsub)
        have hid : (takePane t paneID).ID = t.ID := rfl
        have hps : (takePane t paneID).PaneIDs = t.PaneIDs.filter (· ≠ paneID) := rfl
        have ht' := takePane_inv ht hnil
        have hset := hi.set (takePane t paneID)
        generalize takePane t paneID = source at hid hps ht' hset
        simp only [nextTabIDStringLocked]
        obtain ⟨tabs', he, hperm⟩ := insertTab_perm
          { w with tabs := w.tabs.set i source, nextTabID := w.nextTabID + 1 }
          { ID := taggedID "tab-" w.nextTabID
            Label := taggedID (source.Label ++ " ") ((w.tabs.set i source).length + 1)
            CustomLabel := false, ActivePaneID := paneID, Layout := leafNode paneID 0, PaneIDs := [paneID] } source.ID
        rw [he]
        refine inv_setActiveTab (CoreInv.perm ?_ (hperm.trans (hset.cons _))) ?_
        · exact hcons.moveOut hid hps hp ht' rfl rfl (tabInv_single ..)
        · exact (hperm.map _).mem_iff.mpr (List.mem_cons_self ..)

theorem SelectInv.perm {w : Workspace} (h : SelectInv w) {tabs : List TerminalTab} (hp : tabs.Perm w.tabs) :
    SelectInv { w with tabs := tabs } := SelectInv.of_frame h (fun _ => (tabIDsOf_perm hp).mem_iff) rfl rfl

theorem TabAt.move {tabs rest : List TerminalTab} {i target : Nat} {t : TerminalTab} (hi : TabAt tabs i t rest)
    (hle : target ≤ (tabs.eraseIdx i).length) : ((tabs.eraseIdx i).insertIdx target t).Perm tabs :=
  (List.perm_insertIdx _ _ hle).trans ((hi.erase.cons t).trans hi.whole.symm)

theorem TabPosition.target_le {position : TabPosition} {index count target : Nat} (hi : index < count)
    (h : position.target index count = some target) : target ≤ count - 1 := by
  cases position <;> cases h <;> omega

theorem moveTab_inv {w : Workspace} (h : WorkspaceInv w) (tabID : String) (position : TabPosition) :
    WorkspaceInv (w.moveTabLocked tabID position).1 := by
  unfold moveTabLocked
  cases hf : w.findTabIndexLocked tabID with
  | none => exact h
  | some r =>
    obtain ⟨i, t⟩ := r
    obtain ⟨-, rest, hi⟩ := found hf
    simp only
    split
    · exact h
    · cases hpos : position.target i w.tabs.length with
      | none => exact h
      | some target =>
        simp only
        split
        · exact h
        · have hle : target ≤ (w.tabs.eraseIdx i).length := by
            rw [List.length_eraseIdx_of_lt hi.lt]; exact TabPosition.target_le hi.lt hpos
          have hperm := hi.move hle
          simp only
          exact inv_setActiveTab (h.core.perm hperm) ((tabIDsOf_perm hperm).mem_iff.mpr hi.mem_self)

theorem reorderTab_inv {w : Workspace} (h : WorkspaceInv w) (tabID beforeTabID : String) :
    WorkspaceInv (w.reorderTabLocked tabID beforeTabID).1 := by
  unfold reorderTabLocked
  cases hf : w.findTabIndexLocked (trimSpace tabID) with
  | none => exact h
  | some r =>
    obtain ⟨i, t⟩ := r
    obtain ⟨-, rest, hi⟩ := found hf
    simp only
    split
    · exact h
    · rename_i hne
      split
      · exact h
      · rename_i hbefore
        split
        · have hperm : (w.tabs.eraseIdx i ++ [t]).Perm w.tabs :=
            (List.perm_append_singleton ..).trans ((hi.erase.cons t).trans hi.whole.symm)
          exact ⟨h.core.perm hperm, SelectInv.perm h.select hperm⟩
        · rename_i hset
          have hmem : trimSpace beforeTabID ∈ tabIDsOf (w.tabs.eraseIdx i) := by
            have hm := not_not.mp fun hn => hbefore ⟨hset, findTabLocked_none.mpr hn⟩
            rw [(tabIDsOf_perm hi.whole).mem_iff, tabIDsOf_cons] at hm
            exact (tabIDsOf_perm hi.erase).mem_iff.mpr ((List.mem_cons.mp hm).resolve_left hne)
          split
          · rename_i target _ hft
            obtain ⟨-, rest', hi'⟩ := found hft
            have hperm := hi.move (Nat.le_of_lt hi'.lt)
            exact ⟨h.core.perm hperm, SelectInv.perm h.select hperm⟩
          · rename_i hft
            exact absurd hmem (findTabIn_none.mp hft)

theorem applyAction_inv {w : Workspace} (h : WorkspaceInv w) (request : WorkspaceActionRequest) (spawn : SpawnResult) :
    WorkspaceInv (w.applyAction request spawn).1 := by
  unfold applyAction
  simp only
  split
  · exact createTab_inv h ..
  · exact renameTab_inv h ..
  · exact closeTab_inv h ..
  · exact closeOtherTabs_inv h ..
  · exact splitPane_inv h ..
  · exact closePane_inv h ..
  · exact restartPane_inv h ..
  · exact movePaneToTab_inv h ..
  · exact moveTab_inv h ..
  · exact reorderTab_inv h ..
  · exact activateTab_inv h ..
  · exact activatePane_inv h ..
  · exact updateLayout_inv h ..
  · exact h

end Workspace

end Webshell
