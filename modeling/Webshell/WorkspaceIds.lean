import Webshell.WorkspaceRun

/-!
# The ids of a workspace

Every event keeps some of the tab and pane ids there are and adds the next one
of each counter at most. Nothing is assumed of the workspace.
-/

namespace Webshell

open GoText

namespace Workspace

def TabPresent (w : Workspace) (id : String) : Prop := id ∈ tabIDsOf w.tabs

/-- A tab lists the pane, or the map has it. -/
def PanePresent (w : Workspace) (id : String) : Prop := id ∈ paneIDsOf w.tabs ∨ id ∈ w.panes

/-- Every pane is filed under its own id. -/
def Keyed (panes : PaneMap) : Prop := ∀ id pane, panes.lookup id = some pane → pane.id = id

theorem Keyed.erase {panes : PaneMap} (h : Keyed panes) (id : String) : Keyed (panes.erase id) := by
  intro other pane hl
  by_cases he : other = id
  · rw [he, AList.lookup_erase] at hl
    cases hl
  · rw [AList.lookup_erase_ne he] at hl
    exact h other pane hl

theorem Keyed.insert {panes : PaneMap} (h : Keyed panes) {id : String} {pane : WorkspacePane} (hp : pane.id = id) :
    Keyed (panes.insert id pane) := by
  intro other pane' hl
  by_cases he : other = id
  · rw [he, AList.lookup_insert] at hl
    cases hl
    rw [hp, he]
  · rw [AList.lookup_insert_ne he] at hl
    exact h other pane' hl

theorem Keyed.dropPane {w : Workspace} (h : Keyed w.panes) (paneID : String) : Keyed (w.dropPane paneID).panes := by
  unfold Workspace.dropPane
  split
  · exact h
  · exact h.erase paneID

theorem Keyed.dropPanes (ids : List String) : ∀ {w : Workspace}, Keyed w.panes → Keyed (w.dropPanes ids).panes := by
  induction ids with
  | nil => exact fun h => h
  | cons id ids ih => exact fun h => ih (h.dropPane id)

/-- Tabs and panes may go; the counters stay. -/
structure Keeps (w w' : Workspace) : Prop where
  generation : w'.workspaceGeneration = w.workspaceGeneration
  keyed : Keyed w.panes → Keyed w'.panes
  nextTab : w'.nextTabID = w.nextTabID
  nextPane : w'.nextPaneID = w.nextPaneID
  tabs : ∀ id, w'.TabPresent id → w.TabPresent id
  panes : ∀ id, w'.PanePresent id → w.PanePresent id

/-- A counter that stays, or goes on by one with its id added. -/
def Counted (tag : String) (before after : Int) (present present' : String → Prop) : Prop :=
  (after = before ∧ ∀ id, present' id → present id) ∨
    (after = before + 1 ∧ ∀ id, present' id → present id ∨ id = taggedID tag before)

structure IdStep (w w' : Workspace) : Prop where
  generation : w'.workspaceGeneration = w.workspaceGeneration
  keyed : Keyed w.panes → Keyed w'.panes
  tabs : Counted "tab-" w.nextTabID w'.nextTabID w.TabPresent w'.TabPresent
  panes : Counted "pane-" w.nextPaneID w'.nextPaneID w.PanePresent w'.PanePresent

theorem Counted.mono {tag : String} {a b : Int} {p q r : String → Prop} (h : Counted tag a b p q)
    (hr : ∀ id, r id → q id) : Counted tag a b p r := by
  rcases h with ⟨he, h⟩ | ⟨he, h⟩
  · exact Or.inl ⟨he, fun id hid => h id (hr id hid)⟩
  · exact Or.inr ⟨he, fun id hid => h id (hr id hid)⟩

namespace Keeps

theorem refl (w : Workspace) : Keeps w w := ⟨rfl, fun h => h, rfl, rfl, fun _ h => h, fun _ h => h⟩

theorem trans {u v w : Workspace} (h : Keeps u v) (h' : Keeps v w) : Keeps u w where
  generation := h'.generation.trans h.generation
  keyed := fun hk => h'.keyed (h.keyed hk)
  nextTab := h'.nextTab.trans h.nextTab
  nextPane := h'.nextPane.trans h.nextPane
  tabs := fun id hid => h.tabs id (h'.tabs id hid)
  panes := fun id hid => h.panes id (h'.panes id hid)

theorem idStep {w w' : Workspace} (h : Keeps w w') : IdStep w w' :=
  ⟨h.generation, h.keyed, Or.inl ⟨h.nextTab, h.tabs⟩, Or.inl ⟨h.nextPane, h.panes⟩⟩

/-- An edit of the tabs that brings no new tab and no new pane. -/
theorem ofTabs {w : Workspace} {tabs : List TerminalTab} (hi : ∀ id ∈ tabIDsOf tabs, id ∈ tabIDsOf w.tabs)
    (hp : ∀ id ∈ paneIDsOf tabs, id ∈ paneIDsOf w.tabs) : Keeps w { w with tabs := tabs } :=
  ⟨rfl, fun h => h, rfl, rfl, hi, fun id hid => hid.imp (hp id) (fun h => h)⟩

theorem ofSubset {w : Workspace} {tabs : List TerminalTab} (h : ∀ t ∈ tabs, t ∈ w.tabs) :
    Keeps w { w with tabs := tabs } := by
  refine ofTabs (fun id hid => ?_) (fun id hid => ?_)
  · obtain ⟨t, ht, rfl⟩ := List.mem_map.mp hid
    exact List.mem_map_of_mem (h t ht)
  · obtain ⟨t, ht, hp⟩ := List.mem_flatMap.mp hid
    exact List.mem_flatMap.mpr ⟨t, h t ht, hp⟩

/-- A tab is edited in place, and lists no pane it did not list. -/
theorem ofSet {w : Workspace} {index : Nat} {t t' : TerminalTab} (ht : t ∈ w.tabs) (hid : t'.ID = t.ID)
    (hp : ∀ id ∈ t'.PaneIDs, id ∈ t.PaneIDs) : Keeps w { w with tabs := w.tabs.set index t' } := by
  refine ofTabs (fun id h => ?_) (fun id h => ?_)
  · obtain ⟨s, hs, rfl⟩ := List.mem_map.mp h
    rcases List.mem_or_eq_of_mem_set hs with hs | rfl
    · exact List.mem_map_of_mem hs
    · rw [hid]; exact List.mem_map_of_mem ht
  · obtain ⟨s, hs, hm⟩ := List.mem_flatMap.mp h
    rcases List.mem_or_eq_of_mem_set hs with hs | rfl
    · exact List.mem_flatMap.mpr ⟨s, hs, hm⟩
    · exact List.mem_flatMap.mpr ⟨t, ht, hp id hm⟩

theorem setActiveTab (w : Workspace) (tabID : String) : Keeps w (w.setActiveTabLocked tabID) := by
  obtain ⟨_, _, h⟩ := setActiveTab_frame w tabID
  rw [h]
  exact ⟨rfl, fun h => h, rfl, rfl, fun _ h => h, fun _ h => h⟩

theorem pruneRecentTabs (w : Workspace) : Keeps w w.pruneRecentTabsLocked :=
  ⟨rfl, fun h => h, rfl, rfl, fun _ h => h, fun _ h => h⟩

theorem dropPanes (w : Workspace) (paneIDs : List String) : Keeps w (w.dropPanes paneIDs) := by
  obtain ⟨panes, running, h⟩ := dropPanes_frame paneIDs w
  refine ⟨by rw [h], Keyed.dropPanes paneIDs, by rw [h], by rw [h], fun id hid => ?_, fun id hid => ?_⟩
  · rw [h] at hid; exact hid
  · refine hid.imp (fun hm => ?_) (fun hm => (mem_dropPanes.mp hm).1)
    rw [h] at hm; exact hm

theorem dropPane (w : Workspace) (paneID : String) : Keeps w (w.dropPane paneID) := dropPanes w [paneID]

theorem modifyPane (w : Workspace) (paneID : String) {f : WorkspacePane → WorkspacePane}
    (hf : ∀ pane, (f pane).id = pane.id) : Keeps w (w.modifyPane paneID f) := by
  have hkeyed : Keyed w.panes → Keyed (w.modifyPane paneID f).panes := by
    intro h
    unfold Workspace.modifyPane
    split
    · exact h
    · rename_i pane hl
      exact h.insert (by rw [hf, h paneID pane hl])
  obtain ⟨panes, he, hk⟩ := modifyPane_frame w paneID f
  rw [he] at hkeyed ⊢
  exact ⟨rfl, hkeyed, rfl, rfl, fun _ h => h, fun id hid => hid.imp (fun h => h) (hk id).mp⟩

theorem relabel (w : Workspace) : Keeps w w.refreshAutoTabLabelsLocked := by
  have same : ∀ tab : TerminalTab, (if tab.CustomLabel = true ∨ w.resolveAutoTabLabelLocked tab = "" then tab
      else { tab with Label := w.resolveAutoTabLabelLocked tab }).ID = tab.ID ∧
        (if tab.CustomLabel = true ∨ w.resolveAutoTabLabelLocked tab = "" then tab
          else { tab with Label := w.resolveAutoTabLabelLocked tab }).PaneIDs = tab.PaneIDs := by
    intro tab
    split <;> exact ⟨rfl, rfl⟩
  refine ofTabs (fun id hid => ?_) (fun id hid => ?_)
  · obtain ⟨t, ht, rfl⟩ := List.mem_map.mp hid
    obtain ⟨s, hs, rfl⟩ := List.mem_map.mp ht
    rw [(same s).1]; exact List.mem_map_of_mem hs
  · obtain ⟨t, ht, hp⟩ := List.mem_flatMap.mp hid
    obtain ⟨s, hs, rfl⟩ := List.mem_map.mp ht
    rw [(same s).2] at hp
    exact List.mem_flatMap.mpr ⟨s, hs, hp⟩

end Keeps

theorem IdStep.keeps {u v w : Workspace} (h : IdStep u v) (h' : Keeps v w) : IdStep u w where
  generation := h'.generation.trans h.generation
  keyed := fun hk => h'.keyed (h.keyed hk)
  tabs := by rw [h'.nextTab]; exact h.tabs.mono h'.tabs
  panes := by rw [h'.nextPane]; exact h.panes.mono h'.panes

theorem found_mem {w : Workspace} {tabID : String} {index : Nat} {tab : TerminalTab}
    (h : w.findTabIndexLocked tabID = some (index, tab)) : tab ∈ w.tabs := by
  obtain ⟨pre, post, he, -, -⟩ := findTabIn_some h
  rw [he]; exact List.mem_append_right _ (List.mem_cons_self ..)

theorem takePane_panes (tab : TerminalTab) (paneID : String) :
    (takePane tab paneID).ID = tab.ID ∧ ∀ id ∈ (takePane tab paneID).PaneIDs, id ∈ tab.PaneIDs :=
  ⟨rfl, fun _ hid => (List.mem_filter.mp hid).1⟩

/-! ## Actions that add nothing -/

theorem renameTab_keeps (w : Workspace) (tabID label : String) : Keeps w (w.renameTabLocked tabID label).1 := by
  unfold renameTabLocked
  split
  · exact .refl w
  · rename_i index tab hf
    simp only
    split
    · exact .refl w
    · exact .ofSet (found_mem hf) rfl fun _ h => h

theorem closeTab_keeps_ids (w : Workspace) (tabID : String) : Keeps w (w.closeTabLocked tabID).1 := by
  unfold closeTabLocked
  split
  · exact .refl w
  · rename_i index tab hf
    have hd := Keeps.dropPanes w tab.PaneIDs
    generalize w.dropPanes tab.PaneIDs = v at hd
    have he : Keeps w { v with tabs := v.tabs.eraseIdx index } :=
      hd.trans (.ofSubset fun t ht => List.mem_of_mem_eraseIdx ht)
    simp only
    generalize ({ v with tabs := v.tabs.eraseIdx index } : Workspace) = u at he ⊢
    split
    · simp only
      exact he.trans (.setActiveTab ..)
    · exact he.trans (.pruneRecentTabs u)

theorem closeTabsBelow_keeps (tabID : String) (n : Nat) (w : Workspace) : Keeps w (closeTabsBelow tabID n w).1 := by
  induction n generalizing w with
  | zero => exact .refl w
  | succ n ih =>
    unfold closeTabsBelow
    split
    · exact .refl w
    · rename_i tab ht
      split
      · exact ih w
      · have hc := closeTab_keeps_ids w tab.ID
        split
        · rename_i w' err he
          rw [he] at hc; exact hc
        · rename_i w' he
          rw [he] at hc; exact hc.trans (ih w')

theorem closeOtherTabs_keeps (w : Workspace) (tabID : String) : Keeps w (w.closeOtherTabsLocked tabID).1 := by
  unfold closeOtherTabsLocked
  have hb := closeTabsBelow_keeps tabID w.tabs.length w
  split
  · exact .refl w
  · split
    · rename_i w' err he
      rw [he] at hb; exact hb
    · rename_i w' he
      rw [he] at hb
      simp only
      exact hb.trans (.setActiveTab ..)

theorem closePaneInTab_keeps {w : Workspace} {index : Nat} {tab : TerminalTab} (ht : tab ∈ w.tabs) (paneID : String) :
    Keeps w (w.closePaneInTabLocked index tab paneID).1 := by
  unfold closePaneInTabLocked
  obtain ⟨panes, running, hframe⟩ := dropPane_frame w paneID
  have hd := Keeps.dropPane w paneID
  have hmem : tab ∈ (w.dropPane paneID).tabs := by rw [hframe]; exact ht
  generalize w.dropPane paneID = v at hd hmem
  have he : Keeps w { v with tabs := v.tabs.set index (takePane tab paneID) } :=
    hd.trans (.ofSet hmem (takePane_panes tab paneID).1 (takePane_panes tab paneID).2)
  split
  · exact .refl w
  · simp only
    split
    · exact he.trans (closeTab_keeps_ids ..)
    · exact he

theorem closePane_keeps (w : Workspace) (tabID paneID : String) : Keeps w (w.closePaneLocked tabID paneID).1 := by
  unfold closePaneLocked
  split
  · exact .refl w
  · rename_i index tab hf
    exact closePaneInTab_keeps (found_mem hf) paneID

theorem moveTab_keeps (w : Workspace) (tabID : String) (position : TabPosition) :
    Keeps w (w.moveTabLocked tabID position).1 := by
  unfold moveTabLocked
  split
  · exact .refl w
  · rename_i index tab hf
    split
    · exact .refl w
    · split
      · exact .refl w
      · rename_i target htarget
        split
        · exact .refl w
        · have he : Keeps w { w with tabs := (w.tabs.eraseIdx index).insertIdx target tab } := by
            refine .ofSubset fun t ht => ?_
            rcases List.eq_or_mem_of_mem_insertIdx ht with rfl | ht
            · exact found_mem hf
            · exact List.mem_of_mem_eraseIdx ht
          simp only
          generalize ({ w with tabs := (w.tabs.eraseIdx index).insertIdx target tab } : Workspace) = u at he ⊢
          exact he.trans (.setActiveTab ..)

theorem reorderTab_keeps (w : Workspace) (tabID beforeTabID : String) :
    Keeps w (w.reorderTabLocked tabID beforeTabID).1 := by
  unfold reorderTabLocked
  split
  · exact .refl w
  · rename_i index tab hf
    have hmem := found_mem hf
    have he : Keeps w { w with tabs := w.tabs.eraseIdx index } := .ofSubset fun t ht => List.mem_of_mem_eraseIdx ht
    simp only
    split
    · exact .refl w
    · split
      · exact .refl w
      · split
        · refine .ofSubset fun t ht => ?_
          rcases List.mem_append.mp ht with ht | ht
          · exact List.mem_of_mem_eraseIdx ht
          · rw [List.mem_singleton.mp ht]; exact hmem
        · split
          · rename_i target other hother
            refine .ofSubset fun t ht => ?_
            rcases List.eq_or_mem_of_mem_insertIdx ht with rfl | ht
            · exact hmem
            · exact List.mem_of_mem_eraseIdx ht
          · exact he

theorem activateTab_keeps (w : Workspace) (tabID : String) (recent : Option (List String)) :
    Keeps w (w.activateTabLocked tabID recent).1 := by
  unfold activateTabLocked
  split
  · exact .refl w
  · rename_i tab hf
    cases recent with
    | none =>
      simp only
      exact Keeps.setActiveTab w tab.ID
    | some recent =>
      simp only
      generalize tab.ID :: recent = ids
      exact ⟨rfl, fun h => h, rfl, rfl, fun _ h => h, fun _ h => h⟩

theorem activatePane_keeps (w : Workspace) (tabID paneID : String) : Keeps w (w.activatePaneLocked tabID paneID).1 := by
  unfold activatePaneLocked
  split
  · exact .refl w
  · rename_i index tab hf
    split
    · exact .refl w
    · simp only
      have he : Keeps w { w with tabs := w.tabs.set index { tab with ActivePaneID := paneID } } :=
        .ofSet (found_mem hf) rfl fun _ h => h
      generalize ({ w with tabs := w.tabs.set index { tab with ActivePaneID := paneID } } : Workspace) = u at he
      exact he.trans (.setActiveTab ..)

theorem updateLayout_keeps (w : Workspace) (tabID : String) (layout : LayoutNode) (activePaneID : String) :
    Keeps w (w.updateLayoutLocked tabID layout activePaneID).1 := by
  unfold updateLayoutLocked
  split
  · exact .refl w
  · rename_i index tab hf
    split
    · exact .refl w
    · split
      · exact .refl w
      · rename_i normalized hv
        have he : Keeps w { w with tabs := w.tabs.set index { tab with Layout := normalized } } :=
          .ofSet (found_mem hf) rfl fun _ h => h
        simp only
        split
        · exact he
        · split
          · exact he
          · simp only [List.set_set]
            exact .ofSet (found_mem hf) rfl fun _ h => h

/-! ## Actions that allocate -/

/-- Starting a pane: its id is counted, and the map has it if it started. -/
theorem newPane_ids {w w' : Workspace} {cols rows : Int} {cwd : String} {spawn : SpawnResult}
    {result : Except String String} (h : w.newPaneLocked cols rows cwd spawn = (w', result)) :
    w'.workspaceGeneration = w.workspaceGeneration ∧ (Keyed w.panes → Keyed w'.panes) ∧
      w'.tabs = w.tabs ∧ w'.nextTabID = w.nextTabID ∧ w'.nextPaneID = w.nextPaneID + 1 ∧
        (∀ id, id ∈ w'.panes → id ∈ w.panes ∨ id = taggedID "pane-" w.nextPaneID) ∧
          ∀ id, result = .ok id → id = taggedID "pane-" w.nextPaneID := by
  rcases newPane_cases w cols rows cwd spawn with ⟨err, he⟩ | ⟨pane, hp, -, he⟩
  · rw [he] at h
    cases h
    exact ⟨rfl, fun h => h, rfl, rfl, rfl, fun id hid => Or.inl hid, fun id hid => by cases hid⟩
  · rw [he] at h
    cases h
    refine ⟨rfl, fun h => h.insert hp, rfl, rfl, rfl, fun id hid => ?_, fun id hid => (Except.ok.inj hid).symm⟩
    exact ((AList.mem_insert _).mp hid).symm

theorem createTab_ids (w : Workspace) (sourceTabID sourcePaneID : String) (cols rows : Int) (spawn : SpawnResult) :
    IdStep w (w.createTabLocked sourceTabID sourcePaneID cols rows spawn).1 := by
  unfold createTabLocked
  simp only
  cases hn : w.newPaneLocked cols rows (w.resolveSourcePaneCWDLocked sourceTabID sourcePaneID) spawn with
  | mk v result =>
    obtain ⟨hgen, hkeyed, htabs, hnt, hnp, hpanes, hres⟩ := newPane_ids hn
    cases result with
    | error err =>
      refine ⟨hgen, hkeyed, Or.inl ⟨hnt, fun id hid => ?_⟩, Or.inr ⟨hnp, fun id hid => ?_⟩⟩
      · unfold TabPresent at hid
        rw [htabs] at hid; exact hid
      · rcases hid with hid | hid
        · rw [htabs] at hid; exact Or.inl (Or.inl hid)
        · exact (hpanes id hid).imp Or.inr fun h => h
    | ok paneID =>
      obtain rfl := hres paneID rfl
      simp only [nextTabIDStringLocked]
      obtain ⟨tabs, he, hp⟩ := insertTab_perm { v with nextTabID := v.nextTabID + 1 }
        { ID := taggedID "tab-" v.nextTabID
          Label := if displayPathLabel (w.resolveSourcePaneCWDLocked sourceTabID sourcePaneID) = "" then
              taggedID "Shell " (v.nextTabID + 1 - 1)
            else displayPathLabel (w.resolveSourcePaneCWDLocked sourceTabID sourcePaneID)
          CustomLabel := false, ActivePaneID := taggedID "pane-" w.nextPaneID
          Layout := leafNode (taggedID "pane-" w.nextPaneID) 0, PaneIDs := [taggedID "pane-" w.nextPaneID] } sourceTabID
      rw [he]
      have hstep : IdStep w { { v with nextTabID := v.nextTabID + 1 } with tabs := tabs } := by
        refine ⟨hgen, hkeyed, Or.inr ⟨by simp only [hnt], fun id hid => ?_⟩, Or.inr ⟨hnp, fun id hid => ?_⟩⟩
        · rcases List.mem_cons.mp ((tabIDsOf_perm hp).mem_iff.mp hid) with rfl | hid
          · exact Or.inr (by simp only [hnt])
          · rw [htabs] at hid; exact Or.inl hid
        · rcases hid with hid | hid
          · rcases List.mem_append.mp ((hp.flatMap_right _).mem_iff.mp hid) with hid | hid
            · exact Or.inr (List.mem_singleton.mp hid)
            · rw [htabs] at hid; exact Or.inl (Or.inl hid)
          · exact (hpanes id hid).imp Or.inr fun h => h
      generalize ({ { v with nextTabID := v.nextTabID + 1 } with tabs := tabs } : Workspace) = u at hstep
      exact hstep.keeps (.setActiveTab ..)

/-- A pane is started and a tab edited in place: it lists the panes it did and the new one at most. -/
theorem startInTab_ids {w v : Workspace} {cols rows : Int} {cwd : String} {spawn : SpawnResult} {index : Nat}
    {t t' : TerminalTab} {paneID : String} {panes : PaneMap} (ht : t ∈ w.tabs)
    (hn : w.newPaneLocked cols rows cwd spawn = (v, .ok paneID)) (hid : t'.ID = t.ID)
    (hp : ∀ id ∈ t'.PaneIDs, id ∈ t.PaneIDs ∨ id = paneID) (hk : Keyed v.panes → Keyed panes)
    (hsub : ∀ id, id ∈ panes → id ∈ v.panes) :
    IdStep w { v with tabs := v.tabs.set index t', panes := panes } := by
  obtain ⟨hgen, hkeyed, htabs, hnt, hnp, hpanes, hres⟩ := newPane_ids hn
  obtain rfl := hres paneID rfl
  refine ⟨hgen, fun h => hk (hkeyed h), Or.inl ⟨hnt, fun id h => ?_⟩, Or.inr ⟨hnp, fun id h => ?_⟩⟩
  · obtain ⟨s, hs, rfl⟩ := List.mem_map.mp h
    rcases List.mem_or_eq_of_mem_set hs with hs | rfl
    · rw [htabs] at hs; exact List.mem_map_of_mem hs
    · rw [hid]; exact List.mem_map_of_mem ht
  · rcases h with h | h
    · obtain ⟨s, hs, hm⟩ := List.mem_flatMap.mp h
      rcases List.mem_or_eq_of_mem_set hs with hs | rfl
      · rw [htabs] at hs; exact Or.inl (Or.inl (List.mem_flatMap.mpr ⟨s, hs, hm⟩))
      · exact (hp id hm).imp (fun hm => Or.inl (List.mem_flatMap.mpr ⟨t, ht, hm⟩)) fun h => h
    · exact (hpanes id (hsub id h)).imp Or.inr fun h => h

/-- A pane that could not be started has used up its id. -/
theorem failedPane_ids {w v : Workspace} {cols rows : Int} {cwd err : String} {spawn : SpawnResult}
    (hn : w.newPaneLocked cols rows cwd spawn = (v, .error err)) : IdStep w v := by
  obtain ⟨hgen, hkeyed, htabs, hnt, hnp, hpanes, -⟩ := newPane_ids hn
  refine ⟨hgen, hkeyed, Or.inl ⟨hnt, fun id hid => ?_⟩, Or.inr ⟨hnp, fun id hid => ?_⟩⟩
  · unfold TabPresent at hid
    rw [htabs] at hid; exact hid
  · rcases hid with hid | hid
    · rw [htabs] at hid; exact Or.inl (Or.inl hid)
    · exact (hpanes id hid).imp Or.inr fun h => h

theorem splitPane_ids (w : Workspace) (tabID paneID : String) (direction : Direction) (cols rows : Int)
    (spawn : SpawnResult) : IdStep w (w.splitPaneLocked tabID paneID direction cols rows spawn).1 := by
  unfold splitPaneLocked
  split
  · exact (Keeps.refl w).idStep
  · rename_i index tab hf
    split
    · exact (Keeps.refl w).idStep
    · split
      · exact (Keeps.refl w).idStep
      · simp only
        split
        · rename_i v err hn
          exact failedPane_ids hn
        · rename_i v newPaneID hn
          simp only
          generalize ht' : ({ tab with Layout := _, PaneIDs := tab.PaneIDs ++ [newPaneID], ActivePaneID := newPaneID } :
            TerminalTab) = t'
          have hstep : IdStep w { v with tabs := v.tabs.set index t', panes := v.panes } := by
            refine startInTab_ids (found_mem hf) hn (by rw [← ht']) (fun id hid => ?_) (fun h => h) fun _ h => h
            rw [← ht'] at hid
            exact (List.mem_append.mp hid).imp (fun h => h) List.mem_singleton.mp
          generalize ({ v with tabs := v.tabs.set index t' } : Workspace) = u at hstep ⊢
          exact hstep.keeps (.setActiveTab ..)

theorem restartPane_ids (w : Workspace) (tabID paneID : String) (cols rows : Int) (spawn : SpawnResult) :
    IdStep w (w.restartExitedPaneLocked tabID paneID cols rows spawn).1 := by
  unfold restartExitedPaneLocked
  split
  · rename_i index tab old hf hl
    split
    · exact (Keeps.refl w).idStep
    · split
      · exact (Keeps.refl w).idStep
      · split
        · rename_i v err hn
          exact failedPane_ids hn
        · rename_i v newPaneID hn
          simp only
          generalize ht' : ({ tab with PaneIDs := _, Layout := _, ActivePaneID := _ } : TerminalTab) = t'
          have hstep : IdStep w { v with tabs := v.tabs.set index t', panes := v.panes.erase paneID } := by
            refine startInTab_ids (found_mem hf) hn (by rw [← ht']) (fun id hid => ?_)
              (fun h => h.erase paneID) fun id hid => (AList.mem_erase.mp hid).2
            rw [← ht'] at hid
            obtain ⟨p, hp, rfl⟩ := List.mem_map.mp hid
            split
            · exact Or.inr rfl
            · exact Or.inl hp
          generalize ({ v with tabs := v.tabs.set index t', panes := v.panes.erase paneID } : Workspace) = u at hstep
          exact hstep.keeps (.setActiveTab ..)
  · exact (Keeps.refl w).idStep

theorem movePaneToTab_ids (w : Workspace) (tabID paneID : String) : IdStep w (w.movePaneToTabLocked tabID paneID).1 := by
  unfold movePaneToTabLocked
  split
  · exact (Keeps.refl w).idStep
  · rename_i index source hf
    split
    · exact (Keeps.refl w).idStep
    · split
      · exact (Keeps.refl w).idStep
      · rename_i hp
        rw [Bool.not_eq_true', Bool.not_eq_false, hasPane_iff] at hp
        have hmem := found_mem hf
        have hk : Keeps w { w with tabs := w.tabs.set index (takePane source paneID) } :=
          .ofSet hmem (takePane_panes source paneID).1 (takePane_panes source paneID).2
        simp only [nextTabIDStringLocked]
        generalize htab : ({
          ID := taggedID "tab-" w.nextTabID
          Label := taggedID ((takePane source paneID).Label ++ " ") ((w.tabs.set index (takePane source paneID)).length + 1)
          CustomLabel := false, ActivePaneID := paneID, Layout := leafNode paneID 0, PaneIDs := [paneID] } :
            TerminalTab) = tab
        have hid : tab.ID = taggedID "tab-" w.nextTabID := by rw [← htab]
        have hps : tab.PaneIDs = [paneID] := by rw [← htab]
        obtain ⟨tabs, he, hperm⟩ := insertTab_perm { w with
          tabs := w.tabs.set index (takePane source paneID), nextTabID := w.nextTabID + 1 } tab (takePane source paneID).ID
        rw [he]
        have hstep : IdStep w { { w with
            tabs := w.tabs.set index (takePane source paneID), nextTabID := w.nextTabID + 1 } with tabs := tabs } := by
          refine ⟨rfl, fun h => h, Or.inr ⟨rfl, fun id h => ?_⟩, Or.inl ⟨rfl, fun id h => ?_⟩⟩
          · rcases List.mem_cons.mp ((tabIDsOf_perm hperm).mem_iff.mp h) with rfl | h
            · exact Or.inr hid
            · exact Or.inl (hk.tabs id h)
          · rcases h with h | h
            · rcases List.mem_append.mp ((hperm.flatMap_right _).mem_iff.mp h) with h | h
              · rw [hps] at h
                rw [List.mem_singleton.mp h]
                exact Or.inl (List.mem_flatMap.mpr ⟨source, hmem, hp⟩)
              · exact hk.panes id (Or.inl h)
            · exact Or.inr h
        generalize ({ { w with tabs := w.tabs.set index (takePane source paneID), nextTabID := w.nextTabID + 1 } with
          tabs := tabs } : Workspace) = u at hstep
        exact hstep.keeps (.setActiveTab ..)

/-! ## Events -/

theorem applyAction_ids (w : Workspace) (request : WorkspaceActionRequest) (spawn : SpawnResult) :
    IdStep w (w.applyAction request spawn).1 := by
  unfold applyAction
  simp only
  cases request.Action with
  | createTab => exact createTab_ids ..
  | renameTab => exact (renameTab_keeps ..).idStep
  | closeTab => exact (closeTab_keeps_ids ..).idStep
  | closeOtherTabs => exact (closeOtherTabs_keeps ..).idStep
  | splitPane => exact splitPane_ids ..
  | closePane => exact (closePane_keeps ..).idStep
  | restartPane => exact restartPane_ids ..
  | movePaneToTab => exact movePaneToTab_ids ..
  | moveTab => exact (moveTab_keeps ..).idStep
  | reorderTab => exact (reorderTab_keeps ..).idStep
  | activateTab => exact (activateTab_keeps ..).idStep
  | activatePane => exact (activatePane_keeps ..).idStep
  | updateLayout => exact (updateLayout_keeps ..).idStep
  | unknown name => exact (Keeps.refl w).idStep

theorem refreshActivity_keeps (w : Workspace) (reports : List (String × String × String)) :
    Keeps w (w.refreshActivity reports) := by
  have hfold : Keeps w (reports.foldl reportActivity w) := by
    induction reports generalizing w with
    | nil => exact .refl w
    | cons report reports ih =>
      refine Keeps.trans ?_ (ih (reportActivity w report))
      unfold reportActivity
      apply Keeps.modifyPane
      exact fun _ => rfl
  exact hfold.trans (.relabel _)

/-- What any event does to the ids. -/
theorem applyEvent_ids (w : Workspace) (e : WorkspaceEvent) : IdStep w (w.applyEvent e) := by
  cases e with
  | action request spawn => exact applyAction_ids w request spawn
  | exited paneID =>
    have h : Keeps w (w.modifyPane paneID fun pane => { pane with exited := true }) :=
      Keeps.modifyPane w paneID fun _ => rfl
    exact (h.trans ⟨rfl, fun h => h, rfl, rfl, fun _ h => h, fun _ h => h⟩ :
      Keeps w (w.markExited paneID)).idStep
  | retain paneID exitCode =>
    refine Keeps.idStep ?_
    unfold applyEvent retainFailedFinalPane
    simp only
    split
    · exact .refl w
    · split
      · simp only
        apply Keeps.modifyPane
        exact fun _ => rfl
      · exact .refl w
  | removePaneAfterExit paneID =>
    refine Keeps.idStep ?_
    unfold applyEvent removePaneAfterExit
    simp only
    split
    · exact .refl w
    · rename_i index tab hf
      obtain ⟨pre, post, he, -, -⟩ := findPaneTab_some hf
      exact closePaneInTab_keeps (by rw [he]; exact List.mem_append_right _ (List.mem_cons_self ..)) paneID
  | activity reports => exact (refreshActivity_keeps w reports).idStep
  | snapshot => exact ((Keeps.relabel w).trans (.pruneRecentTabs _)).idStep

end Workspace

end Webshell
