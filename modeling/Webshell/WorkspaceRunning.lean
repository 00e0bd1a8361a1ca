import Webshell.WorkspaceRun

/-!
# The processes of a workspace

A pane whose process was started is in the pane map until the pane is closed or
its process has exited. This holds of every operation that does not start a pane
under an id a running pane already has.
-/

namespace Webshell

open GoText

/-- The running panes are different ones, and the map has each of them, not exited. -/
structure RunningInv (panes : PaneMap) (running : List String) : Prop where
  nodup : running.Nodup
  live : ∀ id ∈ running, ∃ pane, panes.lookup id = some pane ∧ pane.exited = false

namespace RunningInv

variable {panes : PaneMap} {running : List String}

theorem none : RunningInv ∅ [] := ⟨List.nodup_nil, fun _ h => by cases h⟩

theorem start (h : RunningInv panes running) {id : String} {pane : WorkspacePane} (hid : id ∉ running)
    (hp : pane.exited = false) : RunningInv (panes.insert id pane) (id :: running) where
  nodup := List.nodup_cons.mpr ⟨hid, h.nodup⟩
  live := by
    intro other ho
    by_cases he : other = id
    · subst he
      exact ⟨pane, AList.lookup_insert _, hp⟩
    · obtain ⟨p, hl, hx⟩ := h.live other ((List.mem_cons.mp ho).resolve_left he)
      exact ⟨p, by rw [AList.lookup_insert_ne he]; exact hl, hx⟩

/-- A pane is closed. -/
theorem drop (h : RunningInv panes running) (id : String) : RunningInv (panes.erase id) (running.erase id) where
  nodup := h.nodup.erase id
  live := by
    intro other ho
    obtain ⟨hne, hm⟩ := (List.Nodup.mem_erase_iff h.nodup).mp ho
    obtain ⟨p, hl, hx⟩ := h.live other hm
    exact ⟨p, by rw [AList.lookup_erase_ne hne]; exact hl, hx⟩

/-- A pane that is not running is forgotten. -/
theorem forget (h : RunningInv panes running) {id : String} (hid : id ∉ running) : RunningInv (panes.erase id) running := by
  have hd := h.drop id
  rwa [List.erase_of_not_mem hid] at hd

/-- A pane is edited, and still has not exited. -/
theorem update (h : RunningInv panes running) {id : String} {old new : WorkspacePane} (hl : panes.lookup id = some old)
    (hx : new.exited = old.exited) : RunningInv (panes.insert id new) running where
  nodup := h.nodup
  live := by
    intro other ho
    obtain ⟨p, hp, hpx⟩ := h.live other ho
    by_cases he : other = id
    · subst he
      rw [hl] at hp
      cases hp
      exact ⟨new, AList.lookup_insert _, hx.trans hpx⟩
    · exact ⟨p, by rw [AList.lookup_insert_ne he]; exact hp, hpx⟩

/-- A pane's process exits. -/
theorem exit (h : RunningInv panes running) {id : String} (pane : WorkspacePane) :
    RunningInv (panes.insert id pane) (running.erase id) where
  nodup := h.nodup.erase id
  live := by
    intro other ho
    obtain ⟨hne, hm⟩ := (List.Nodup.mem_erase_iff h.nodup).mp ho
    obtain ⟨p, hl, hx⟩ := h.live other hm
    exact ⟨p, by rw [AList.lookup_insert_ne hne]; exact hl, hx⟩

theorem not_running (h : RunningInv panes running) {id : String} (hn : panes.lookup id = .none) : id ∉ running := by
  intro hm
  obtain ⟨p, hp, -⟩ := h.live id hm
  rw [hn] at hp; cases hp

end RunningInv

namespace Workspace

/-- The invariant of a workspace's own panes. -/
def Running (w : Workspace) : Prop := RunningInv w.panes w.running

/-- The operation edits neither the pane map nor the running panes. -/
def SamePanes (w w' : Workspace) : Prop := w'.panes = w.panes ∧ w'.running = w.running

theorem SamePanes.running {w w' : Workspace} (h : SamePanes w w') (hw : w.Running) : w'.Running := by
  unfold Running
  rw [h.1, h.2]; exact hw

theorem setActiveTab_panes (w : Workspace) (tabID : String) : SamePanes w (w.setActiveTabLocked tabID) := by
  obtain ⟨_, _, h⟩ := setActiveTab_frame w tabID
  rw [h]; exact ⟨rfl, rfl⟩

theorem pruneRecentTabs_panes (w : Workspace) : SamePanes w w.pruneRecentTabsLocked := ⟨rfl, rfl⟩

theorem dropPane_running {w : Workspace} (h : w.Running) (paneID : String) : (w.dropPane paneID).Running := by
  unfold dropPane
  split
  · exact h
  · exact RunningInv.drop h paneID

theorem dropPanes_running {w : Workspace} (h : w.Running) (paneIDs : List String) : (w.dropPanes paneIDs).Running := by
  unfold dropPanes
  induction paneIDs generalizing w with
  | nil => exact h
  | cons paneID paneIDs ih => exact ih (dropPane_running h paneID)

/-! ## Actions -/

theorem closeTab_running {w : Workspace} (h : w.Running) (tabID : String) : (w.closeTabLocked tabID).1.Running := by
  unfold closeTabLocked
  split
  · exact h
  · rename_i index tab hf
    have hd := dropPanes_running h tab.PaneIDs
    generalize w.dropPanes tab.PaneIDs = v at hd
    have he : Running { v with tabs := v.tabs.eraseIdx index } := hd
    simp only
    split
    · simp only
      exact (setActiveTab_panes _ _).running he
    · simp only
      exact (pruneRecentTabs_panes _).running he

theorem closeTabsBelow_running (tabID : String) (n : Nat) {w : Workspace} (h : w.Running) :
    (closeTabsBelow tabID n w).1.Running := by
  induction n generalizing w with
  | zero => exact h
  | succ n ih =>
    unfold closeTabsBelow
    split
    · exact h
    · rename_i tab ht
      split
      · exact ih h
      · have hc := closeTab_running h tab.ID
        split
        · rename_i w' err he
          rw [he] at hc; exact hc
        · rename_i w' he
          rw [he] at hc; exact ih hc

theorem closeOtherTabs_running {w : Workspace} (h : w.Running) (tabID : String) :
    (w.closeOtherTabsLocked tabID).1.Running := by
  unfold closeOtherTabsLocked
  have hb := closeTabsBelow_running tabID w.tabs.length h
  split
  · exact h
  · split
    · rename_i w' err he
      rw [he] at hb; exact hb
    · rename_i w' he
      rw [he] at hb
      simp only
      exact (setActiveTab_panes _ _).running hb

theorem closePaneInTab_running {w : Workspace} (h : w.Running) (index : Nat) (tab : TerminalTab) (paneID : String) :
    (w.closePaneInTabLocked index tab paneID).1.Running := by
  have hd := dropPane_running h paneID
  unfold closePaneInTabLocked
  generalize w.dropPane paneID = v at hd
  have he : Running { v with tabs := v.tabs.set index (takePane tab paneID) } := hd
  split
  · exact h
  · simp only
    split
    · exact closeTab_running he _
    · exact he

/-- A new pane, under an id no running pane has. -/
theorem newPane_running {w w' : Workspace} (h : w.Running) {cols rows : Int} {cwd : String} {spawn : SpawnResult}
    {result : Except String String} (hfresh : taggedID "pane-" w.nextPaneID ∉ w.running)
    (hn : w.newPaneLocked cols rows cwd spawn = (w', result)) : w'.Running := by
  rcases newPane_cases w cols rows cwd spawn with ⟨err, he⟩ | ⟨pane, -, hx, he⟩
  · rw [he] at hn; cases hn; exact h
  · rw [he] at hn; cases hn; exact RunningInv.start h hfresh hx

theorem insertTab_panes (w : Workspace) (tab : TerminalTab) (sourceTabID : String) :
    SamePanes w (w.insertTabAfterSourceLocked tab sourceTabID) := by
  obtain ⟨_, he, -⟩ := insertTab_perm w tab sourceTabID
  rw [he]; exact ⟨rfl, rfl⟩

theorem createTab_running {w : Workspace} (h : w.Running) (sourceTabID sourcePaneID : String) (cols rows : Int)
    (spawn : SpawnResult) (hfresh : taggedID "pane-" w.nextPaneID ∉ w.running) :
    (w.createTabLocked sourceTabID sourcePaneID cols rows spawn).1.Running := by
  unfold createTabLocked
  simp only
  cases hn : w.newPaneLocked cols rows (w.resolveSourcePaneCWDLocked sourceTabID sourcePaneID) spawn with
  | mk v result =>
    have hv := newPane_running h hfresh hn
    cases result with
    | error err => exact hv
    | ok paneID =>
      simp only
      apply (setActiveTab_panes _ _).running
      apply (insertTab_panes _ _ _).running
      exact hv

theorem splitPane_running {w : Workspace} (h : w.Running) (tabID paneID : String) (direction : Direction) (cols rows : Int)
    (spawn : SpawnResult) (hfresh : taggedID "pane-" w.nextPaneID ∉ w.running) :
    (w.splitPaneLocked tabID paneID direction cols rows spawn).1.Running := by
  unfold splitPaneLocked
  split
  · exact h
  · split
    · exact h
    · split
      · exact h
      · simp only
        cases hn : w.newPaneLocked cols rows (w.resolveSourcePaneCWDLocked tabID paneID) spawn with
        | mk v result =>
          have hv := newPane_running h hfresh hn
          cases result with
          | error err => exact hv
          | ok newPaneID =>
            simp only
            apply (setActiveTab_panes _ _).running
            exact hv

/-- The pane that is replaced has exited, and its id is not given again. -/
theorem restartExitedPane_running {w : Workspace} (h : w.Running) (tabID paneID : String) (cols rows : Int)
    (spawn : SpawnResult) (hfresh : taggedID "pane-" w.nextPaneID ∉ w.running)
    (hother : taggedID "pane-" w.nextPaneID ≠ paneID) :
    (w.restartExitedPaneLocked tabID paneID cols rows spawn).1.Running := by
  unfold restartExitedPaneLocked
  split
  · rename_i index tab old _ hold
    split
    · exact h
    · split
      · exact h
      · rename_i hexited
        have hgone : paneID ∉ w.running := by
          intro hm
          obtain ⟨pane, hl, hx⟩ := h.live paneID hm
          rw [hold] at hl
          cases hl
          rw [hx] at hexited
          exact hexited rfl
        rcases newPane_cases w cols rows old.cwd spawn with ⟨err, he⟩ | ⟨pane, -, hx, he⟩
        · rw [he]
          exact h
        · rw [he]
          simp only
          apply (setActiveTab_panes _ _).running
          apply RunningInv.forget (RunningInv.start h hfresh hx)
          intro hm
          rcases List.mem_cons.mp hm with hm | hm
          · exact hother hm.symm
          · exact hgone hm
  · exact h

/-! ## Actions that edit tabs -/

theorem SamePanes.refl (w : Workspace) : SamePanes w w := ⟨rfl, rfl⟩

theorem SamePanes.trans {w w' w'' : Workspace} (h : SamePanes w w') (h' : SamePanes w' w'') : SamePanes w w'' :=
  ⟨h'.1.trans h.1, h'.2.trans h.2⟩

/-- The tabs are edited, and a tab is made the active one. -/
theorem editTabs_panes (w : Workspace) (tabs : List TerminalTab) (tabID : String) :
    SamePanes w ({ w with tabs := tabs }.setActiveTabLocked tabID) := setActiveTab_panes { w with tabs := tabs } tabID

theorem renameTab_panes (w : Workspace) (tabID label : String) : SamePanes w (w.renameTabLocked tabID label).1 := by
  unfold renameTabLocked
  split
  · exact .refl w
  · simp only
    split <;> exact ⟨rfl, rfl⟩

theorem movePaneToTab_panes (w : Workspace) (tabID paneID : String) :
    SamePanes w (w.movePaneToTabLocked tabID paneID).1 := by
  unfold movePaneToTabLocked
  split
  · exact .refl w
  · rename_i index source _
    split
    · exact .refl w
    · split
      · exact .refl w
      · simp only
        apply SamePanes.trans _ (setActiveTab_panes _ _)
        apply SamePanes.trans _ (insertTab_panes _ _ _)
        exact ⟨rfl, rfl⟩

theorem moveTab_panes (w : Workspace) (tabID : String) (position : TabPosition) :
    SamePanes w (w.moveTabLocked tabID position).1 := by
  unfold moveTabLocked
  split
  · exact .refl w
  · split
    · exact .refl w
    · split
      · exact .refl w
      · split
        · exact .refl w
        · simp only
          exact editTabs_panes ..

theorem reorderTab_panes (w : Workspace) (tabID beforeTabID : String) :
    SamePanes w (w.reorderTabLocked tabID beforeTabID).1 := by
  unfold reorderTabLocked
  split
  · exact .refl w
  · simp only
    split
    · exact .refl w
    · split
      · exact .refl w
      · split
        · exact ⟨rfl, rfl⟩
        · split <;> exact ⟨rfl, rfl⟩

theorem activateTab_panes (w : Workspace) (tabID : String) (recentTabIDs : Option (List String)) :
    SamePanes w (w.activateTabLocked tabID recentTabIDs).1 := by
  unfold activateTabLocked
  split
  · exact .refl w
  · cases recentTabIDs with
    | none =>
      simp only
      exact setActiveTab_panes w _
    | some recent =>
      simp only [setRecentTabsLocked]
      exact ⟨rfl, rfl⟩

theorem activatePane_panes (w : Workspace) (tabID paneID : String) :
    SamePanes w (w.activatePaneLocked tabID paneID).1 := by
  unfold activatePaneLocked
  split
  · exact .refl w
  · split
    · exact .refl w
    · simp only
      exact editTabs_panes ..

theorem updateLayout_panes (w : Workspace) (tabID : String) (layout : LayoutNode) (activePaneID : String) :
    SamePanes w (w.updateLayoutLocked tabID layout activePaneID).1 := by
  unfold updateLayoutLocked
  split
  · exact .refl w
  · split
    · exact .refl w
    · split
      · exact .refl w
      · simp only
        split
        · exact ⟨rfl, rfl⟩
        · split <;> exact ⟨rfl, rfl⟩

/-- Whether an action may start a pane. -/
def StartsPane (request : WorkspaceActionRequest) : Prop :=
  request.Action = .createTab ∨ request.Action = .splitPane ∨ request.Action = .restartPane

/-- The id of the next pane is no running pane's, nor that of the pane it replaces. -/
def FreshPane (w : Workspace) (request : WorkspaceActionRequest) : Prop :=
  taggedID "pane-" w.nextPaneID ∉ w.running ∧ (request.Action = .restartPane → taggedID "pane-" w.nextPaneID ≠ request.PaneID)

theorem applyAction_running {w : Workspace} (h : w.Running) (request : WorkspaceActionRequest) (spawn : SpawnResult)
    (hfresh : StartsPane request → w.FreshPane request) : (w.applyAction request spawn).1.Running := by
  unfold applyAction
  simp only
  split
  · rename_i ha
    exact createTab_running h _ _ _ _ _ (hfresh (.inl ha)).1
  · exact (renameTab_panes w _ _).running h
  · exact closeTab_running h _
  · exact closeOtherTabs_running h _
  · rename_i ha
    exact splitPane_running h _ _ _ _ _ _ (hfresh (.inr (.inl ha))).1
  · unfold closePaneLocked
    split
    · exact h
    · exact closePaneInTab_running h _ _ _
  · rename_i ha
    obtain ⟨hnew, hother⟩ := hfresh (.inr (.inr ha))
    exact restartExitedPane_running h _ _ _ _ _ hnew (hother ha)
  · exact (movePaneToTab_panes w _ _).running h
  · exact (moveTab_panes w _ _).running h
  · exact (reorderTab_panes w _ _).running h
  · exact (activateTab_panes w _ _).running h
  · exact (activatePane_panes w _ _).running h
  · exact (updateLayout_panes w _ _ _).running h
  · exact h

/-! ## What is not an action -/

theorem modifyPane_running {w : Workspace} (h : w.Running) (paneID : String) (f : WorkspacePane → WorkspacePane)
    (hf : ∀ pane, (f pane).exited = pane.exited) : (w.modifyPane paneID f).Running := by
  unfold modifyPane
  cases hl : w.panes.lookup paneID with
  | none => exact h
  | some pane => exact RunningInv.update h hl (hf pane)

theorem refreshActivity_running {w : Workspace} (h : w.Running) (reports : List (String × String × String)) :
    (w.refreshActivity reports).Running := by
  have hfold : (reports.foldl reportActivity w).Running := by
    induction reports generalizing w with
    | nil => exact h
    | cons report reports ih => exact ih (modifyPane_running h report.1 _ fun _ => rfl)
  exact hfold

theorem snapshot_running {w : Workspace} (h : w.Running) : w.snapshot.1.Running := h

theorem markExited_running {w : Workspace} (h : w.Running) (paneID : String) : (w.markExited paneID).Running := by
  unfold markExited modifyPane
  cases hl : w.panes.lookup paneID with
  | none =>
    have hd := RunningInv.drop h paneID
    have hnone : paneID ∉ w.running := RunningInv.not_running h hl
    simp only [Running, List.erase_of_not_mem hnone]
    exact h
  | some pane => exact RunningInv.exit h _

theorem retain_running {w : Workspace} (h : w.Running) (paneID : String) (exitCode : Int) :
    (w.retainFailedFinalPane paneID exitCode).1.Running := by
  unfold retainFailedFinalPane
  split
  · exact h
  · split
    · exact modifyPane_running h paneID _ fun _ => rfl
    · exact h

theorem removePaneAfterExit_running {w : Workspace} (h : w.Running) (paneID : String) :
    (w.removePaneAfterExit paneID).Running := by
  unfold removePaneAfterExit
  split
  · exact h
  · exact closePaneInTab_running h _ _ _

/-- Every running pane is in the map, so each is closed. -/
theorem closeAllPanes_running {w : Workspace} (h : w.Running) : w.closeAllPanes.running = [] := by
  have hfold : ∀ (keys running : List String), running.Nodup →
      ∀ id ∈ keys.foldl (fun running paneID => running.erase paneID) running, id ∈ running ∧ id ∉ keys := by
    intro keys
    induction keys with
    | nil => exact fun running _ id hid => ⟨hid, List.not_mem_nil⟩
    | cons key keys ih =>
      intro running hn id hid
      obtain ⟨hm, hk⟩ := ih _ (hn.erase key) id hid
      obtain ⟨hne, hm⟩ := (List.Nodup.mem_erase_iff hn).mp hm
      exact ⟨hm, List.not_mem_cons_of_ne_of_not_mem hne hk⟩
  apply List.eq_nil_iff_forall_not_mem.mpr
  intro id hid
  obtain ⟨hm, hk⟩ := hfold _ _ h.nodup id hid
  obtain ⟨pane, hl, -⟩ := h.live id hm
  exact hk (AList.mem_keys.mp (AList.lookup_isSome.mp (by rw [hl]; rfl)))

theorem closedPanes_running {w : Workspace} (h : w.Running) : w.closeAllPanes.Running := by
  unfold Running
  rw [closeAllPanes_running h]
  exact RunningInv.none

end Workspace

end Webshell
