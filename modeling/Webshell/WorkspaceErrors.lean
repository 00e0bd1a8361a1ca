import Webshell.WorkspaceRun

/-!
# What a refused action leaves behind

An action that answers an error leaves tabs, selection and panes alone. The
exception is `updateLayoutLocked`, which stores a valid layout before it looks
for the active pane it may refuse.
-/

namespace Webshell

open GoText

/-- Equal but for the id counters. -/
def Unchanged (w w' : Workspace) : Prop :=
  w'.tabs = w.tabs ∧ w'.activeTab = w.activeTab ∧ w'.recentTabs = w.recentTabs ∧ w'.panes = w.panes

def FailsCleanly (w : Workspace) (o : Outcome) : Prop := o.2 ≠ none → Unchanged w o.1

theorem Unchanged.refl (w : Workspace) : Unchanged w w := ⟨rfl, rfl, rfl, rfl⟩

namespace Workspace

theorem cleanly_same {w : Workspace} {err : Option String} : FailsCleanly w (w, err) := fun _ => .refl w

theorem cleanly_ok {w : Workspace} {o : Outcome} (h : o.2 = none) : FailsCleanly w o := fun he => absurd h he

/-- Failing to start a pane uses up its id only. -/
theorem cleanly_spawn {w : Workspace} {n : Int} {err : Option String} :
    FailsCleanly w ({ w with nextPaneID := n }, err) := fun _ => ⟨rfl, rfl, rfl, rfl⟩

theorem createTab_cleanly (w : Workspace) (sourceTabID sourcePaneID : String) (cols rows : Int) (spawn : SpawnResult) :
    FailsCleanly w (w.createTabLocked sourceTabID sourcePaneID cols rows spawn) := by
  unfold createTabLocked
  simp only
  rcases newPane_cases w cols rows (w.resolveSourcePaneCWDLocked sourceTabID sourcePaneID) spawn with
    ⟨err, he⟩ | ⟨pane, -, -, he⟩
  · rw [he]; exact cleanly_spawn
  · rw [he]; exact cleanly_ok rfl

theorem renameTab_cleanly (w : Workspace) (tabID label : String) : FailsCleanly w (w.renameTabLocked tabID label) := by
  unfold renameTabLocked
  split
  · exact cleanly_same
  · simp only
    split
    · exact cleanly_same
    · exact cleanly_ok rfl

theorem closeTab_cleanly (w : Workspace) (tabID : String) : FailsCleanly w (w.closeTabLocked tabID) := by
  by_cases hm : tabID ∈ tabIDsOf w.tabs
  · exact cleanly_ok (closeTab_ok hm)
  · unfold closeTabLocked
    rw [show w.findTabIndexLocked tabID = none from findTabIn_none.mpr hm]
    exact cleanly_same

/-- The loop names only tabs it has just read, so it closes each of them. -/
theorem closeTabsBelow_ok (tabID : String) : ∀ (n : Nat) (w : Workspace), (closeTabsBelow tabID n w).2 = none
  | 0, _ => rfl
  | n + 1, w => by
    rw [closeTabsBelow]
    cases hg : w.tabs[n]? with
    | none => rfl
    | some t =>
      simp only
      split
      · exact closeTabsBelow_ok tabID n w
      · have hok : (w.closeTabLocked t.ID).2 = none := closeTab_ok (List.mem_map_of_mem (List.mem_of_getElem? hg))
        revert hok
        cases w.closeTabLocked t.ID with
        | mk w' err =>
          rintro rfl
          exact closeTabsBelow_ok tabID n w'

theorem closeOtherTabs_cleanly (w : Workspace) (tabID : String) : FailsCleanly w (w.closeOtherTabsLocked tabID) := by
  unfold closeOtherTabsLocked
  split
  · exact cleanly_same
  · have hok := closeTabsBelow_ok tabID w.tabs.length w
    revert hok
    cases closeTabsBelow tabID w.tabs.length w with
    | mk w' err =>
      rintro rfl
      exact cleanly_ok rfl

theorem splitPane_cleanly (w : Workspace) (tabID paneID : String) (direction : Direction) (cols rows : Int)
    (spawn : SpawnResult) : FailsCleanly w (w.splitPaneLocked tabID paneID direction cols rows spawn) := by
  unfold splitPaneLocked
  split
  · exact cleanly_same
  · split
    · exact cleanly_same
    · split
      · exact cleanly_same
      · simp only
        rcases newPane_cases w cols rows (w.resolveSourcePaneCWDLocked tabID paneID) spawn with
          ⟨err, he⟩ | ⟨pane, -, -, he⟩
        · rw [he]; exact cleanly_spawn
        · rw [he]; exact cleanly_ok rfl

/-- A pane of a listed tab is closed without an error: the emptied tab keeps its place. -/
theorem closePaneInTab_ok {w : Workspace} {i : Nat} {t : TerminalTab} {rest : List TerminalTab} {paneID : String}
    (hi : TabAt w.tabs i t rest) (hp : t.hasPane paneID = true) : (w.closePaneInTabLocked i t paneID).2 = none := by
  unfold closePaneInTabLocked
  rw [hp]
  simp only [Bool.not_true, Bool.false_eq_true, if_false]
  split
  · refine closeTab_ok ?_
    obtain ⟨panes, running, hd⟩ := dropPane_frame w paneID
    rw [hd]
    have hid : (takePane t paneID).ID = t.ID := rfl
    rw [hid]
    exact (hi.mem_set_iff hid _).mpr hi.mem_self
  · rfl

theorem closePane_cleanly (w : Workspace) (tabID paneID : String) : FailsCleanly w (w.closePaneLocked tabID paneID) := by
  unfold closePaneLocked
  cases hf : w.findTabIndexLocked tabID with
  | none => exact cleanly_same
  | some r =>
    obtain ⟨i, t⟩ := r
    obtain ⟨-, rest, hi⟩ := found hf
    simp only
    cases hp : t.hasPane paneID with
    | true => exact cleanly_ok (closePaneInTab_ok hi hp)
    | false => unfold closePaneInTabLocked; rw [hp]; exact cleanly_same

theorem restartPane_cleanly (w : Workspace) (tabID paneID : String) (cols rows : Int) (spawn : SpawnResult) :
    FailsCleanly w (w.restartExitedPaneLocked tabID paneID cols rows spawn) := by
  unfold restartExitedPaneLocked
  split
  · rename_i i t old hf ho
    split
    · exact cleanly_same
    · split
      · exact cleanly_same
      · rcases newPane_cases w cols rows old.cwd spawn with ⟨err, he⟩ | ⟨pane, -, -, he⟩
        · rw [he]; exact cleanly_spawn
        · rw [he]; exact cleanly_ok rfl
  · exact cleanly_same

theorem movePaneToTab_cleanly (w : Workspace) (tabID paneID : String) :
    FailsCleanly w (w.movePaneToTabLocked tabID paneID) := by
  unfold movePaneToTabLocked
  split
  · exact cleanly_same
  · split
    · exact cleanly_same
    · split
      · exact cleanly_same
      · exact cleanly_ok rfl

theorem moveTab_cleanly (w : Workspace) (tabID : String) (position : TabPosition) :
    FailsCleanly w (w.moveTabLocked tabID position) := by
  unfold moveTabLocked
  split
  · exact cleanly_same
  · split
    · exact cleanly_same
    · split
      · exact cleanly_same
      · split
        · exact cleanly_same
        · exact cleanly_ok rfl

theorem reorderTab_cleanly (w : Workspace) (tabID beforeTabID : String) :
    FailsCleanly w (w.reorderTabLocked tabID beforeTabID) := by
  unfold reorderTabLocked
  split
  · exact cleanly_same
  · simp only
    split
    · exact cleanly_same
    · split
      · exact cleanly_same
      · split
        · exact cleanly_ok rfl
        · split <;> exact cleanly_ok rfl

theorem activateTab_cleanly (w : Workspace) (tabID : String) (recent : Option (List String)) :
    FailsCleanly w (w.activateTabLocked tabID recent) := by
  unfold activateTabLocked
  split
  · exact cleanly_same
  · split <;> exact cleanly_ok rfl

theorem activatePane_cleanly (w : Workspace) (tabID paneID : String) :
    FailsCleanly w (w.activatePaneLocked tabID paneID) := by
  unfold activatePaneLocked
  split
  · exact cleanly_same
  · split
    · exact cleanly_same
    · exact cleanly_ok rfl

/-! ## The layout stored before the refusal -/

/-- The request brings a valid layout for the tab that differs from the tab's own, and
an active pane that the tab does not have. -/
def CommitsRefusedLayout (w : Workspace) (tabID : String) (layout : LayoutNode) (activePaneID : String) : Prop :=
  ∃ index tab normalized, w.findTabIndexLocked tabID = some (index, tab) ∧ layout.isNil = false ∧
    validateLayoutForTab (cloneLayout layout) tab = .ok normalized ∧ normalized ≠ tab.Layout ∧
      activePaneID ≠ "" ∧ tab.hasPane activePaneID = false

theorem updateLayout_cleanly (w : Workspace) (tabID : String) (layout : LayoutNode) (activePaneID : String) :
    FailsCleanly w (w.updateLayoutLocked tabID layout activePaneID) ↔
      ¬CommitsRefusedLayout w tabID layout activePaneID := by
  unfold updateLayoutLocked CommitsRefusedLayout
  cases hf : w.findTabIndexLocked tabID with
  | none => simp [cleanly_same]
  | some r =>
    obtain ⟨i, t⟩ := r
    obtain ⟨pre, post, htabs, rfl, -⟩ := findTabIn_some hf
    simp only [Option.some.injEq, Prod.mk.injEq]
    cases hl : layout.isNil with
    | true => simp [cleanly_same]
    | false =>
      cases hv : validateLayoutForTab (cloneLayout layout) t with
      | error err => simp [hv, cleanly_same]
      | ok normalized =>
        simp only [Bool.false_eq_true, if_false]
        have hpane : ({ t with Layout := normalized } : TerminalTab).hasPane activePaneID = t.hasPane activePaneID := rfl
        rw [hpane]
        by_cases hempty : activePaneID = ""
        · rw [if_pos hempty]
          simp [hempty, cleanly_ok]
        · rw [if_neg hempty]
          cases hp : t.hasPane activePaneID with
          | true =>
            simp only [Bool.not_true, Bool.false_eq_true, if_false]
            refine ⟨fun _ => ?_, fun _ => cleanly_ok rfl⟩
            rintro ⟨_, _, _, ⟨rfl, rfl⟩, -, -, -, -, hnot⟩
            rw [hp] at hnot; cases hnot
          | false =>
            simp only [Bool.not_false, if_true]
            constructor
            · rintro hclean ⟨_, _, m, ⟨rfl, rfl⟩, -, hm, hne, -, -⟩
              rw [hv] at hm; cases hm
              obtain ⟨htab, -⟩ := hclean (by simp)
              simp only [htabs, set_at] at htab
              have := (List.append_cancel_left htab)
              exact hne (congrArg TerminalTab.Layout (List.cons.inj this).1)
            · intro hnot _
              have he : normalized = t.Layout := by
                by_contra hne
                exact hnot ⟨_, _, _, ⟨rfl, rfl⟩, trivial, hv, hne, hempty, hp⟩
              refine ⟨?_, rfl, rfl, rfl⟩
              simp only [htabs, set_at, he]

end Workspace

/-- A refused action changes nothing, unless it is `update_layout` with a layout it accepts
and an active pane it does not. -/
theorem applyAction_error_unchanged_iff (w : Workspace) (request : WorkspaceActionRequest) (spawn : SpawnResult) :
    ((w.applyAction request spawn).2 ≠ none → Unchanged w (w.applyAction request spawn).1) ↔
      ¬(request.Action = .updateLayout ∧
        Workspace.CommitsRefusedLayout w request.TabID request.Layout request.ActivePaneID) := by
  show FailsCleanly w (w.applyAction request spawn) ↔ _
  unfold Workspace.applyAction
  cases ha : request.Action with
  | updateLayout => simp only [true_and]; exact Workspace.updateLayout_cleanly ..
  | createTab => exact iff_of_true (Workspace.createTab_cleanly w _ _ _ _ _) (by simp)
  | renameTab => exact iff_of_true (Workspace.renameTab_cleanly w _ _) (by simp)
  | closeTab => exact iff_of_true (Workspace.closeTab_cleanly w _) (by simp)
  | closeOtherTabs => exact iff_of_true (Workspace.closeOtherTabs_cleanly w _) (by simp)
  | splitPane => exact iff_of_true (Workspace.splitPane_cleanly w _ _ _ _ _ _) (by simp)
  | closePane => exact iff_of_true (Workspace.closePane_cleanly w _ _) (by simp)
  | restartPane => exact iff_of_true (Workspace.restartPane_cleanly w _ _ _ _ _) (by simp)
  | movePaneToTab => exact iff_of_true (Workspace.movePaneToTab_cleanly w _ _) (by simp)
  | moveTab => exact iff_of_true (Workspace.moveTab_cleanly w _ _) (by simp)
  | reorderTab => exact iff_of_true (Workspace.reorderTab_cleanly w _ _) (by simp)
  | activateTab => exact iff_of_true (Workspace.activateTab_cleanly w _ _) (by simp)
  | activatePane => exact iff_of_true (Workspace.activatePane_cleanly w _ _) (by simp)
  | unknown name => exact iff_of_true Workspace.cleanly_same (by simp)

/-- Two panes side by side. -/
def splitSample : Workspace :=
  ((Workspace.fresh "" "g" "u" 120 32 "/").applyAction
    { Action := .splitPane, TabID := "tab-1", PaneID := "pane-1", Direction := .horizontal } (.ok "/")).1

/-- The panes swapped, and a third one to activate. -/
def swapRequest : WorkspaceActionRequest where
  Action := .updateLayout
  TabID := "tab-1"
  Layout := .node .split .horizontal "" [leafNode "pane-2" 50, leafNode "pane-1" 50] 0
  ActivePaneID := "pane-3"

theorem swapRequest_changes : workspaceMachine.Reachable (Workspace.fresh "" "g" "u" 120 32 "/") splitSample ∧
    StructuralInv splitSample ∧ (splitSample.applyAction swapRequest (.ok "/")).2 = some "active pane not found" ∧
      ¬Unchanged splitSample (splitSample.applyAction swapRequest (.ok "/")).1 := by
  refine ⟨⟨[.action _ (.ok "/")], rfl⟩, ?_, by decide +kernel, ?_⟩
  · exact (Workspace.applyAction_inv (Workspace.fresh_inv ..) ..).structural
  · rintro ⟨htabs, -⟩
    have hfirst := congrArg (fun ts : List TerminalTab => ts.map fun t => firstLayoutPaneID t.Layout) htabs
    revert hfirst
    decide +kernel

end Webshell
