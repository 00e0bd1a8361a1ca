import Webshell.Machine
import Webshell.WorkspaceSound

/-!
# Runs of a workspace

Actions, the two parts of a pane's exit, activity reports and snapshots, in
any order, from the workspace that `ensureWorkspaceLocked` creates.
-/

namespace Webshell

open GoText

inductive WorkspaceEvent
  | action (request : WorkspaceActionRequest) (spawn : SpawnResult)
  | exited (paneID : String)
  | retain (paneID : String) (exitCode : Int)
  | removePaneAfterExit (paneID : String)
  /-- The scan's answers for some panes: the directory, if it tells one, and the command. -/
  | activity (reports : List (String × String × String))
  | snapshot

namespace Workspace

def reportActivity (w : Workspace) (report : String × String × String) : Workspace :=
  w.modifyPane report.1 fun pane => {
    pane with cwd := if report.2.1 = "" then pane.cwd else report.2.1, command := report.2.2 }

def refreshActivity (w : Workspace) (reports : List (String × String × String)) : Workspace :=
  (reports.foldl reportActivity w).refreshAutoTabLabelsLocked

def applyEvent (w : Workspace) : WorkspaceEvent → Workspace
  | .action request spawn => (w.applyAction request spawn).1
  | .exited paneID => w.markExited paneID
  | .retain paneID exitCode => (w.retainFailedFinalPane paneID exitCode).1
  | .removePaneAfterExit paneID => w.removePaneAfterExit paneID
  | .activity reports => w.refreshActivity reports
  | .snapshot => w.snapshot.1

/-- The fresh workspace with its first tab, whose pane started in `directory`. -/
def fresh (selector workspaceGeneration username : String) (cols rows : Int) (directory : String) : Workspace :=
  ((empty selector workspaceGeneration username).createTabLocked "" "" (NormalizeCols cols) (NormalizeRows rows)
    (.ok directory)).1

end Workspace

def workspaceMachine : Machine Workspace WorkspaceEvent where
  step w e := some (w.applyEvent e)

/-- What a workspace guarantees between two operations. -/
structure StructuralInv (w : Workspace) : Prop where
  tabIDs : (tabIDsOf w.tabs).Nodup
  paneIDs : (paneIDsOf w.tabs).Nodup
  panes : ∀ id, id ∈ w.panes ↔ ∃ t ∈ w.tabs, id ∈ t.PaneIDs
  nonempty : ∀ t ∈ w.tabs, t.PaneIDs ≠ []
  layout : ∀ t ∈ w.tabs, WellFormedLayout t.Layout ∧ t.Layout.leaves.Nodup ∧
    ∀ id, id ∈ t.Layout.leaves ↔ id ∈ t.PaneIDs
  activePane : ∀ t ∈ w.tabs, t.ActivePaneID ∈ t.PaneIDs
  activeTab : w.activeTab ∈ tabIDsOf w.tabs ∨ w.activeTab = ""
  activeTab_empty : w.activeTab = "" ↔ w.tabs = []
  recentTabs : w.recentTabs.length ≤ 2 ∧ w.recentTabs.Nodup ∧ ∀ id ∈ w.recentTabs, id ∈ tabIDsOf w.tabs

theorem WorkspaceInv.structural {w : Workspace} (h : WorkspaceInv w) : StructuralInv w where
  tabIDs := h.core.tabIDs
  paneIDs := h.core.paneIDs
  panes := fun id => (h.core.keySet id).trans List.mem_flatMap
  nonempty := fun t ht => (h.core.each t ht).nonempty
  layout := by
    intro t ht
    obtain ⟨pre, post, he⟩ := List.append_of_mem ht
    have hn := ((he ▸ Workspace.tabAt_append pre t post).inv h.core).2
    have hi := h.core.each t ht
    exact ⟨hi.wellFormed, hi.leaves.nodup_iff.mpr hn, fun id => hi.leaves.mem_iff⟩
  activePane := fun t ht => (h.core.each t ht).active
  activeTab := h.select.active.imp id And.left
  activeTab_empty := by
    constructor
    · intro he
      rcases h.select.active with hm | ⟨-, hn⟩
      · exact absurd he (h.core.trimmed _ hm).2
      · exact hn
    · intro hn
      rcases h.select.active with hm | ⟨he, -⟩
      · rw [hn] at hm; cases hm
      · exact he
  recentTabs := h.select.recent

namespace Workspace

/-! ## Events that are not actions -/

theorem modifyPane_frame (w : Workspace) (paneID : String) (f : WorkspacePane → WorkspacePane) :
    ∃ panes : PaneMap, w.modifyPane paneID f = { w with panes := panes } ∧ ∀ id, id ∈ panes ↔ id ∈ w.panes := by
  unfold modifyPane
  cases h : w.panes.lookup paneID with
  | none => exact ⟨_, rfl, fun _ => Iff.rfl⟩
  | some pane =>
    refine ⟨_, rfl, fun id => ?_⟩
    have hm : paneID ∈ w.panes := AList.lookup_isSome.mp (by rw [h]; rfl)
    rw [AList.mem_insert]
    constructor
    · rintro (rfl | hid)
      · exact hm
      · exact hid
    · exact Or.inr

theorem modifyPane_inv {w : Workspace} (h : WorkspaceInv w) (paneID : String) (f : WorkspacePane → WorkspacePane)
    (running : List String) : WorkspaceInv { w.modifyPane paneID f with running := running } := by
  obtain ⟨panes, he, hk⟩ := modifyPane_frame w paneID f
  rw [he]
  exact ⟨h.core.keys hk, ⟨h.select.active, h.select.recent⟩⟩

theorem retain_inv {w : Workspace} (h : WorkspaceInv w) (paneID : String) (exitCode : Int) :
    WorkspaceInv (w.retainFailedFinalPane paneID exitCode).1 := by
  unfold retainFailedFinalPane
  split
  · exact h
  · split
    · exact modifyPane_inv h paneID _ _
    · exact h

/-- Relabelling keeps everything but the labels. -/
theorem relabel_inv {w : Workspace} (h : WorkspaceInv w) (label : TerminalTab → String) :
    WorkspaceInv { w with tabs := w.tabs.map fun t => { t with Label := label t } } := by
  have hids : tabIDsOf (w.tabs.map fun t => { t with Label := label t }) = tabIDsOf w.tabs := by
    simp [tabIDsOf, Function.comp_def]
  have hps : paneIDsOf (w.tabs.map fun t => { t with Label := label t }) = paneIDsOf w.tabs := by
    simp [paneIDsOf, List.flatMap_map]
  have hc := h.core
  refine ⟨⟨hids ▸ hc.tabIDs, hps ▸ hc.paneIDs, hps ▸ hc.keySet, ?_, hids ▸ hc.trimmed, hids ▸ hc.freshTab,
    hps ▸ hc.freshPane⟩, SelectInv.of_frame h.select (fun id => by rw [hids]) rfl rfl⟩
  intro t ht
  obtain ⟨s, hs, rfl⟩ := List.mem_map.mp ht
  have hi := hc.each s hs
  exact ⟨hi.nonempty, hi.wellFormed, hi.leaves, hi.active⟩

theorem refreshAutoTabLabels_inv {w : Workspace} (h : WorkspaceInv w) : WorkspaceInv w.refreshAutoTabLabelsLocked := by
  have he : w.refreshAutoTabLabelsLocked = { w with
      tabs := w.tabs.map fun t => { t with
        Label := if t.CustomLabel = true ∨ w.resolveAutoTabLabelLocked t = "" then t.Label
          else w.resolveAutoTabLabelLocked t } } := by
    unfold refreshAutoTabLabelsLocked
    congr 1
    refine List.map_congr_left fun t _ => ?_
    simp only
    split <;> rfl
  rw [he]
  exact relabel_inv h _

theorem refreshActivity_inv {w : Workspace} (h : WorkspaceInv w) (reports : List (String × String × String)) :
    WorkspaceInv (w.refreshActivity reports) := by
  refine refreshAutoTabLabels_inv ?_
  induction reports generalizing w with
  | nil => exact h
  | cons report reports ih => exact ih (modifyPane_inv h report.1 _ _)

theorem snapshot_inv {w : Workspace} (h : WorkspaceInv w) : WorkspaceInv w.snapshot.1 := by
  have h' := refreshAutoTabLabels_inv h
  exact ⟨h'.core, pruneRecentTabs_select h'.select.active⟩

theorem applyEvent_inv {w : Workspace} (h : WorkspaceInv w) (e : WorkspaceEvent) : WorkspaceInv (w.applyEvent e) := by
  cases e with
  | action request spawn => exact applyAction_inv h request spawn
  | exited paneID => exact modifyPane_inv h paneID _ _
  | retain paneID exitCode => exact retain_inv h paneID exitCode
  | removePaneAfterExit paneID => exact removePaneAfterExit_inv h paneID
  | activity reports => exact refreshActivity_inv h reports
  | snapshot => exact snapshot_inv h

theorem empty_inv (selector workspaceGeneration username : String) :
    WorkspaceInv (empty selector workspaceGeneration username) where
  core := {
    tabIDs := List.nodup_nil
    paneIDs := List.nodup_nil
    keySet := fun id => by simp [empty, paneIDsOf, AList.mem_keys]
    each := fun t ht => by cases ht
    trimmed := fun id hid => by cases hid
    freshTab := fun n _ hm => by cases hm
    freshPane := fun n _ hm => by cases hm }
  select := ⟨Or.inr ⟨rfl, rfl⟩, by simp [empty], List.nodup_nil, fun id hid => by cases hid⟩

theorem fresh_inv (selector workspaceGeneration username : String) (cols rows : Int) (directory : String) :
    WorkspaceInv (fresh selector workspaceGeneration username cols rows directory) :=
  createTab_inv (empty_inv ..) ..

end Workspace

/-- Every run from the fresh workspace goes through and ends in a structurally sound one. -/
theorem run_structuralInv (selector workspaceGeneration username : String) (cols rows : Int) (directory : String)
    (es : List WorkspaceEvent) :
    ∃ w, workspaceMachine.run (Workspace.fresh selector workspaceGeneration username cols rows directory) es = some w ∧
      StructuralInv w := by
  have hrun : ∀ (es : List WorkspaceEvent) (v : Workspace), ∃ w, workspaceMachine.run v es = some w := by
    intro es
    induction es with
    | nil => exact fun v => ⟨v, rfl⟩
    | cons e es ih => exact fun v => ih (v.applyEvent e)
  obtain ⟨w, hw⟩ := hrun es _
  refine ⟨w, hw, (workspaceMachine.run_inv (fun v e v' hv hs => ?_) hw (Workspace.fresh_inv ..)).structural⟩
  cases hs
  exact Workspace.applyEvent_inv hv e

end Webshell
