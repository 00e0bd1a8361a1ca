import Webshell.RecoveryAccept
import Webshell.WorkspaceIds

/-!
# The rebuilt workspace

What `newRecoveredTerminalWorkspace` leaves of an accepted document: its tabs
one by one, a pane for each of theirs, and counters folded over the ids in
their order.
-/

namespace Webshell

open GoText

namespace Workspace

theorem newTerminalPane_ok {paneID cwd : String} {cols rows : Int} {spawn : SpawnResult} {pane : WorkspacePane}
    (h : newTerminalPane paneID cols rows cwd spawn = .ok pane) : pane.id = paneID ∧ pane.exited = false := by
  unfold newTerminalPane at h
  split at h
  · cases h
  · cases h
    exact ⟨rfl, rfl⟩

theorem recoverPanes_shape {cols rows : Int} {spawn : String → SpawnResult} {ps : List WorkspaceRecoveryPane} :
    ∀ {w w' : Workspace}, recoverPanes cols rows spawn ps w = (w', none) →
      ∃ panes : PaneMap, w' = { w with
        panes := panes, running := (ps.map (·.ID)).reverse ++ w.running
        nextPaneID := (ps.map (·.ID)).foldl (nextCounter "pane-") w.nextPaneID } ∧
          (Keyed w.panes → Keyed panes) ∧ ∀ id, id ∈ panes ↔ id ∈ ps.map (·.ID) ∨ id ∈ w.panes := by
  induction ps with
  | nil =>
    intro w w' h
    simp only [recoverPanes, Prod.mk.injEq, and_true] at h
    exact ⟨w.panes, h.symm, fun h => h, fun id => by simp⟩
  | cons recovered rest ih =>
    intro w w' h
    rw [recoverPanes] at h
    split at h
    · cases h
    · rename_i pane hp
      obtain ⟨hid, -⟩ := newTerminalPane_ok hp
      obtain ⟨panes, he, hkeyed, hk⟩ := ih h
      refine ⟨panes, ?_, fun h => hkeyed (h.insert rfl), fun id => ?_⟩
      · rw [he]
        simp [hid]
      · rw [hk, AList.mem_insert, hid, List.map_cons, List.mem_cons]
        exact ⟨fun h => by rcases h with h | h | h <;> simp [h], fun h => by rcases h with (h | h) | h <;> simp [h]⟩

theorem recoverTabs_shape {cols rows : Int} {spawn : String → SpawnResult} {tabs : List WorkspaceRecoveryTab} :
    ∀ {w w' : Workspace}, recoverTabs cols rows spawn tabs w = (w', none) →
      ∃ panes : PaneMap, w' = { w with
        tabs := w.tabs ++ tabs.map recoveredTab, panes := panes
        running := (recoveryPaneIDs tabs).reverse ++ w.running
        nextTabID := (recoveryTabIDs tabs).foldl (nextCounter "tab-") w.nextTabID
        nextPaneID := (recoveryPaneIDs tabs).foldl (nextCounter "pane-") w.nextPaneID } ∧
          (Keyed w.panes → Keyed panes) ∧ ∀ id, id ∈ panes ↔ id ∈ recoveryPaneIDs tabs ∨ id ∈ w.panes := by
  induction tabs with
  | nil =>
    intro w w' h
    simp only [recoverTabs, Prod.mk.injEq, and_true] at h
    exact ⟨w.panes, by rw [← h]; simp [recoveryPaneIDs, recoveryTabIDs], fun h => h, fun id => by simp [recoveryPaneIDs]⟩
  | cons recovered rest ih =>
    intro w w' h
    rw [recoverTabs] at h
    split at h
    · cases h
    · rename_i v hp
      obtain ⟨panes, rfl, hkeyed, hk⟩ := recoverPanes_shape hp
      obtain ⟨panes', he, hkeyed', hk'⟩ := ih h
      have hps : recoveryPaneIDs (recovered :: rest) = recovered.Panes.map (·.ID) ++ recoveryPaneIDs rest := rfl
      have hts : recoveryTabIDs (recovered :: rest) = recovered.ID :: recoveryTabIDs rest := rfl
      refine ⟨panes', ?_, fun h => hkeyed' (hkeyed h), fun id => ?_⟩
      · rw [he, hps, hts]
        simp
      · rw [hk', hk, hps, List.mem_append]
        exact ⟨fun h => by rcases h with h | h | h <;> simp [h], fun h => by rcases h with (h | h) | h <;> simp [h]⟩

/-- The rebuilt workspace before its active and recent tabs are set. -/
def recoveredBase (document : WorkspaceRecoveryDocument) (selector workspaceGeneration username : String)
    (panes : PaneMap) : Workspace where
  selector := selector
  workspaceGeneration := workspaceGeneration
  username := username
  tabs := document.Tabs.map recoveredTab
  activeTab := document.ActiveTabID
  recentTabs := []
  panes := panes
  nextTabID := (recoveryTabIDs document.Tabs).foldl (nextCounter "tab-") 1
  nextPaneID := (recoveryPaneIDs document.Tabs).foldl (nextCounter "pane-") 1
  running := (recoveryPaneIDs document.Tabs).reverse

theorem tabIDsOf_recovered (tabs : List WorkspaceRecoveryTab) : tabIDsOf (tabs.map recoveredTab) = recoveryTabIDs tabs := by
  simp [tabIDsOf, recoveryTabIDs, recoveredTab]

theorem paneIDsOf_recovered (tabs : List WorkspaceRecoveryTab) :
    paneIDsOf (tabs.map recoveredTab) = recoveryPaneIDs tabs := by
  simp [paneIDsOf, recoveryPaneIDs, List.flatMap_map, recoveredTab]

theorem createTab_error (w : Workspace) (sourceTabID sourcePaneID : String) (cols rows : Int) (err : String) :
    (w.createTabLocked sourceTabID sourcePaneID cols rows (.error err)).2 = some err := rfl

theorem createTab_ok (w : Workspace) (sourceTabID sourcePaneID : String) (cols rows : Int) (directory : String) :
    (w.createTabLocked sourceTabID sourcePaneID cols rows (.ok directory)).2 = none := rfl

/-- A fresh workspace for a document without tabs, else one with the document's tabs. -/
theorem recovered_cases {document : WorkspaceRecoveryDocument} {selector username : String} {cols rows : Int}
    {generation : Except String String} {spawn : String → SpawnResult} {w : Workspace}
    (h : newRecoveredTerminalWorkspace document selector username cols rows generation spawn = (some w, none)) :
    DocumentAccepted document ∧ ∃ workspaceGeneration, generation = .ok workspaceGeneration ∧
      ((document.Tabs = [] ∧ ∃ directory, spawn "pane-1" = .ok directory ∧
          w = fresh selector workspaceGeneration username cols rows directory) ∨
        (document.Tabs ≠ [] ∧ ∃ panes : PaneMap, Keyed panes ∧ (∀ id, id ∈ panes ↔ id ∈ recoveryPaneIDs document.Tabs) ∧
          w = (recoveredBase document selector workspaceGeneration username panes).setRecentTabsLocked
            document.RecentTabIDs)) := by
  unfold newRecoveredTerminalWorkspace at h
  split at h
  · cases h
  · rename_i hv
    refine ⟨validateDocument_iff.mp hv, ?_⟩
    split at h
    · cases h
    · rename_i workspaceGeneration
      refine ⟨workspaceGeneration, rfl, ?_⟩
      by_cases hnil : document.Tabs = []
      · refine Or.inl ⟨hnil, ?_⟩
        rw [hnil] at h
        simp only [recoverTabs] at h
        rw [if_pos (show (empty selector workspaceGeneration username).tabs = [] from rfl)] at h
        cases hs : spawn "pane-1" with
        | error err =>
          have herr := createTab_error (empty selector workspaceGeneration username) "" "" (NormalizeCols cols)
            (NormalizeRows rows) err
          rw [hs] at h
          generalize createTabLocked (empty selector workspaceGeneration username) "" "" (NormalizeCols cols)
            (NormalizeRows rows) (.error err) = r at h herr
          obtain ⟨v, e⟩ := r
          cases herr
          cases h
        | ok directory =>
          refine ⟨directory, rfl, ?_⟩
          have hok := createTab_ok (empty selector workspaceGeneration username) "" "" (NormalizeCols cols)
            (NormalizeRows rows) directory
          rw [hs] at h
          unfold fresh
          generalize createTabLocked (empty selector workspaceGeneration username) "" "" (NormalizeCols cols)
            (NormalizeRows rows) (.ok directory) = r at h hok
          obtain ⟨v, e⟩ := r
          cases hok
          simp only [Prod.mk.injEq, Option.some.injEq, and_true] at h
          exact h.symm
      · refine Or.inr ⟨hnil, ?_⟩
        split at h
        · cases h
        · rename_i v ht
          obtain ⟨panes, rfl, hkeyed, hk⟩ := recoverTabs_shape ht
          rw [if_neg (by simp [empty, hnil])] at h
          simp only [Prod.mk.injEq, Option.some.injEq, and_true] at h
          refine ⟨panes, hkeyed (fun id pane hl => by cases hl), fun id => ?_, ?_⟩
          · rw [hk]; simp [empty, AList.mem_keys]
          · rw [← h]
            simp [recoveredBase, empty]

end Workspace

end Webshell
