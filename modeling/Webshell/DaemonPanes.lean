import Webshell.DaemonIsolation
import Webshell.RecoveryBuild
import Webshell.WorkspaceRunning

/-!
# The panes of a daemon

Whose panes are running while requests overlap: those of the daemon's
workspace, unless a tab is created in a workspace that has been replaced.
-/

namespace Webshell

open GoText

namespace Workspace

/-! ## Workspaces that have been emptied -/

/-- What `closeAllPanes` leaves, and what no action but `create_tab` changes. -/
structure Emptied (w : Workspace) : Prop where
  tabs : w.tabs = []
  running : w.running = []

theorem Emptied.closeAllPanes {w : Workspace} (h : w.Running) : w.closeAllPanes.Emptied := ⟨rfl, closeAllPanes_running h⟩

theorem Emptied.findTabIndex {w : Workspace} (h : w.Emptied) (tabID : String) : w.findTabIndexLocked tabID = none := by
  unfold findTabIndexLocked
  rw [h.tabs]
  rfl

theorem Emptied.findTab {w : Workspace} (h : w.Emptied) (tabID : String) : w.findTabLocked tabID = none := by
  unfold findTabLocked
  rw [h.findTabIndex]
  rfl

/-- Every other action looks for a tab first. -/
theorem Emptied.applyAction {w : Workspace} (h : w.Emptied) (request : WorkspaceActionRequest) (spawn : SpawnResult)
    (ha : request.Action ≠ .createTab) : (w.applyAction request spawn).1 = w := by
  unfold Workspace.applyAction
  simp only
  split
  · rename_i hc
    exact absurd hc ha
  · simp only [renameTabLocked, h.findTabIndex]
  · simp only [closeTabLocked, h.findTabIndex]
  · simp only [closeOtherTabsLocked, h.findTab, if_true]
  · simp only [splitPaneLocked, h.findTabIndex]
  · simp only [closePaneLocked, h.findTabIndex]
  · simp only [restartExitedPaneLocked, h.findTabIndex]
  · simp only [movePaneToTabLocked, h.findTabIndex]
  · simp only [moveTabLocked, h.findTabIndex]
  · simp only [reorderTabLocked, h.findTabIndex]
  · simp only [activateTabLocked, h.findTab]
  · simp only [activatePaneLocked, h.findTabIndex]
  · simp only [updateLayoutLocked, h.findTabIndex]
  · rfl

theorem Emptied.modifyPane {w : Workspace} (h : w.Emptied) (paneID : String) (f : WorkspacePane → WorkspacePane) :
    (w.modifyPane paneID f).Emptied := by
  obtain ⟨panes, he, -⟩ := modifyPane_frame w paneID f
  rw [he]
  exact ⟨h.tabs, h.running⟩

theorem Emptied.relabel {w : Workspace} (h : w.Emptied) : w.refreshAutoTabLabelsLocked.Emptied :=
  ⟨by simp [refreshAutoTabLabelsLocked, h.tabs], h.running⟩

theorem Emptied.refreshActivity {w : Workspace} (h : w.Emptied) (reports : List (String × String × String)) :
    (w.refreshActivity reports).Emptied := by
  apply Emptied.relabel
  induction reports generalizing w with
  | nil => exact h
  | cons report reports ih => exact ih (h.modifyPane ..)

theorem Emptied.markExited {w : Workspace} (h : w.Emptied) (paneID : String) : (w.markExited paneID).Emptied := by
  refine ⟨(h.modifyPane paneID _).tabs, ?_⟩
  simp [Workspace.markExited, h.running]

theorem Emptied.retain {w : Workspace} (h : w.Emptied) (paneID : String) (exitCode : Int) :
    (w.retainFailedFinalPane paneID exitCode).1.Emptied := by
  unfold retainFailedFinalPane
  rw [h.tabs]
  exact h

theorem Emptied.removePaneAfterExit {w : Workspace} (h : w.Emptied) (paneID : String) :
    (w.removePaneAfterExit paneID).Emptied := by
  unfold Workspace.removePaneAfterExit
  rw [h.tabs]
  exact h

/-! ## New workspaces -/

theorem Running.empty {selector workspaceGeneration username : String} :
    (Workspace.empty selector workspaceGeneration username).Running := RunningInv.none

theorem insertTab_tabs (w : Workspace) (tab : TerminalTab) (sourceTabID : String) :
    (w.insertTabAfterSourceLocked tab sourceTabID).tabs ≠ [] := by
  obtain ⟨tabs, he, hp⟩ := insertTab_perm w tab sourceTabID
  rw [he]
  intro hnil
  rw [show tabs = [] from hnil] at hp
  exact List.not_mem_nil (hp.mem_iff.mpr (List.mem_cons_self ..))

theorem createTab_tabs {w : Workspace} {sourceTabID sourcePaneID : String} {cols rows : Int} {spawn : SpawnResult}
    (h : (w.createTabLocked sourceTabID sourcePaneID cols rows spawn).2 = none) :
    (w.createTabLocked sourceTabID sourcePaneID cols rows spawn).1.tabs ≠ [] := by
  unfold createTabLocked at h ⊢
  simp only at h ⊢
  cases hn : w.newPaneLocked cols rows (w.resolveSourcePaneCWDLocked sourceTabID sourcePaneID) spawn with
  | mk v result =>
    rw [hn] at h
    cases result with
    | error err => cases h
    | ok paneID =>
      simp only [setActiveTab_tabs]
      exact insertTab_tabs _ _ _

/-- The panes of a document are started one by one, under ids that are all different. -/
theorem recoverPanes_running (cols rows : Int) (spawn : String → SpawnResult) {ps : List WorkspaceRecoveryPane} :
    ∀ {w : Workspace}, w.Running → (ps.map (·.ID)).Nodup → (∀ id ∈ ps.map (·.ID), id ∉ w.running) →
      (recoverPanes cols rows spawn ps w).1.Running ∧
        ∀ id ∈ (recoverPanes cols rows spawn ps w).1.running, id ∈ w.running ∨ id ∈ ps.map (·.ID) := by
  induction ps with
  | nil => exact fun h _ _ => ⟨h, fun id hm => .inl hm⟩
  | cons recovered rest ih =>
    intro w h hn hnew
    rw [List.map_cons, List.nodup_cons] at hn
    rw [recoverPanes]
    cases hp : newTerminalPane recovered.ID (NormalizeCols cols) (NormalizeRows rows) recovered.CWD (spawn recovered.ID) with
    | error err => exact ⟨h, fun id hm => .inl hm⟩
    | ok pane =>
      obtain ⟨hid, hx⟩ := newTerminalPane_ok hp
      have hstart : Running { w with
          panes := w.panes.insert pane.id pane, running := pane.id :: w.running
          nextPaneID := nextCounter "pane-" w.nextPaneID pane.id } :=
        RunningInv.start h (by rw [hid]; exact hnew _ (List.mem_cons_self ..)) hx
      have hrest := ih hstart hn.2 ?_
      · refine ⟨hrest.1, fun id hm => ?_⟩
        rcases hrest.2 id hm with hm | hm
        · rcases List.mem_cons.mp hm with rfl | hm
          · exact .inr (by rw [List.map_cons, hid]; exact List.mem_cons_self ..)
          · exact .inl hm
        · exact .inr (List.mem_cons_of_mem _ hm)
      · intro id hm hrun
        rcases List.mem_cons.mp hrun with rfl | hrun
        · exact hn.1 (hid ▸ hm)
        · exact hnew id (List.mem_cons_of_mem _ hm) hrun

theorem recoverTabs_running (cols rows : Int) (spawn : String → SpawnResult) {tabs : List WorkspaceRecoveryTab} :
    ∀ {w : Workspace}, w.Running → (recoveryPaneIDs tabs).Nodup → (∀ id ∈ recoveryPaneIDs tabs, id ∉ w.running) →
      (recoverTabs cols rows spawn tabs w).1.Running := by
  induction tabs with
  | nil => exact fun h _ _ => h
  | cons recovered rest ih =>
    intro w h hn hnew
    have hids : recoveryPaneIDs (recovered :: rest) = recovered.Panes.map (·.ID) ++ recoveryPaneIDs rest := rfl
    rw [hids, List.nodup_append] at hn
    rw [hids] at hnew
    rw [recoverTabs]
    have hpanes := recoverPanes_running cols rows spawn h hn.1 fun id hm => hnew id (List.mem_append_left _ hm)
    cases hp : recoverPanes cols rows spawn recovered.Panes w with
    | mk v err =>
      rw [hp] at hpanes
      cases err with
      | some err => exact hpanes.1
      | none =>
        have hv : Running { v with
            tabs := v.tabs ++ [recoveredTab recovered], nextTabID := nextCounter "tab-" v.nextTabID recovered.ID } :=
          hpanes.1
        apply ih hv hn.2.1
        intro id hm hrun
        rcases hpanes.2 id hrun with hrun | hrun
        · exact hnew id (List.mem_append_right _ hm) hrun
        · exact hn.2.2 id hrun id hm rfl

/-- A workspace that was recovered has its panes; one that was not has been closed. -/
theorem recovered_running {document : WorkspaceRecoveryDocument} {selector username : String} {cols rows : Int}
    {generation : Except String String} {spawn : String → SpawnResult} {w : Workspace} {err : Option String}
    (h : newRecoveredTerminalWorkspace document selector username cols rows generation spawn = (some w, err)) :
    w.Running ∧ (err ≠ none → w.running = []) := by
  unfold newRecoveredTerminalWorkspace at h
  split at h
  · cases h
  · rename_i hv
    have hids := (validateDocument_iff.mp hv).tabs.paneIDs
    split at h
    · cases h
    · rename_i workspaceGeneration
      have ht := recoverTabs_running cols rows spawn (w := empty selector workspaceGeneration
        username) Running.empty hids (fun _ _ => List.not_mem_nil)
      split at h
      · rename_i v e he
        rw [he] at ht
        cases h
        exact ⟨closedPanes_running ht, fun _ => closeAllPanes_running ht⟩
      · rename_i v he
        rw [he] at ht
        obtain ⟨panes, hshape, -⟩ := recoverTabs_shape he
        split at h
        · rename_i hnil
          have hnone : v.running = [] := by
            rw [hshape] at hnil ⊢
            simp only [empty, List.nil_append, List.map_eq_nil_iff] at hnil
            simp [hnil, empty, recoveryPaneIDs]
          have htab := createTab_running ht "" "" (NormalizeCols cols) (NormalizeRows rows) (spawn "pane-1")
            (by rw [hnone]; exact List.not_mem_nil)
          split at h
          · rename_i u e hu
            rw [hu] at htab
            cases h
            exact ⟨closedPanes_running htab, fun _ => closeAllPanes_running htab⟩
          · rename_i u hu
            rw [hu] at htab
            cases h
            exact ⟨htab, fun hn => absurd rfl hn⟩
        · cases h
          exact ⟨ht, fun hn => absurd rfl hn⟩

end Workspace

/-! ## The work of a request -/

namespace AgentWorkspace

variable {w : AgentWorkspace} {platform : AgentPlatform}

theorem answerState_running (h : w.Running) : w.answerState.1.Running := Workspace.snapshot_running h

theorem answerState_emptied (h : w.Emptied) : w.answerState.1.Emptied := ⟨h.relabel.tabs, h.relabel.running⟩

theorem refreshActivity_running (h : w.Running) (platform : AgentPlatform) : (w.refreshActivity platform).1.Running := by
  unfold AgentWorkspace.refreshActivity
  cases platform.activities with
  | error err => exact h
  | ok reports => exact Workspace.refreshActivity_running h reports

theorem refreshActivity_emptied (h : w.Emptied) (platform : AgentPlatform) : (w.refreshActivity platform).1.Emptied := by
  unfold AgentWorkspace.refreshActivity
  cases platform.activities with
  | error err => exact h
  | ok reports => exact h.refreshActivity reports

/-- The scan changes no id and starts no pane. -/
theorem refreshActivity_fresh {request : WorkspaceActionRequest} (h : w.FreshPane request) (platform : AgentPlatform) :
    (w.refreshActivity platform).1.FreshPane request := by
  have hfold : ∀ (reports : List (String × String × String)) (v : Workspace), v.FreshPane request →
      (reports.foldl Workspace.reportActivity v).FreshPane request := by
    intro reports
    induction reports with
    | nil => exact fun _ h => h
    | cons report reports ih =>
      intro v hv
      apply ih
      obtain ⟨panes, he, -⟩ := Workspace.modifyPane_frame v report.1 fun pane => {
        pane with cwd := if report.2.1 = "" then pane.cwd else report.2.1, command := report.2.2 }
      unfold Workspace.reportActivity
      rw [he]
      exact hv
  unfold AgentWorkspace.refreshActivity
  cases platform.activities with
  | error err => exact h
  | ok reports => exact hfold reports w.toWorkspace h

theorem applyAction_running (h : w.Running) (request : WorkspaceActionRequest) (platform : AgentPlatform)
    (hfresh : Workspace.StartsPane request → w.FreshPane request) : (w.applyAction request platform).1.Running := by
  unfold AgentWorkspace.applyAction
  simp only
  have hscan : (if request.Action = .createTab ∨ request.Action = .splitPane then (w.refreshActivity platform).1
      else w).Running ∧ (Workspace.StartsPane request → (if request.Action = .createTab ∨ request.Action = .splitPane then
        (w.refreshActivity platform).1 else w).FreshPane request) := by
    split
    · exact ⟨refreshActivity_running h platform, fun hs => refreshActivity_fresh (hfresh hs) platform⟩
    · exact ⟨h, hfresh⟩
  generalize (if request.Action = .createTab ∨ request.Action = .splitPane then (w.refreshActivity platform).1
    else w) = v at hscan ⊢
  have hv := Workspace.applyAction_running hscan.1 request (platform.spawn v.freshPaneID) hscan.2
  split
  · rename_i u err he
    rw [he] at hv
    exact hv
  · rename_i u he
    rw [he] at hv
    exact answerState_running hv

theorem applyAction_emptied (h : w.Emptied) (request : WorkspaceActionRequest) (platform : AgentPlatform)
    (ha : request.Action ≠ .createTab) : (w.applyAction request platform).1.Emptied := by
  unfold AgentWorkspace.applyAction
  simp only
  have hscan : (if request.Action = .createTab ∨ request.Action = .splitPane then (w.refreshActivity platform).1
      else w).Emptied := by
    split
    · exact refreshActivity_emptied h platform
    · exact h
  generalize (if request.Action = .createTab ∨ request.Action = .splitPane then (w.refreshActivity platform).1
    else w) = v at hscan ⊢
  have hv := hscan.applyAction request (platform.spawn v.freshPaneID) ha
  split
  · rename_i u err he
    rw [he] at hv
    cases hv
    exact ⟨hscan.tabs, hscan.running⟩
  · rename_i u he
    rw [he] at hv
    cases hv
    exact answerState_emptied ⟨hscan.tabs, hscan.running⟩

/-- What an action that starts a pane asks of the workspace. -/
def Allows (w : AgentWorkspace) : RequestWork → Prop
  | .action request => Workspace.StartsPane request → w.FreshPane request
  | .state | .inspect | .activity | .attach _ _ => True

theorem work_running (h : w.Running) (platform : AgentPlatform) {work : RequestWork} (ha : w.Allows work) :
    (w.work platform work).1.Running := by
  cases work with
  | state => exact answerState_running h
  | inspect => exact answerState_running (refreshActivity_running h platform)
  | action request => exact applyAction_running h request platform ha
  | activity => exact refreshActivity_running h platform
  | attach paneID workspaceGeneration => exact h

theorem work_emptied (h : w.Emptied) (platform : AgentPlatform) {work : RequestWork}
    (ha : ∀ request, work = .action request → request.Action ≠ .createTab) : (w.work platform work).1.Emptied := by
  cases work with
  | state => exact answerState_emptied h
  | inspect => exact answerState_emptied (refreshActivity_emptied h platform)
  | action request => exact applyAction_emptied h request platform (ha request rfl)
  | activity => exact refreshActivity_emptied h platform
  | attach paneID workspaceGeneration => exact h

/-! ## Workspaces that a request makes or finds -/

theorem createFirstTab_running (h : w.Running) (hfresh : w.freshPaneID ∉ w.running) (request : AgentRequest)
    (platform : AgentPlatform) : (w.createFirstTab request platform).1.Running :=
  Workspace.createTab_running h "" "" (NormalizeCols request.Cols) (NormalizeRows request.Rows)
    (platform.spawn w.freshPaneID) hfresh

theorem createFirstTab_tabs (request : AgentRequest) (platform : AgentPlatform) (h : (w.createFirstTab request platform).2 = none) :
    (w.createFirstTab request platform).1.tabs ≠ [] := Workspace.createTab_tabs h

theorem ensure_running (h : w.Running) (hfresh : w.tabs = [] → w.freshPaneID ∉ w.running) (selector username : String)
    (request : AgentRequest) (platform : AgentPlatform) : (w.ensure selector username request platform).1.Running := by
  unfold ensure
  simp only
  cases hg : if w.workspaceGeneration = "" then platform.NewHistoryGeneration else .ok w.workspaceGeneration with
  | error err => exact h
  | ok workspaceGeneration =>
    simp only [setHistoryLimitBytes]
    by_cases hnil : w.tabs = []
    · simp only [hnil, if_true]
      apply createFirstTab_running
      · exact h
      · exact hfresh hnil
    · simp only [hnil, if_false]
      exact h

end AgentWorkspace

/-! ## The daemon -/

/-- The daemon's workspace has its panes in its map; every other one is empty. -/
structure AgentDaemon.OwnsPanes (d : AgentDaemon) : Prop where
  current : ∀ p, d.workspace = some p → p < d.made ∧ (d.workspaces p).Running
  others : ∀ p, d.workspace ≠ some p → (d.workspaces p).Emptied

namespace AgentDaemon

variable {d d' : AgentDaemon} {request : AgentRequest} {platform : AgentPlatform}

/-- Only what the daemon is bound to is changed. -/
def SameWorkspaces (d d' : AgentDaemon) : Prop :=
  d'.workspaces = d.workspaces ∧ d'.made = d.made ∧ d'.workspace = d.workspace

theorem OwnsPanes.same (h : d.OwnsPanes) (hs : SameWorkspaces d d') : d'.OwnsPanes := by
  obtain ⟨hworkspaces, hmade, hworkspace⟩ := hs
  constructor
  · intro p hp
    rw [hworkspaces, hmade]
    exact h.current p (hworkspace ▸ hp)
  · intro p hp
    rw [hworkspaces]
    exact h.others p (hworkspace ▸ hp)

theorem validate_same (d : AgentDaemon) (request : AgentRequest) : SameWorkspaces d (d.validate request).1 := by
  unfold validate
  rcases validateSelector_cases d request.Selector with ⟨-, _, hs, -⟩ | ⟨-, hs⟩ | ⟨-, hs⟩
  · rw [hs]
    exact ⟨rfl, rfl, rfl⟩
  · rw [hs]
    rcases validateAccount_cases d request with ⟨-, _, ha, -⟩ | ⟨-, ha⟩ <;> simp only [ha] <;> exact ⟨rfl, rfl, rfl⟩
  · rw [hs]
    rcases validateAccount_cases { d with selector := trimSpace request.Selector } request with ⟨-, _, ha, -⟩ | ⟨-, ha⟩ <;>
      simp only [ha] <;> exact ⟨rfl, rfl, rfl⟩

/-- A workspace is worked on. -/
theorem OwnsPanes.setWorkspace (h : d.OwnsPanes) (p : Nat) {w : AgentWorkspace}
    (hc : d.workspace = some p → w.Running) (ho : d.workspace ≠ some p → w.Emptied) : (d.setWorkspace p w).OwnsPanes := by
  constructor
  · intro q hq
    refine ⟨(h.current q hq).1, ?_⟩
    by_cases he : q = p
    · subst he
      simp only [AgentDaemon.setWorkspace, Function.update_self]
      exact hc hq
    · simp only [AgentDaemon.setWorkspace, Function.update_of_ne he]
      exact (h.current q hq).2
  · intro q hq
    by_cases he : q = p
    · subst he
      simp only [AgentDaemon.setWorkspace, Function.update_self]
      exact ho hq
    · simp only [AgentDaemon.setWorkspace, Function.update_of_ne he]
      exact h.others q hq

/-- A new workspace takes the place of one that is empty, if there was one. -/
theorem OwnsPanes.adopt (h : d.OwnsPanes) (he : ∀ p, d.workspace = some p → (d.workspaces p).Emptied) {w : AgentWorkspace}
    (hw : w.Running) : (d.adopt w).OwnsPanes := by
  have hall : ∀ p, (d.workspaces p).Emptied := by
    intro p
    by_cases hp : d.workspace = some p
    · exact he p hp
    · exact h.others p hp
  constructor
  · rintro _ ⟨⟩
    refine ⟨Nat.lt_succ_self _, ?_⟩
    simp only [AgentDaemon.adopt, AgentDaemon.setWorkspace, Function.update_self]
    exact hw
  · intro q hq
    have hne : q ≠ d.made := by
      rintro rfl
      exact hq rfl
    simp only [AgentDaemon.adopt, AgentDaemon.setWorkspace, Function.update_of_ne hne]
    exact hall q

/-- A first tab gets an id that no running pane has. -/
def FreshFirst (d : AgentDaemon) : Prop :=
  ∀ p, d.workspace = some p → (d.workspaces p).tabs = [] → (d.workspaces p).freshPaneID ∉ (d.workspaces p).running

theorem FreshFirst.same (h : d.FreshFirst) (hs : SameWorkspaces d d') : d'.FreshFirst := by
  intro p hp
  rw [hs.1]
  exact h p (hs.2.2 ▸ hp)

theorem createWorkspace_owns (h : d.OwnsPanes) (hn : d.workspace = none) (request : AgentRequest)
    (platform : AgentPlatform) : (d.createWorkspace request platform).1.OwnsPanes ∧
      ((d.createWorkspace request platform).2 = none → (d.createWorkspace request platform).1.FreshFirst) := by
  unfold createWorkspace
  cases platform.NewHistoryGeneration with
  | error err => exact ⟨h, nofun⟩
  | ok workspaceGeneration =>
    simp only
    generalize hw : ({ Workspace.empty d.selector workspaceGeneration d.username with
      historyLimitBytes := historyLimitBytesForTerminalScrollback request.TerminalScrollback } : AgentWorkspace) = w
    have hempty : w.Running := by
      rw [← hw]
      exact Workspace.Running.empty
    have hfresh : w.freshPaneID ∉ w.running := by
      rw [← hw]
      exact List.not_mem_nil
    have hrunning := AgentWorkspace.createFirstTab_running hempty hfresh request platform
    have htabs := AgentWorkspace.createFirstTab_tabs (w := w) request platform
    cases hc : w.createFirstTab request platform with
    | mk v err =>
      rw [hc] at hrunning htabs
      cases err with
      | some err => exact ⟨h, nofun⟩
      | none =>
        refine ⟨h.adopt (fun p hp => by rw [hn] at hp; cases hp) hrunning, fun _ => ?_⟩
        rintro _ ⟨⟩ hnil
        simp only [AgentDaemon.adopt, AgentDaemon.setWorkspace, Function.update_self] at hnil
        exact absurd hnil (htabs rfl)

theorem prepareWorkspace_owns (h : d.OwnsPanes) (hfresh : d.FreshFirst) (request : AgentRequest)
    (platform : AgentPlatform) : (d.prepareWorkspace request platform).1.OwnsPanes := by
  unfold prepareWorkspace
  cases hp : d.workspace with
  | none => exact h
  | some p =>
    have hrunning := AgentWorkspace.ensure_running (h.current p hp).2 (hfresh p hp) d.selector d.username request platform
    simp only
    cases he : (d.workspaces p).ensure d.selector d.username request platform with
    | mk w err =>
      rw [he] at hrunning
      cases err with
      | some err => exact h.setWorkspace p (fun _ => hrunning) fun hne => absurd hp hne
      | none => exact h.setWorkspace p (fun _ => hrunning) fun hne => absurd hp hne

theorem ensureWorkspace_owns (h : d.OwnsPanes) (hfresh : d.FreshFirst) (request : AgentRequest)
    (platform : AgentPlatform) : (d.ensureWorkspaceLocked request platform).1.OwnsPanes := by
  unfold ensureWorkspaceLocked
  by_cases hc : d.closed
  · rw [if_pos hc]
    exact h
  rw [if_neg hc]
  have hsame := validate_same d request
  cases hv : d.validate request with
  | mk v refusal =>
    rw [hv] at hsame
    cases refusal with
    | some reason => exact h.same hsame
    | none =>
      simp only
      have hremembered : SameWorkspaces d (v.rememberUsername request.Username) := hsame
      generalize v.rememberUsername request.Username = u at hremembered
      have hu := h.same hremembered
      by_cases hn : u.workspace = none
      · simp only [hn, if_true]
        obtain ⟨howns, hfirst⟩ := createWorkspace_owns hu hn request platform
        cases hcreate : u.createWorkspace request platform with
        | mk t err =>
          rw [hcreate] at howns hfirst
          cases err with
          | some err => exact howns
          | none => exact prepareWorkspace_owns howns (hfirst rfl) request platform
      · simp only [hn, if_false]
        exact prepareWorkspace_owns hu (hfresh.same hremembered) request platform

theorem restoreWorkspace_owns (h : d.OwnsPanes) (request : AgentRequest) (recovery : Option WorkspaceRecoveryDocument)
    (platform : AgentPlatform) : (d.restoreWorkspace request recovery platform).1.OwnsPanes := by
  unfold restoreWorkspace
  cases recovery with
  | none => exact h
  | some document =>
    simp only
    by_cases hc : d.closed
    · rw [if_pos hc]
      exact h
    rw [if_neg hc]
    have hsame := validate_same d request
    cases hv : d.validate request with
    | mk v refusal =>
      rw [hv] at hsame
      cases refusal with
      | some reason => exact h.same hsame
      | none =>
        simp only
        have hremembered : SameWorkspaces d (v.rememberUsername request.Username) := hsame
        generalize v.rememberUsername request.Username = u at hremembered
        have hu := h.same hremembered
        split
        · exact hu
        · exact hu
        · rename_i w hr
          have hw : w.wrapCounters.Running := (Workspace.recovered_running hr).1
          cases hp : u.workspace with
          | none => exact hu.adopt (fun p hq => by rw [hp] at hq; cases hq) (AgentWorkspace.answerState_running hw)
          | some p =>
            have hclosed := hu.setWorkspace p
              (w := { u.workspaces p with toWorkspace := (u.workspaces p).closeAllPanes })
              (fun _ => Workspace.closedPanes_running (hu.current p hp).2) fun hne => absurd hp hne
            refine hclosed.adopt (fun q hq => ?_) (AgentWorkspace.answerState_running hw)
            rw [show u.workspace = some q from hq] at hp
            cases hp
            simp only [AgentDaemon.setWorkspace, Function.update_self]
            exact Workspace.Emptied.closeAllPanes (hu.current p hq).2

theorem begin_owns (h : d.OwnsPanes) (hfresh : d.FreshFirst) (request : AgentRequest) (platform : AgentPlatform) :
    (d.begin request platform).1.OwnsPanes := by
  have hensure : ∀ work, (d.ensureFor request platform work).1.OwnsPanes := by
    intro work
    have he := ensureWorkspace_owns h hfresh request platform
    unfold ensureFor withWork
    split
    · rename_i hr
      rw [hr] at he
      exact he
    · rename_i hr
      rw [hr] at he
      exact he
  have hsame := h.same (validate_same d request)
  unfold begin
  split
  · unfold beginPing
    split
    · rename_i hv
      rw [hv] at hsame
      exact hsame
    · rename_i hv
      rw [hv] at hsame
      exact hsame
  · exact hensure _
  · unfold inspectWorkspace
    split
    · exact h
    · split
      · rename_i hv
        rw [hv] at hsame
        exact hsame
      · rename_i hv
        rw [hv] at hsame
        split <;> exact hsame
  · unfold beginAction
    split
    · exact h
    · exact restoreWorkspace_owns h request _ platform
    · exact hensure _
  · exact hensure _
  · exact hensure _
  · exact h

end AgentDaemon

/-! ## Interleaved requests -/

namespace AgentState

/-- Every running pane is once in the map of the daemon's workspace. -/
def Owned (s : AgentState) : Prop :=
  ∀ p, (s.daemon.workspaces p).running.Nodup ∧ ∀ id ∈ (s.daemon.workspaces p).running,
    s.daemon.workspace = some p ∧ ∃ pane, (s.daemon.workspaces p).panes.lookup id = some pane

/-- A tab is created in the daemon's own workspace, and a pane is started under an id that no running pane of it
has. -/
def KeepsPanes (s : AgentState) : AgentEvent → Prop
  | .request _ _ => s.daemon.FreshFirst
  | .work index _ => ∀ p request, s.pending[index]? = some (p, .action request) →
    (request.Action = .createTab → s.daemon.workspace = some p) ∧
      (s.daemon.workspace = some p → Workspace.StartsPane request → (s.daemon.workspaces p).FreshPane request)
  | .pane _ _ | .close => True

theorem applyPaneEvent_running {w : AgentWorkspace} (h : w.Running) (e : WorkspaceEvent) : (applyPaneEvent w e).Running := by
  cases e with
  | exited paneID => exact Workspace.markExited_running h paneID
  | retain paneID exitCode => exact Workspace.retain_running h paneID exitCode
  | removePaneAfterExit paneID => exact Workspace.removePaneAfterExit_running h paneID
  | action request spawn => exact h
  | activity reports => exact h
  | snapshot => exact h

theorem applyPaneEvent_emptied {w : AgentWorkspace} (h : w.Emptied) (e : WorkspaceEvent) : (applyPaneEvent w e).Emptied := by
  cases e with
  | exited paneID => exact h.markExited paneID
  | retain paneID exitCode => exact h.retain paneID exitCode
  | removePaneAfterExit paneID => exact h.removePaneAfterExit paneID
  | action request spawn => exact h
  | activity reports => exact h
  | snapshot => exact h

theorem answer_owns {s : AgentState} (h : s.daemon.OwnsPanes) {e : AgentEvent} (hk : s.KeepsPanes e) :
    (s.answer e).1.daemon.OwnsPanes := by
  cases e with
  | request request platform =>
    have hb := AgentDaemon.begin_owns h hk request platform
    simp only [answer]
    split
    · rename_i hr
      rw [hr] at hb
      exact hb
    · rename_i hr
      rw [hr] at hb
      exact hb
  | work index platform =>
    simp only [answer]
    cases hi : s.pending[index]? with
    | none => exact h
    | some entry =>
      obtain ⟨p, work⟩ := entry
      apply h.setWorkspace p
      · intro hp
        refine AgentWorkspace.work_running (h.current p hp).2 platform ?_
        cases work with
        | action request => exact (hk p request hi).2 hp
        | state => trivial
        | inspect => trivial
        | activity => trivial
        | attach _ _ => trivial
      · intro hp
        refine AgentWorkspace.work_emptied (h.others p hp) platform fun request hw ha => hp ?_
        subst hw
        exact (hk p request hi).1 ha
  | pane p event =>
    exact h.setWorkspace p (fun hp => applyPaneEvent_running (h.current p hp).2 event)
      fun hp => applyPaneEvent_emptied (h.others p hp) event
  | close =>
    simp only [answer]
    have hclosed : AgentDaemon.OwnsPanes { s.daemon with closed := true } := h.same ⟨rfl, rfl, rfl⟩
    split
    · exact hclosed
    · rename_i p hp
      apply hclosed.setWorkspace p
      · exact fun hq => Workspace.closedPanes_running (h.current p hq).2
      · exact fun hne => absurd hp hne

end AgentState

theorem AgentDaemon.OwnsPanes.owned {s : AgentState} (h : s.daemon.OwnsPanes) : s.Owned := by
  intro p
  by_cases hp : s.daemon.workspace = some p
  · have hr := (h.current p hp).2
    refine ⟨hr.nodup, fun id hm => ⟨hp, ?_⟩⟩
    obtain ⟨pane, hl, -⟩ := hr.live id hm
    exact ⟨pane, hl⟩
  · rw [(h.others p hp).running]
    exact ⟨List.nodup_nil, fun id hm => absurd hm List.not_mem_nil⟩

theorem start_owns (selector accountID username : String) : (AgentDaemon.start selector accountID username).OwnsPanes :=
  ⟨nofun, fun _ _ => ⟨rfl, rfl⟩⟩

/-- The panes of a workspace that could not be restored are closed, and every other running pane is one of the
daemon's workspace. -/
theorem daemon_owns_panes (selector accountID username : String) {es : List AgentEvent} {s : AgentState}
    (h : agentMachine.run ⟨AgentDaemon.start selector accountID username, []⟩ es = some s)
    (hk : agentMachine.Along AgentState.KeepsPanes ⟨AgentDaemon.start selector accountID username, []⟩ es) :
    s.Owned ∧ ∀ document name user cols rows generation spawn w err,
      Workspace.newRecoveredTerminalWorkspace document name user cols rows generation spawn = (some w, some err) →
        w.running = [] := by
  refine ⟨AgentDaemon.OwnsPanes.owned ?_, fun _ _ _ _ _ _ _ _ _ hr => (Workspace.recovered_running hr).2 nofun⟩
  refine agentMachine.run_inv_along (I := fun s => s.daemon.OwnsPanes) ?_ h hk (start_owns ..)
  intro s e s' hs hkeeps hstep
  obtain rfl := Option.some.inj hstep
  exact AgentState.answer_owns hs hkeeps

/-! ## A tab that is created behind a restore -/

def readyPlatform : AgentPlatform where
  random := .ok ⟨List.replicate 16 0, rfl⟩
  spawn := fun _ => .ok "/"
  activities := .ok []

/-- A document without tabs. -/
def blankDocument : WorkspaceRecoveryDocument where
  Version := workspaceRecoveryVersion
  Epoch := "e"
  WorkspaceGeneration := "g"
  ActiveTabID := ""
  RecentTabIDs := []
  Tabs := []

def actionOf (action : AgentAction) : AgentEvent := .request { RequestType := .action, Action := some action } readyPlatform

/-- The workspace is replaced while a request is still to create a tab in it. -/
def createBehindRestore : List AgentEvent :=
  [.request { RequestType := .state } readyPlatform, .work 0 readyPlatform, actionOf (.apply { Action := .createTab }),
    actionOf (.restoreWorkspace (some blankDocument)), .work 0 readyPlatform]

theorem pane_left_behind : ∃ s, agentMachine.run ⟨AgentDaemon.start "" "" "", []⟩ createBehindRestore = some s ∧
    s.pending.length = 0 ∧ (s.daemon.workspaces 0).running = ["pane-2"] ∧ s.daemon.workspace = some 1 ∧ ¬s.Owned := by
  have hrun : (agentMachine.run ⟨AgentDaemon.start "" "" "", []⟩ createBehindRestore).map (fun s =>
      (s.pending.length, (s.daemon.workspaces 0).running, s.daemon.workspace)) = some (0, ["pane-2"], some 1) := by
    decide +kernel
  obtain ⟨s, hs, hv⟩ := Option.map_eq_some_iff.mp hrun
  simp only [Prod.mk.injEq] at hv
  obtain ⟨hpending, hrunning, hworkspace⟩ := hv
  refine ⟨s, hs, hpending, hrunning, hworkspace, fun ho => ?_⟩
  obtain ⟨hother, -⟩ := (ho 0).2 "pane-2" (by rw [hrunning]; exact List.mem_cons_self ..)
  rw [hworkspace] at hother
  cases hother

theorem panes_owned_started : ∃ s, agentMachine.run ⟨AgentDaemon.start "" "" "", []⟩
    [.request { RequestType := .state } readyPlatform] = some s ∧ (s.daemon.workspaces 0).running = ["pane-1"] ∧ s.Owned := by
  have hrun : (agentMachine.run ⟨AgentDaemon.start "" "" "", []⟩ [.request { RequestType := .state } readyPlatform]).map
      (fun s => (s.daemon.workspaces 0).running) = some ["pane-1"] := by
    decide +kernel
  obtain ⟨s, hs, hv⟩ := Option.map_eq_some_iff.mp hrun
  exact ⟨s, hs, hv, (daemon_owns_panes "" "" "" hs ⟨nofun, fun _ _ => trivial⟩).1⟩

end Webshell
