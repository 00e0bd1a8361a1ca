import Webshell.DaemonIsolation
import Webshell.RecoveryBuild
import Webshell.WorkspaceIds

/-!
# What a served request leaves

A workspace keeps its selector and its generation, so a daemon that has accepted
a request accepts the next one of the same selector and account.
-/

namespace Webshell

open GoText

namespace Workspace

/-! ## The selector of a workspace -/

@[simp] theorem setActiveTab_selector (w : Workspace) (tabID : String) :
    (w.setActiveTabLocked tabID).selector = w.selector := by
  obtain ⟨_, _, h⟩ := setActiveTab_frame w tabID
  rw [h]

@[simp] theorem setRecentTabs_selector (w : Workspace) (tabIDs : List String) :
    (w.setRecentTabsLocked tabIDs).selector = w.selector := rfl

@[simp] theorem pruneRecentTabs_selector (w : Workspace) : w.pruneRecentTabsLocked.selector = w.selector := rfl

@[simp] theorem dropPane_selector (w : Workspace) (paneID : String) : (w.dropPane paneID).selector = w.selector := by
  obtain ⟨_, _, h⟩ := dropPane_frame w paneID
  rw [h]

@[simp] theorem dropPanes_selector (w : Workspace) (paneIDs : List String) :
    (w.dropPanes paneIDs).selector = w.selector := by
  obtain ⟨_, _, h⟩ := dropPanes_frame paneIDs w
  rw [h]

@[simp] theorem insertTab_selector (w : Workspace) (tab : TerminalTab) (sourceTabID : String) :
    (w.insertTabAfterSourceLocked tab sourceTabID).selector = w.selector := by
  obtain ⟨_, h, -⟩ := insertTab_perm w tab sourceTabID
  rw [h]

theorem newPane_selector {w v : Workspace} {cols rows : Int} {cwd : String} {spawn : SpawnResult}
    {result : Except String String} (h : w.newPaneLocked cols rows cwd spawn = (v, result)) :
    v.selector = w.selector := by
  rcases newPane_cases w cols rows cwd spawn with ⟨_, he⟩ | ⟨_, -, -, he⟩
  · rw [he] at h
    cases h; rfl
  · rw [he] at h
    cases h; rfl

theorem createTab_selector (w : Workspace) (sourceTabID sourcePaneID : String) (cols rows : Int) (spawn : SpawnResult) :
    (w.createTabLocked sourceTabID sourcePaneID cols rows spawn).1.selector = w.selector := by
  unfold createTabLocked
  simp only
  split
  · rename_i h
    exact newPane_selector h
  · rename_i h
    simp only [setActiveTab_selector, insertTab_selector, nextTabIDStringLocked]
    exact newPane_selector h

@[simp] theorem closeTab_selector (w : Workspace) (tabID : String) : (w.closeTabLocked tabID).1.selector = w.selector := by
  unfold closeTabLocked
  split
  · rfl
  · simp only
    split <;> simp

theorem closeTabsBelow_selector (tabID : String) (n : Nat) : ∀ w : Workspace,
    (closeTabsBelow tabID n w).1.selector = w.selector := by
  induction n with
  | zero => exact fun _ => rfl
  | succ n ih =>
    intro w
    unfold closeTabsBelow
    split
    · rfl
    · rename_i t _
      split
      · exact ih w
      · have hc := closeTab_selector w t.ID
        split <;> rename_i he <;> rw [he] at hc
        · exact hc
        · exact (ih _).trans hc

theorem closePaneInTab_selector (w : Workspace) (index : Nat) (tab : TerminalTab) (paneID : String) :
    (w.closePaneInTabLocked index tab paneID).1.selector = w.selector := by
  unfold closePaneInTabLocked
  split
  · rfl
  · simp only
    split <;> simp

theorem applyAction_selector (w : Workspace) (request : WorkspaceActionRequest) (spawn : SpawnResult) :
    (w.applyAction request spawn).1.selector = w.selector := by
  unfold applyAction
  simp only
  cases request.Action with
  | createTab => exact createTab_selector ..
  | renameTab =>
    simp only [renameTabLocked]
    split
    · rfl
    · split <;> rfl
  | closeTab => exact closeTab_selector ..
  | closeOtherTabs =>
    simp only [closeOtherTabsLocked]
    have hb := closeTabsBelow_selector request.TabID w.tabs.length w
    split
    · rfl
    · split <;> rename_i he <;> rw [he] at hb
      · exact hb
      · simpa using hb
  | splitPane =>
    simp only [splitPaneLocked]
    split
    · rfl
    · split
      · rfl
      · split
        · rfl
        · split <;> rename_i h
          · exact newPane_selector h
          · simpa using newPane_selector h
  | closePane =>
    simp only [closePaneLocked]
    split
    · rfl
    · exact closePaneInTab_selector ..
  | restartPane =>
    simp only [restartExitedPaneLocked]
    split
    · split
      · rfl
      · split
        · rfl
        · split <;> rename_i h
          · exact newPane_selector h
          · simpa using newPane_selector h
    · rfl
  | movePaneToTab =>
    simp only [movePaneToTabLocked, nextTabIDStringLocked]
    split
    · rfl
    · split
      · rfl
      · split <;> simp
  | moveTab =>
    simp only [moveTabLocked]
    split
    · rfl
    · split
      · rfl
      · split
        · rfl
        · split <;> simp
  | reorderTab =>
    simp only [reorderTabLocked]
    split
    · rfl
    · split
      · rfl
      · split
        · rfl
        · split
          · rfl
          · split <;> rfl
  | activateTab =>
    simp only [activateTabLocked]
    split
    · rfl
    · split <;> simp
  | activatePane =>
    simp only [activatePaneLocked]
    split
    · rfl
    · split <;> simp
  | updateLayout =>
    simp only [updateLayoutLocked]
    split
    · rfl
    · split
      · rfl
      · split
        · rfl
        · split
          · rfl
          · split <;> rfl
  | unknown name => rfl

theorem modifyPane_selector (w : Workspace) (paneID : String) (f : WorkspacePane → WorkspacePane) :
    (w.modifyPane paneID f).selector = w.selector := by
  obtain ⟨_, h, -⟩ := modifyPane_frame w paneID f
  rw [h]

theorem refreshActivity_selector (w : Workspace) (reports : List (String × String × String)) :
    (w.refreshActivity reports).selector = w.selector := by
  have hfold : (reports.foldl reportActivity w).selector = w.selector := by
    induction reports generalizing w with
    | nil => rfl
    | cons report reports ih => exact (ih _).trans (modifyPane_selector ..)
  exact hfold

end Workspace

namespace AgentWorkspace

/-- The workspace a daemon without one makes. -/
def created (selector username : String) (request : AgentRequest) (platform : AgentPlatform) : Except String AgentWorkspace :=
  match platform.NewHistoryGeneration with
  | .error err => .error ("create workspace generation: " ++ err)
  | .ok workspaceGeneration =>
    let w : AgentWorkspace := {
      Workspace.empty selector workspaceGeneration username with
      historyLimitBytes := historyLimitBytesForTerminalScrollback request.TerminalScrollback }
    match w.createFirstTab request platform with
    | (_, some err) => .error err
    | (w, none) => .ok w

/-- The workspace a document is restored to, and the answer. -/
def recovered (selector username : String) (request : AgentRequest) (document : WorkspaceRecoveryDocument)
    (platform : AgentPlatform) : Except String (AgentWorkspace × AgentResponse) :=
  match Workspace.newRecoveredTerminalWorkspace document selector username (NormalizeCols request.Cols)
      (NormalizeRows request.Rows) platform.NewHistoryGeneration platform.spawn with
  | (none, err) => .error (err.getD "")
  | (some _, some err) => .error err
  | (some v, none) =>
    let restored : AgentWorkspace := {
      v.wrapCounters with historyLimitBytes := historyLimitBytesForTerminalScrollback request.TerminalScrollback }
    .ok restored.answerState

/-- A request on the one workspace there is, or on a new one. -/
def serve (current : Option AgentWorkspace) (selector username : String) (request : AgentRequest)
    (platform : AgentPlatform) (work : RequestWork) : Option AgentWorkspace × AgentResponse :=
  match current with
  | none =>
    match created selector username request platform with
    | .error err => (none, .failed err)
    | .ok w => serveOn w
  | some w => serveOn w
where
  serveOn (w : AgentWorkspace) : Option AgentWorkspace × AgentResponse :=
    match w.ensure selector username request platform with
    | (w, some err) => (some w, .failed err)
    | (w, none) => (some (w.work platform work).1, (w.work platform work).2)

/-- What the operations of a workspace leave alone. -/
def Stays (w w' : AgentWorkspace) : Prop := w'.selector = w.selector ∧ w'.workspaceGeneration = w.workspaceGeneration

theorem refreshActivity_stays (w : AgentWorkspace) (platform : AgentPlatform) : w.Stays (w.refreshActivity platform).1 := by
  unfold refreshActivity
  split
  · exact ⟨rfl, rfl⟩
  · exact ⟨Workspace.refreshActivity_selector .., (Workspace.refreshActivity_keeps ..).generation⟩

theorem applyAction_stays (w : AgentWorkspace) (request : WorkspaceActionRequest) (platform : AgentPlatform) :
    w.Stays (w.applyAction request platform).1 := by
  have hstart : w.Stays (if request.Action = .createTab ∨ request.Action = .splitPane then (w.refreshActivity platform).1
      else w) := by
    split
    · exact refreshActivity_stays w platform
    · exact ⟨rfl, rfl⟩
  unfold applyAction
  generalize (if request.Action = .createTab ∨ request.Action = .splitPane then (w.refreshActivity platform).1
    else w) = v at hstart
  have hs := Workspace.applyAction_selector v.toWorkspace request (platform.spawn v.freshPaneID)
  have hg := (Workspace.applyAction_ids v.toWorkspace request (platform.spawn v.freshPaneID)).generation
  simp only
  split <;> rename_i he <;> rw [he] at hs hg
  · exact ⟨hs.trans hstart.1, hg.trans hstart.2⟩
  · exact ⟨hs.trans hstart.1, hg.trans hstart.2⟩

theorem work_stays (w : AgentWorkspace) (platform : AgentPlatform) (work : RequestWork) :
    w.Stays (w.work platform work).1 := by
  cases work with
  | state => exact ⟨rfl, rfl⟩
  | inspect => exact refreshActivity_stays w platform
  | action request => exact applyAction_stays w request platform
  | activity => exact refreshActivity_stays w platform
  | attach paneID workspaceGeneration => exact ⟨rfl, rfl⟩

theorem work_state {w : AgentWorkspace} {platform : AgentPlatform} {work : RequestWork} {state : Workspace.WorkspaceState}
    (h : (w.work platform work).2 = .state state) :
    state.WorkspaceGeneration = (w.work platform work).1.workspaceGeneration := by
  cases work with
  | state => cases h; rfl
  | inspect => cases h; rfl
  | activity => cases h
  | action request =>
    unfold AgentWorkspace.work AgentWorkspace.applyAction at h ⊢
    simp only at h ⊢
    split at h
    · cases h
    · cases h; rfl
  | attach paneID workspaceGeneration =>
    unfold AgentWorkspace.work AgentWorkspace.paneForAttach at h
    simp only at h
    split at h
    · cases h
    · split at h
      · cases h
      · split at h <;> cases h

theorem createFirstTab_stays (w : AgentWorkspace) (request : AgentRequest) (platform : AgentPlatform) :
    w.Stays (w.createFirstTab request platform).1 := by
  have hs := Workspace.createTab_selector w.toWorkspace "" "" (NormalizeCols request.Cols) (NormalizeRows request.Rows)
    (platform.spawn w.freshPaneID)
  have hg := (Workspace.createTab_ids w.toWorkspace "" "" (NormalizeCols request.Cols) (NormalizeRows request.Rows)
    (platform.spawn w.freshPaneID)).generation
  exact ⟨hs, hg⟩

theorem ensure_keeps (w : AgentWorkspace) (selector username : String) (request : AgentRequest)
    (platform : AgentPlatform) :
    (w.ensure selector username request platform).1.selector = (if w.selector = "" then selector else w.selector) ∧
      ((w.ensure selector username request platform).1.workspaceGeneration = w.workspaceGeneration ∨
        w.workspaceGeneration = "" ∧
          platform.NewHistoryGeneration = .ok (w.ensure selector username request platform).1.workspaceGeneration) := by
  unfold ensure
  simp only
  have hg : ∀ workspaceGeneration, (if w.workspaceGeneration = "" then platform.NewHistoryGeneration
      else .ok w.workspaceGeneration) = .ok workspaceGeneration → workspaceGeneration = w.workspaceGeneration ∨
        w.workspaceGeneration = "" ∧ platform.NewHistoryGeneration = .ok workspaceGeneration := by
    intro g h
    by_cases he : w.workspaceGeneration = ""
    · rw [if_pos he] at h; exact Or.inr ⟨he, h⟩
    · rw [if_neg he] at h; exact Or.inl (Except.ok.inj h).symm
  split
  · exact ⟨rfl, Or.inl rfl⟩
  · rename_i workspaceGeneration he
    have key : ∀ v v' : AgentWorkspace, v.workspaceGeneration = workspaceGeneration →
        (if v.tabs = [] then v.createFirstTab request platform else (v, none)).1 = v' →
        v'.selector = v.selector ∧ (v'.workspaceGeneration = w.workspaceGeneration ∨
          w.workspaceGeneration = "" ∧ platform.NewHistoryGeneration = .ok v'.workspaceGeneration) := by
      intro v v' hv hv'
      have hs : v.Stays v' := by
        subst hv'
        split
        · exact createFirstTab_stays v request platform
        · exact ⟨rfl, rfl⟩
      rw [hs.2, hv]
      exact ⟨hs.1, hg _ he⟩
    exact key _ _ rfl rfl

theorem created_ok {selector username : String} {request : AgentRequest} {platform : AgentPlatform} {w : AgentWorkspace}
    (h : created selector username request platform = .ok w) :
    w.selector = selector ∧ platform.NewHistoryGeneration = .ok w.workspaceGeneration := by
  unfold created at h
  split at h
  · cases h
  · rename_i workspaceGeneration hg
    simp only at h
    split at h
    · cases h
    · rename_i v hc
      cases h
      have hs := createFirstTab_stays {
        Workspace.empty selector workspaceGeneration username with
        historyLimitBytes := historyLimitBytesForTerminalScrollback request.TerminalScrollback } request platform
      rw [hc] at hs
      exact ⟨hs.1, hg.trans (congrArg Except.ok hs.2.symm)⟩

theorem recovered_ok {selector username : String} {request : AgentRequest} {document : WorkspaceRecoveryDocument}
    {platform : AgentPlatform} {w : AgentWorkspace} {response : AgentResponse}
    (h : recovered selector username request document platform = .ok (w, response)) :
    w.selector = selector ∧ platform.NewHistoryGeneration = .ok w.workspaceGeneration ∧
      ∃ state, response = .state state ∧ state.WorkspaceGeneration = w.workspaceGeneration := by
  unfold recovered at h
  split at h
  · cases h
  · cases h
  · rename_i v hv
    obtain ⟨-, workspaceGeneration, hg, hw⟩ := Workspace.recovered_cases hv
    have hfields : v.selector = selector ∧ v.workspaceGeneration = workspaceGeneration := by
      rcases hw with ⟨-, directory, -, he⟩ | ⟨-, panes, -, -, he⟩
      · rw [he]
        unfold Workspace.fresh
        rw [Workspace.createTab_selector, (Workspace.createTab_ids ..).generation]
        exact ⟨rfl, rfl⟩
      · rw [he]
        exact ⟨rfl, rfl⟩
    cases h
    exact ⟨hfields.1, hg.trans (congrArg Except.ok hfields.2.symm), _, rfl, rfl⟩

section Serve

variable {current : Option AgentWorkspace} {selector username : String} {request : AgentRequest}
  {platform : AgentPlatform} {work : RequestWork}

/-- The workspace after a request is the one before, or a new one, prepared and worked on. -/
theorem serve_cases {w' : AgentWorkspace} (h : (serve current selector username request platform work).1 = some w') :
    ∃ w, (current = some w ∨ current = none ∧ created selector username request platform = .ok w) ∧
      serve current selector username request platform work = serve.serveOn selector username request platform work w := by
  cases current with
  | some w => exact ⟨w, Or.inl rfl, rfl⟩
  | none =>
    unfold serve at h ⊢
    cases hc : created selector username request platform with
    | error err => simp only [hc] at h; cases h
    | ok w => exact ⟨w, Or.inr ⟨rfl, rfl⟩, rfl⟩

variable (selector username request platform work) in
theorem serveOn_keeps (w : AgentWorkspace) : ∃ w', (serve.serveOn selector username request platform work w).1 = some w' ∧
    w'.selector = (if w.selector = "" then selector else w.selector) ∧
      (w'.workspaceGeneration = w.workspaceGeneration ∨
        w.workspaceGeneration = "" ∧ platform.NewHistoryGeneration = .ok w'.workspaceGeneration) := by
  have he := ensure_keeps w selector username request platform
  unfold serve.serveOn
  cases hv : w.ensure selector username request platform with
  | mk v err =>
    rw [hv] at he
    cases err with
    | some err => exact ⟨v, rfl, he⟩
    | none =>
      have hw := work_stays v platform work
      exact ⟨_, rfl, hw.1.trans he.1,
        he.2.imp hw.2.trans fun h => ⟨h.1, h.2.trans (congrArg Except.ok hw.2.symm)⟩⟩

/-- A state that is answered is of the workspace's generation. -/
theorem serve_state {state : Workspace.WorkspaceState}
    (h : (serve current selector username request platform work).2 = .state state) :
    ∃ w', (serve current selector username request platform work).1 = some w' ∧
      state.WorkspaceGeneration = w'.workspaceGeneration := by
  have on : ∀ w, (serve.serveOn selector username request platform work w).2 = .state state →
      ∃ w', (serve.serveOn selector username request platform work w).1 = some w' ∧
        state.WorkspaceGeneration = w'.workspaceGeneration := by
    intro w hw
    unfold serve.serveOn at hw ⊢
    cases he : w.ensure selector username request platform with
    | mk v err =>
      rw [he] at hw
      cases err with
      | some err => cases hw
      | none => exact ⟨_, rfl, work_state hw⟩
  cases current with
  | some w => exact on w h
  | none =>
    unfold serve at h ⊢
    cases hc : created selector username request platform with
    | error err => simp only [hc] at h; cases h
    | ok w => simp only [hc] at h; exact on w h

theorem serve_selector {w' : AgentWorkspace} (h : (serve current selector username request platform work).1 = some w') :
    w'.selector = selector ∨ ∃ w, current = some w ∧ w'.selector = w.selector := by
  obtain ⟨w, hw, he⟩ := serve_cases h
  obtain ⟨v, hv, hs, -⟩ := serveOn_keeps selector username request platform work w
  rw [he, hv] at h
  cases h
  by_cases hempty : w.selector = ""
  · rw [if_pos hempty] at hs; exact Or.inl hs
  · rw [if_neg hempty] at hs
    rcases hw with hw | ⟨-, hc⟩
    · exact Or.inr ⟨w, hw, hs⟩
    · exact Or.inl (hs.trans (created_ok hc).1)

theorem serve_generation {w' : AgentWorkspace} (h : (serve current selector username request platform work).1 = some w') :
    (∃ w, current = some w ∧ w'.workspaceGeneration = w.workspaceGeneration) ∨
      (∀ w, current = some w → w.workspaceGeneration = "") ∧
        platform.NewHistoryGeneration = .ok w'.workspaceGeneration := by
  obtain ⟨w, hw, he⟩ := serve_cases h
  obtain ⟨v, hv, -, hg⟩ := serveOn_keeps selector username request platform work w
  rw [he, hv] at h
  cases h
  rcases hg with hg | hg
  · rcases hw with hw | ⟨hnone, hc⟩
    · exact Or.inl ⟨w, hw, hg⟩
    · refine Or.inr ⟨fun v hv => ?_, by rw [hg]; exact (created_ok hc).2⟩
      rw [hnone] at hv
      cases hv
  · refine Or.inr ⟨fun v hv => ?_, hg.2⟩
    rcases hw with hw | ⟨hnone, -⟩
    · rw [hw] at hv
      cases hv; exact hg.1
    · rw [hnone] at hv; cases hv

end Serve

end AgentWorkspace

namespace AgentDaemon

/-- What the daemon is bound to by an accepted request. -/
def bound (d : AgentDaemon) (request : AgentRequest) : AgentDaemon :=
  { d with
    selector := if trimSpace request.Selector = "" then d.selector else trimSpace request.Selector
    accountID := if d.accountID = "" then trimSpace request.AccountID else d.accountID }

def Accepts (d : AgentDaemon) (request : AgentRequest) : Prop :=
  (trimSpace request.Selector = "" ∨
    (d.selector = "" ∨ d.selector = trimSpace request.Selector) ∧
      (d.workspaceSelector = "" ∨ d.workspaceSelector = trimSpace request.Selector)) ∧
    ¬ d.AccountRefused request

theorem validateSelector_iff (d : AgentDaemon) (selector : String) :
    (d.validateRequestSelectorLocked selector = .ok {
        d with selector := if trimSpace selector = "" then d.selector else trimSpace selector } ∧
      (trimSpace selector = "" ∨ (d.selector = "" ∨ d.selector = trimSpace selector) ∧
        (d.workspaceSelector = "" ∨ d.workspaceSelector = trimSpace selector))) ∨
    ((∃ reason, d.validateRequestSelectorLocked selector = .error reason) ∧
      ¬ (trimSpace selector = "" ∨ (d.selector = "" ∨ d.selector = trimSpace selector) ∧
        (d.workspaceSelector = "" ∨ d.workspaceSelector = trimSpace selector))) := by
  unfold validateRequestSelectorLocked
  simp only
  by_cases hs : trimSpace selector = ""
  · rw [if_pos hs, if_pos hs]
    exact Or.inl ⟨rfl, Or.inl hs⟩
  · rw [if_neg hs, if_neg hs]
    by_cases hd : d.selector ≠ "" ∧ d.selector ≠ trimSpace selector
    · rw [if_pos hd]
      exact Or.inr ⟨⟨_, rfl⟩, fun h => h.elim hs fun h => h.1.elim hd.1 hd.2⟩
    · rw [if_neg hd]
      by_cases hw : d.workspaceSelector ≠ "" ∧ d.workspaceSelector ≠ trimSpace selector
      · rw [if_pos hw]
        exact Or.inr ⟨⟨_, rfl⟩, fun h => h.elim hs fun h => h.2.elim hw.1 hw.2⟩
      · rw [if_neg hw]
        refine Or.inl ⟨rfl, Or.inr ⟨?_, ?_⟩⟩
        · exact or_iff_not_imp_left.mpr fun hne => not_not.mp fun hne' => hd ⟨hne, hne'⟩
        · exact or_iff_not_imp_left.mpr fun hne => not_not.mp fun hne' => hw ⟨hne, hne'⟩

theorem validate_iff (d : AgentDaemon) (request : AgentRequest) :
    (d.Accepts request ∧ d.validate request = (d.bound request, none)) ∨
    (¬ d.Accepts request ∧ ∃ d' reason, d.validate request = (d', some reason) ∧ ¬ d'.Accepts request ∧
      d'.closed = d.closed ∧ d'.workspace = d.workspace ∧ d'.workspaces = d.workspaces) := by
  unfold validate Accepts
  rcases validateSelector_iff d request.Selector with ⟨he, hs⟩ | ⟨⟨reason, he⟩, hs⟩
  · have hbound : d.bound request = { d with
        selector := if trimSpace request.Selector = "" then d.selector else trimSpace request.Selector
        accountID := if d.accountID = "" then trimSpace request.AccountID else d.accountID } := rfl
    generalize (if trimSpace request.Selector = "" then d.selector else trimSpace request.Selector) = selector at he hbound
    simp only [he]
    rcases validateAccount_cases { d with selector := selector } request with ⟨hr, reason, ha, -⟩ | ⟨hr, ha⟩
    · exact Or.inr ⟨fun h => h.2 hr, _, reason, by simp only [ha], fun h => h.2 hr, rfl, rfl, rfl⟩
    · exact Or.inl ⟨⟨hs, hr⟩, by simp only [ha, hbound]⟩
  · exact Or.inr ⟨fun h => hs h.1, d, reason, by simp only [he], fun h => hs h.1, rfl, rfl, rfl⟩

/-- What the daemon is when an accepted request comes to the workspace. -/
def served (d : AgentDaemon) (request : AgentRequest) : AgentDaemon :=
  (d.bound request).rememberUsername request.Username

structure SameBinding (d d' : AgentDaemon) : Prop where
  selector : d'.selector = d.selector
  accountID : d'.accountID = d.accountID
  username : d'.username = d.username
  closed : d'.closed = d.closed

theorem served_current (d : AgentDaemon) (request : AgentRequest) : (d.served request).current = d.current := by
  simp only [served, bound, rememberUsername, current]

theorem served_workspace (d : AgentDaemon) (request : AgentRequest) : (d.served request).workspace = d.workspace := by
  simp only [served, bound, rememberUsername]

theorem served_closed (d : AgentDaemon) (request : AgentRequest) : (d.served request).closed = d.closed := by
  simp only [served, bound, rememberUsername]

theorem served_accountID (d : AgentDaemon) (request : AgentRequest) : (d.served request).accountID =
    if d.accountID = "" then trimSpace request.AccountID else d.accountID := by
  simp only [served, bound, rememberUsername]

theorem served_selector (d : AgentDaemon) (request : AgentRequest) : (d.served request).selector =
    if trimSpace request.Selector = "" then d.selector else trimSpace request.Selector := by
  simp only [served, bound, rememberUsername]

theorem served_username (d : AgentDaemon) (request : AgentRequest) : (d.served request).username =
    if trimSpace request.Username ≠ "" ∨ d.username = "" then trimSpace request.Username else d.username := by
  simp only [served, bound, rememberUsername]
  rfl

theorem current_setWorkspace {d : AgentDaemon} {p : Nat} (h : d.workspace = some p) (w : AgentWorkspace) :
    (d.setWorkspace p w).current = some w := by
  unfold current setWorkspace
  simp [h]

theorem current_adopt (d : AgentDaemon) (w : AgentWorkspace) : (d.adopt w).current = some w := by
  unfold current adopt setWorkspace
  simp

section Serve

variable {d : AgentDaemon} {request : AgentRequest} {platform : AgentPlatform}

/-- The daemon is not closed and matches the request's selector and account. -/
def Ready (d : AgentDaemon) (request : AgentRequest) : Prop := d.closed = false ∧ d.Accepts request

variable (platform) in
/-- A request that is turned away is turned away again. -/
theorem serve_refused (hr : d.validates request = !d.closed) (hn : ¬ d.Ready request) :
    ∃ d' reason, d.serve request platform = (d', .rejected reason) ∧ ¬ d'.Ready request ∧ d'.closed = d.closed ∧
      d'.workspace = d.workspace ∧ d'.workspaces = d.workspaces := by
  cases hc : d.closed with
  | true =>
    rw [hc] at hr
    obtain ⟨reason, hb, -⟩ := begin_unvalidated hr platform
    refine ⟨d, reason, ?_, hn, hc, rfl, rfl⟩
    unfold serve
    rw [hb]
    rfl
  | false =>
    rw [hc] at hr
    rcases d.validate_iff request with ⟨h, -⟩ | ⟨-, d', reason, hv, hn', hsame⟩
    · exact absurd ⟨hc, h⟩ hn
    · have hb := (begin_handles hr platform).refused reason (by rw [hv])
      rw [hv] at hb
      refine ⟨d', reason, ?_, fun h => hn' h.2, hsame.1.trans hc, hsame.2⟩
      unfold serve
      rw [hb]
      rfl

variable (request platform) in
/-- What a request comes to on the workspace that is the daemon's by now. -/
theorem serve_prepared {p : Nat} (hw : d.workspace = some p) (work : RequestWork) :
    (complete (withWork (d.prepareWorkspace request platform) work) platform).2 =
        (AgentWorkspace.serve.serveOn d.selector d.username request platform work (d.workspaces p)).2 ∧
      (complete (withWork (d.prepareWorkspace request platform) work) platform).1.current =
        (AgentWorkspace.serve.serveOn d.selector d.username request platform work (d.workspaces p)).1 ∧
      (complete (withWork (d.prepareWorkspace request platform) work) platform).1.workspace = some p ∧
      SameBinding d (complete (withWork (d.prepareWorkspace request platform) work) platform).1 := by
  unfold prepareWorkspace AgentWorkspace.serve.serveOn
  rw [hw]
  simp only
  cases he : (d.workspaces p).ensure d.selector d.username request platform with
  | mk w err =>
    cases err with
    | some err => exact ⟨rfl, current_setWorkspace hw w, hw, ⟨rfl, rfl, rfl, rfl⟩⟩
    | none =>
      have hat : (d.setWorkspace p w).workspaces p = w := by unfold setWorkspace; simp
      simp only [withWork, complete, finish, hat]
      have hp : (d.setWorkspace p w).workspace = some p := hw
      exact ⟨trivial, current_setWorkspace hp _, hw, ⟨rfl, rfl, rfl, rfl⟩⟩

/-- An accepted request is served on the daemon's workspace, for what the daemon is bound to. -/
theorem serve_accepted {work : RequestWork} (hb : d.begin request platform = d.ensureFor request platform work)
    (hc : d.closed = false) (ha : d.Accepts request) :
    (d.serve request platform).2 = (AgentWorkspace.serve d.current (d.served request).selector
        (d.served request).username request platform work).2 ∧
      (d.serve request platform).1.current = (AgentWorkspace.serve d.current (d.served request).selector
        (d.served request).username request platform work).1 ∧
      (∀ p, d.workspace = some p → (d.serve request platform).1.workspace = some p) ∧
      SameBinding (d.served request) (d.serve request platform).1 := by
  have hv : d.validate request = (d.bound request, none) := by
    rcases d.validate_iff request with ⟨-, h⟩ | ⟨hn, -⟩
    · exact h
    · exact absurd ha hn
  unfold serve
  rw [hb]
  unfold ensureFor ensureWorkspaceLocked
  simp only [hc, Bool.false_eq_true, if_false, hv]
  have hserved : (d.bound request).rememberUsername request.Username = d.served request := rfl
  rw [← served_current d request, ← served_workspace d request, hserved]
  generalize d.served request = u
  cases hw : u.workspace with
  | some p =>
    rw [if_neg (Option.some_ne_none p), show u.current = some (u.workspaces p) by unfold current; rw [hw]; rfl]
    obtain ⟨hresponse, hcurrent, hpointer, hbinding⟩ := serve_prepared request platform hw work
    exact ⟨hresponse, hcurrent, (fun q hq => by cases hq; exact hpointer), hbinding⟩
  | none =>
    have hnone : u.current = none := by unfold current; rw [hw]; rfl
    rw [if_pos rfl, hnone]
    unfold createWorkspace AgentWorkspace.serve AgentWorkspace.created
    cases platform.NewHistoryGeneration with
    | error err => exact ⟨rfl, hnone, (fun _ hp => by cases hp), ⟨rfl, rfl, rfl, rfl⟩⟩
    | ok workspaceGeneration =>
      simp only
      cases AgentWorkspace.createFirstTab _ request platform with
      | mk w err =>
        cases err with
        | some err => exact ⟨rfl, hnone, (fun _ hp => by cases hp), ⟨rfl, rfl, rfl, rfl⟩⟩
        | none =>
          have hmade : (u.adopt w).workspace = some u.made := rfl
          have hp := serve_prepared request platform hmade work
          have hat : (u.adopt w).workspaces u.made = w := by unfold adopt setWorkspace; simp
          rw [hat] at hp
          obtain ⟨hresponse, hcurrent, -, hb⟩ := hp
          exact ⟨hresponse, hcurrent, (fun _ hp => by cases hp), ⟨hb.selector, hb.accountID, hb.username, hb.closed⟩⟩

/-- A document is restored for what the daemon is bound to, whatever workspace it has. -/
theorem serve_restored {document : WorkspaceRecoveryDocument}
    (hb : d.begin request platform = ((d.restoreWorkspace request (some document) platform).1,
      .error (d.restoreWorkspace request (some document) platform).2))
    (hc : d.closed = false) (ha : d.Accepts request) :
    ((∃ err, AgentWorkspace.recovered (d.served request).selector (d.served request).username request document platform =
        .error err ∧ d.serve request platform = (d.served request, .failed err)) ∨
      ∃ w response, AgentWorkspace.recovered (d.served request).selector (d.served request).username request document
          platform = .ok (w, response) ∧
        (d.serve request platform).2 = response ∧ (d.serve request platform).1.current = some w) ∧
      SameBinding (d.served request) (d.serve request platform).1 := by
  have hv : d.validate request = (d.bound request, none) := by
    rcases d.validate_iff request with ⟨-, h⟩ | ⟨hn, -⟩
    · exact h
    · exact absurd ha hn
  unfold serve
  rw [hb]
  unfold restoreWorkspace AgentWorkspace.recovered complete
  simp only [hc, Bool.false_eq_true, if_false, hv]
  have hserved : (d.bound request).rememberUsername request.Username = d.served request := rfl
  rw [hserved]
  generalize d.served request = u
  generalize Workspace.newRecoveredTerminalWorkspace document u.selector u.username (NormalizeCols request.Cols)
    (NormalizeRows request.Rows) platform.NewHistoryGeneration platform.spawn = made
  obtain ⟨made, err⟩ := made
  cases made with
  | none => exact ⟨Or.inl ⟨_, rfl, rfl⟩, ⟨rfl, rfl, rfl, rfl⟩⟩
  | some made =>
    cases err with
    | some err => exact ⟨Or.inl ⟨_, rfl, rfl⟩, ⟨rfl, rfl, rfl, rfl⟩⟩
    | none =>
      simp only
      cases u.workspace with
      | none => exact ⟨Or.inr ⟨_, _, rfl, rfl, current_adopt ..⟩, ⟨rfl, rfl, rfl, rfl⟩⟩
      | some p => exact ⟨Or.inr ⟨_, _, rfl, rfl, current_adopt ..⟩, ⟨rfl, rfl, rfl, rfl⟩⟩

end Serve

/-! ## The same caller again -/

/-- The requests come from the same user, for the same selector and account. -/
structure SameCaller (request request' : AgentRequest) : Prop where
  selector : request'.Selector = request.Selector
  accountID : request'.AccountID = request.AccountID
  username : request'.Username = request.Username

variable {d d' : AgentDaemon} {request request' : AgentRequest}

theorem SameCaller.accepts (h : SameCaller request request') (ha : d.Accepts request) : d.Accepts request' := by
  unfold Accepts AccountRefused at ha ⊢
  rw [h.selector, h.accountID]
  exact ha

theorem SameCaller.served (h : SameCaller request request') : d.served request' = d.served request := by
  unfold AgentDaemon.served bound
  rw [h.selector, h.accountID, h.username]

/-- What is bound by an accepted request is what the next one of the same caller binds. -/
theorem SameBinding.again (h : SameBinding (d.served request) d') : SameBinding (d.served request) (d'.served request) where
  selector := by
    rw [served_selector d', h.selector, served_selector]
    split <;> rfl
  accountID := by
    rw [served_accountID d', h.accountID, served_accountID]
    by_cases he : d.accountID = ""
    · rw [if_pos he]
      split <;> rfl
    · rw [if_neg he, if_neg he]
  username := by
    rw [served_username d', h.username, served_username]
    by_cases hn : trimSpace request.Username ≠ "" ∨ d.username = ""
    · rw [if_pos hn]
      split <;> rfl
    · rw [if_neg hn, if_neg hn]
  closed := (served_closed ..).trans h.closed

/-- A daemon that has accepted the caller accepts it again. -/
theorem Accepts.again (ha : d.Accepts request) (hb : SameBinding (d.served request) d')
    (hw : ∀ w', d'.current = some w' → w'.selector = (d.served request).selector ∨
      ∃ w, d.current = some w ∧ w'.selector = w.selector) : d'.Accepts request := by
  refine ⟨?_, ?_⟩
  · by_cases hs : trimSpace request.Selector = ""
    · exact Or.inl hs
    · have hbound : (d.served request).selector = trimSpace request.Selector := by
        unfold served bound rememberUsername
        exact if_neg hs
      refine Or.inr ⟨Or.inr (hb.selector.trans hbound), ?_⟩
      unfold workspaceSelector
      cases hc : d'.current with
      | none => exact Or.inl rfl
      | some w' =>
        simp only
        rcases hw w' hc with he | ⟨w, hcur, he⟩
        · exact Or.inr (he.trans hbound)
        · have hold := (ha.1.resolve_left hs).2
          unfold workspaceSelector at hold
          rw [hcur] at hold
          rw [he]
          exact hold
  · intro hr
    have hne : trimSpace request.AccountID ≠ (d.served request).accountID := by rw [← hb.accountID]; exact hr.2
    rw [served_accountID] at hne
    by_cases he : d.accountID = ""
    · rw [if_pos he] at hne
      exact hne rfl
    · rw [if_neg he] at hne
      exact ha.2 ⟨he, hne⟩

end AgentDaemon

end Webshell
