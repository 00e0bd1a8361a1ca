import Webshell.ProviderRecovery

/-!
# How often a document is restored

A restored workspace has a new generation. Once a document with that generation
is stored, the agent's workspace is never again taken for another one; until
then every request restores the old document once more.
-/

namespace Webshell

open GoText AgentDaemon Provider

/-- A request with the size of its viewport and what the environment answers to it. -/
structure RecoveryStep where
  request : ProviderRequest
  size : RequestSize
  env : RecoveryEnv

/-- The provider, and the documents it has restored into the running agent. -/
structure RecoveryRun where
  provider : Provider
  restored : List WorkspaceRecoveryDocument

def RecoveryStep.perform (scope : AgentScope) (epoch : String) (s : RecoveryRun) (e : RecoveryStep) : Recovered :=
  s.provider.requestWithRecovery scope e.size epoch e.env e.request

def recoveryMachine (scope : AgentScope) (epoch : String) : Machine RecoveryRun RecoveryStep where
  step s e :=
    let r := e.perform scope epoch s
    some { provider := r.provider, restored := s.restored ++ r.restored.toList }

/-- Once a document has been restored no other restore follows, and the agent keeps its workspace. -/
def RestoresOnce (scope : AgentScope) (epoch : String) (s : RecoveryRun) (e : RecoveryStep) : Prop :=
  s.restored ≠ [] →
    (e.perform scope epoch s).restored = none ∧
      (e.perform scope epoch s).provider.daemon.workspace = s.provider.daemon.workspace

/-- A request that restores a document comes to its save, and the save succeeds. -/
def RecordsRestore (scope : AgentScope) (epoch : String) (s : RecoveryRun) (e : RecoveryStep) : Prop :=
  (e.perform scope epoch s).restored ≠ none → (e.perform scope epoch s).saved = true ∧ e.env.written = true ∧
    ∀ state, (e.perform scope epoch s).result = .ok state →
      ValidateWorkspaceRecoveryDocument (Workspace.WorkspaceRecoveryDocumentFromState epoch state) = none

/-- The stored document is of the generation of the agent's workspace. -/
def GenerationStored (p : Provider) : Prop :=
  ∃ w document, p.daemon.current = some w ∧ Trimmed w.workspaceGeneration ∧ p.stored = some document ∧
    document.WorkspaceGeneration = w.workspaceGeneration

/-! ## The store -/

theorem save_generation {stored : RecoveryStore} (epoch : String) {state : Workspace.WorkspaceState} (written : Bool)
    {g : String} (hg : Trimmed g) (hs : state.WorkspaceGeneration = g)
    (h : ∃ document, stored = some document ∧ document.WorkspaceGeneration = g) :
    ∃ document, stored.save (Workspace.WorkspaceRecoveryDocumentFromState epoch state) written = some document ∧
      document.WorkspaceGeneration = g := by
  unfold RecoveryStore.save
  split
  · exact h
  · refine ⟨_, rfl, ?_⟩
    change trimSpace state.WorkspaceGeneration = g
    rw [hs, hg.1]

theorem save_written (stored : RecoveryStore) {epoch : String} {state : Workspace.WorkspaceState} {written : Bool}
    (he : trimSpace epoch ≠ "") (hw : written = true)
    (hv : ValidateWorkspaceRecoveryDocument (Workspace.WorkspaceRecoveryDocumentFromState epoch state) = none) :
    stored.save (Workspace.WorkspaceRecoveryDocumentFromState epoch state) written =
      some (Workspace.WorkspaceRecoveryDocumentFromState epoch state) := by
  unfold RecoveryStore.save
  rw [if_neg]
  rintro (h | h | h)
  · exact he ((trimSpace_idem epoch).symm.trans h)
  · exact h hv
  · rw [hw] at h; cases h

/-! ## A request behind which nothing is restored -/

section Step

variable {p : Provider} {scope : AgentScope} {size : RequestSize} {epoch : String} {env : RecoveryEnv}

variable (epoch env) in
theorem stored_kept {d : AgentDaemon} {state : Workspace.WorkspaceState} (restored : Option WorkspaceRecoveryDocument)
    {w : AgentWorkspace} {document : WorkspaceRecoveryDocument} (hw : d.current = some w)
    (ht : Trimmed w.workspaceGeneration) (hd : p.stored = some document)
    (hg : document.WorkspaceGeneration = w.workspaceGeneration) (hs : state.WorkspaceGeneration = w.workspaceGeneration) :
    GenerationStored (Provider.saveAndReturn p.stored epoch env d state restored).provider := by
  obtain ⟨next, hn, hng⟩ := save_generation epoch env.written ht hs ⟨document, hd, hg⟩
  unfold GenerationStored Provider.saveAndReturn
  simp only
  exact ⟨w, next, hw, ht, hn, hng⟩

variable (scope epoch env) in
/-- What follows the agent's answer, where the stored document is of the answered generation. -/
theorem answered_recorded {d : AgentDaemon} {state : Workspace.WorkspaceState} {w : AgentWorkspace}
    {document : WorkspaceRecoveryDocument} (hw : d.current = some w) (ht : Trimmed w.workspaceGeneration)
    (hd : p.stored = some document) (hg : document.WorkspaceGeneration = w.workspaceGeneration)
    (hs : state.WorkspaceGeneration = w.workspaceGeneration) (recover : WorkspaceRecoveryDocument → Recovered) :
    (p.reconcile scope epoch env d state recover).restored = none ∧
      (p.reconcile scope epoch env d state recover).provider.daemon = d ∧
      GenerationStored (p.reconcile scope epoch env d state recover).provider := by
  unfold Provider.reconcile
  have hkept := stored_kept epoch env none hw ht hd hg hs
  split
  · exact ⟨rfl, rfl, w, document, hw, ht, hd, hg⟩
  · split
    · exact ⟨rfl, rfl, hkept⟩
    · rename_i loaded hl
      have hsame := (load_epoch hl).2
      rw [hd] at hsame
      cases hsame
      rw [if_pos (hg.trans hs.symm)]
      exact ⟨rfl, rfl, hkept⟩

variable (scope size epoch env) in
/-- Where the stored document is of the agent's generation, a request leaves it so and restores nothing. -/
theorem request_recorded (h : GenerationStored p) (request : ProviderRequest) :
    (p.requestWithRecovery scope size epoch env request).restored = none ∧
      (p.requestWithRecovery scope size epoch env request).provider.daemon.workspace = p.daemon.workspace ∧
      GenerationStored (p.requestWithRecovery scope size epoch env request).provider := by
  obtain ⟨w, document, hw, ht, hd, hg⟩ := h
  cases request with
  | state =>
    obtain ⟨hp, ⟨w', hw', hgw⟩, hs⟩ := scope.request_keeps env.request (scope.begin_state size)
      (scope.validates_state size) hw ht.2
    unfold Provider.requestWithRecovery Provider.requestWorkspaceStateWithRecovery AgentScope.requestAgentWorkspaceState
    simp only
    generalize scope.requestAgentState p.daemon (scope.stateRequest size) env.request = made at hp hw' hs
    obtain ⟨d, result⟩ := made
    cases result with
    | error err => exact ⟨rfl, hp, w', document, hw', hgw ▸ ht, hd, hg.trans hgw.symm⟩
    | ok state =>
      simp only at hp hw' hs ⊢
      obtain ⟨hrestored, hdaemon, hstored⟩ := answered_recorded scope epoch env hw' (hgw ▸ ht) hd
        (hg.trans hgw.symm) ((hs state rfl).trans hgw.symm) _
      exact ⟨hrestored, (congrArg AgentDaemon.workspace hdaemon).trans hp, hstored⟩
  | action action =>
    obtain ⟨hp, ⟨w', hw', hgw⟩, hs⟩ := scope.request_keeps env.request (scope.begin_action size action)
      (scope.validates_action size action) hw ht.2
    unfold Provider.requestWithRecovery Provider.requestWorkspaceActionWithRecovery AgentScope.requestAgentWorkspaceAction
    simp only
    generalize scope.requestAgentState p.daemon (scope.actionRequest size action) env.request = made at hp hw' hs
    obtain ⟨d, result⟩ := made
    cases result with
    | error err => exact ⟨rfl, hp, w', document, hw', hgw ▸ ht, hd, hg.trans hgw.symm⟩
    | ok state =>
      simp only at hp hw' hs ⊢
      obtain ⟨hrestored, hdaemon, hstored⟩ := answered_recorded scope epoch env hw' (hgw ▸ ht) hd
        (hg.trans hgw.symm) ((hs state rfl).trans hgw.symm) _
      exact ⟨hrestored, (congrArg AgentDaemon.workspace hdaemon).trans hp, hstored⟩

/-! ## A request that restores -/

theorem reconcile_restored {d : AgentDaemon} {state : Workspace.WorkspaceState}
    {recover : WorkspaceRecoveryDocument → Recovered} (h : (p.reconcile scope epoch env d state recover).restored ≠ none) :
    trimSpace epoch ≠ "" ∧ supportsWorkspaceRecovery scope.version = true ∧
      ∃ document, p.reconcile scope epoch env d state recover = recover document := by
  unfold Provider.reconcile at h ⊢
  split at h
  · exact absurd rfl h
  · rename_i he
    rw [if_neg he]
    split at h
    · exact absurd rfl h
    · rename_i document hload
      split at h
      · exact absurd rfl h
      · rename_i hne
        split at h
        · exact absurd rfl h
        · rename_i hv
          refine ⟨he, by simpa using hv, document, ?_⟩
          simp only [if_neg hne, if_neg hv]

/-- The workspace a document has just been restored to. -/
theorem restored_current {document : WorkspaceRecoveryDocument} {d d' : AgentDaemon} {state : Workspace.WorkspaceState}
    (hv : supportsWorkspaceRecovery scope.version = true)
    (h : scope.requestAgentWorkspaceRestore size document d env.restore = (d', .ok state)) :
    ∃ w, d'.current = some w ∧ Trimmed w.workspaceGeneration ∧ state.WorkspaceGeneration = w.workspaceGeneration := by
  rw [scope.restore_eq hv] at h
  have hok : (scope.requestAgentState d (scope.restoreRequest size document) env.restore).2 = .ok state := by rw [h]
  obtain ⟨-, w, hw, hs, hg⟩ := scope.restore_state_ok (scope.request_ready (scope.validates_restore size document) hok) hok
  rw [h] at hw
  exact ⟨w, hw, hg.elim newGeneration_trimmed newGeneration_trimmed, hs⟩

theorem saved_recorded {d : AgentDaemon} {state : Workspace.WorkspaceState} {restored : Option WorkspaceRecoveryDocument}
    {w : AgentWorkspace} (hw : d.current = some w) (ht : Trimmed w.workspaceGeneration)
    (hs : state.WorkspaceGeneration = w.workspaceGeneration) (he : trimSpace epoch ≠ "") (hwritten : env.written = true)
    (hvalid : ValidateWorkspaceRecoveryDocument (Workspace.WorkspaceRecoveryDocumentFromState epoch state) = none) :
    GenerationStored (Provider.saveAndReturn p.stored epoch env d state restored).provider := by
  have hsave := save_written p.stored he hwritten hvalid
  have hgen : (Workspace.WorkspaceRecoveryDocumentFromState epoch state).WorkspaceGeneration = w.workspaceGeneration := by
    change trimSpace state.WorkspaceGeneration = w.workspaceGeneration
    rw [hs, ht.1]
  unfold GenerationStored Provider.saveAndReturn
  simp only
  exact ⟨w, _, hw, ht, hsave, hgen⟩

/-- A request that restores a document and records the workspace leaves its generation stored. -/
theorem restore_recorded {request : ProviderRequest} {r : Recovered}
    (hr : p.requestWithRecovery scope size epoch env request = r) (h : r.restored ≠ none) (hsaved : r.saved = true)
    (hwritten : env.written = true) (hvalid : ∀ state, r.result = .ok state →
      ValidateWorkspaceRecoveryDocument (Workspace.WorkspaceRecoveryDocumentFromState epoch state) = none) :
    GenerationStored r.provider := by
  cases request with
  | state =>
    unfold Provider.requestWithRecovery Provider.requestWorkspaceStateWithRecovery at hr
    simp only at hr
    split at hr
    · subst hr
      exact absurd rfl h
    · rename_i d state hstate
      rw [← hr] at h
      obtain ⟨he, hv, document, hrec⟩ := reconcile_restored h
      rw [hrec] at hr
      split at hr
      · rename_i hrestore
        subst hr
        cases hsaved
      · rename_i hrestore
        obtain ⟨w, hw, ht, hs⟩ := restored_current hv hrestore
        subst hr
        exact saved_recorded hw ht hs he hwritten (hvalid _ rfl)
  | action action =>
    unfold Provider.requestWithRecovery Provider.requestWorkspaceActionWithRecovery at hr
    simp only at hr
    split at hr
    · subst hr
      exact absurd rfl h
    · rw [← hr] at h
      obtain ⟨he, hv, document, hrec⟩ := reconcile_restored h
      rw [hrec] at hr
      split at hr
      · subst hr
        cases hsaved
      · rename_i hrestore
        obtain ⟨w, hw, ht, -⟩ := restored_current hv hrestore
        obtain ⟨-, ⟨w', hw', hgw⟩, hs⟩ := scope.request_keeps env.again (scope.begin_action size action)
          (scope.validates_action size action) hw ht.2
        split at hr
        · subst hr
          cases hsaved
        · rename_i haction
          unfold AgentScope.requestAgentWorkspaceAction at haction
          rw [haction] at hw' hs
          subst hr
          exact saved_recorded hw' (hgw ▸ ht) ((hs _ rfl).trans hgw.symm) he hwritten (hvalid _ rfl)

end Step

/-! ## Runs -/

/-- Two requests after a restart; the second one's save fails. -/
def readThenCreate : List RecoveryStep :=
  [⟨.state, ownSize, steadyEnv⟩, ⟨.action { Action := .createTab }, ownSize, { steadyEnv with written := false }⟩]

/-- A tab that the document does not have is renamed, and the workspace is read again. -/
def renameThenRead : List RecoveryStep :=
  [⟨.action { Action := .renameTab, TabID := "tab-1", Label := "b" }, ownSize, steadyEnv⟩, ⟨.state, ownSize, steadyEnv⟩]

end Webshell
