import Webshell.DaemonServe
import Webshell.Provider

/-!
# Recovery behind a request

An action is first applied to whatever workspace the agent has. If the agent
accepts it there, the restored workspace is the one it would have been applied
to at once; if not, the document is not restored at all.
-/

namespace Webshell

open GoText

namespace AgentDaemon

/-! ## Requests to the agent -/

/-- What a request of the caller leaves: the daemon stays bound and open to the caller. -/
structure Follows (d : AgentDaemon) (request : AgentRequest) (d' : AgentDaemon) : Prop where
  binding : SameBinding (d.served request) d'
  ready : d'.Ready request

variable {d d' d₁ d₂ : AgentDaemon} {request : AgentRequest} {platform : AgentPlatform} {work : RequestWork}

theorem SameBinding.trans (h : SameBinding d d₁) (h' : SameBinding d₁ d₂) : SameBinding d d₂ :=
  ⟨h'.selector.trans h.selector, h'.accountID.trans h.accountID, h'.username.trans h.username, h'.closed.trans h.closed⟩

theorem SameBinding.symm (h : SameBinding d d₁) : SameBinding d₁ d :=
  ⟨h.selector.symm, h.accountID.symm, h.username.symm, h.closed.symm⟩

theorem Follows.trans (h : d.Follows request d₁) (h' : d₁.Follows request d₂) : d.Follows request d₂ :=
  ⟨h.binding.again.trans h'.binding, h'.ready⟩

theorem serve_follows (hb : d.begin request platform = d.ensureFor request platform work) (h : d.Ready request) :
    d.Follows request (d.serve request platform).1 := by
  obtain ⟨-, hcurrent, -, hbinding⟩ := serve_accepted hb h.1 h.2
  refine ⟨hbinding, hbinding.closed.trans ((served_closed ..).trans h.1), h.2.again hbinding fun w' hw' => ?_⟩
  rw [hcurrent] at hw'
  exact AgentWorkspace.serve_selector hw'

/-- Two daemons that are bound alike and have the same workspace serve a request alike. -/
theorem serve_alike (hb : ∀ d : AgentDaemon, d.begin request platform = d.ensureFor request platform work)
    (h₁ : d₁.Ready request) (h₂ : d₂.Ready request) (hs : SameBinding (d₁.served request) (d₂.served request))
    (hc : d₁.current = d₂.current) :
    (d₁.serve request platform).2 = (d₂.serve request platform).2 ∧
      (d₁.serve request platform).1.current = (d₂.serve request platform).1.current := by
  obtain ⟨hr₁, hc₁, -⟩ := serve_accepted (hb d₁) h₁.1 h₁.2
  obtain ⟨hr₂, hc₂, -⟩ := serve_accepted (hb d₂) h₂.1 h₂.2
  rw [hr₁, hr₂, hc₁, hc₂, hs.selector, hs.username, hc]
  exact ⟨rfl, rfl⟩

/-- A workspace with a generation is worked on in place. -/
theorem serve_keeps (hb : d.begin request platform = d.ensureFor request platform work) (h : d.Ready request)
    {w : AgentWorkspace} (hw : d.current = some w) (hg : w.workspaceGeneration ≠ "") :
    (d.serve request platform).1.workspace = d.workspace ∧
      (∃ w', (d.serve request platform).1.current = some w' ∧ w'.workspaceGeneration = w.workspaceGeneration) ∧
        ∀ state, (d.serve request platform).2 = .state state → state.WorkspaceGeneration = w.workspaceGeneration := by
  obtain ⟨hresponse, hcurrent, hpointer, -⟩ := serve_accepted hb h.1 h.2
  rw [hresponse, hcurrent, hw]
  obtain ⟨w', hw', -, hkept⟩ := AgentWorkspace.serveOn_keeps (d.served request).selector (d.served request).username
    request platform work w
  have hgen : w'.workspaceGeneration = w.workspaceGeneration := hkept.resolve_right fun hn => hg hn.1
  refine ⟨?_, ⟨w', hw', hgen⟩, fun state hs => ?_⟩
  · cases hp : d.workspace with
    | none =>
      unfold current at hw
      rw [hp] at hw
      cases hw
    | some p => exact hpointer p hp
  · obtain ⟨v, hv, he⟩ := AgentWorkspace.serve_state hs
    have hsome : some v = some w' := hv.symm.trans hw'
    cases hsome
    exact he.trans hgen

theorem restored_follows {document : WorkspaceRecoveryDocument}
    (hb : d.begin request platform = ((d.restoreWorkspace request (some document) platform).1,
      .error (d.restoreWorkspace request (some document) platform).2)) (h : d.Ready request) :
    d.Follows request (d.serve request platform).1 := by
  obtain ⟨hcases, hbinding⟩ := serve_restored hb h.1 h.2
  refine ⟨hbinding, hbinding.closed.trans ((served_closed ..).trans h.1), h.2.again hbinding fun w' hw' => ?_⟩
  rcases hcases with ⟨err, -, he⟩ | ⟨w, response, hr, -, hc⟩
  · rw [he] at hw'
    rw [served_current] at hw'
    exact Or.inr ⟨w', hw', rfl⟩
  · rw [hc] at hw'
    cases hw'
    exact Or.inl (AgentWorkspace.recovered_ok hr).1

/-- Two daemons that are bound alike restore a document alike, whatever they had. -/
theorem restore_alike {document : WorkspaceRecoveryDocument}
    (hb : ∀ d : AgentDaemon, d.begin request platform = ((d.restoreWorkspace request (some document) platform).1,
      .error (d.restoreWorkspace request (some document) platform).2))
    (h₁ : d₁.Ready request) (h₂ : d₂.Ready request) (hs : SameBinding (d₁.served request) (d₂.served request)) :
    (d₁.serve request platform).2 = (d₂.serve request platform).2 ∧
      ((∃ err, (d₁.serve request platform).2 = .failed err) ∨
        (d₁.serve request platform).1.current = (d₂.serve request platform).1.current) := by
  have hc₁ := (serve_restored (hb d₁) h₁.1 h₁.2).1
  have hc₂ := (serve_restored (hb d₂) h₂.1 h₂.2).1
  rw [hs.selector, hs.username] at hc₂
  rcases hc₁ with ⟨err, he, hr⟩ | ⟨w, response, he, hr, hc⟩ <;>
    rcases hc₂ with ⟨err', he', hr'⟩ | ⟨w', response', he', hr', hc'⟩ <;>
    rw [he] at he' <;> cases he'
  · rw [hr, hr']
    exact ⟨rfl, Or.inl ⟨err, rfl⟩⟩
  · rw [hr, hr', hc, hc']
    exact ⟨rfl, Or.inr rfl⟩

end AgentDaemon

open AgentDaemon

/-! ## What is an error to the provider -/

theorem compatible_of_supports {version : String} (h : supportsWorkspaceRecovery version = true) :
    isAttachCompatibleAgentProtocolVersion version = true := by
  unfold supportsWorkspaceRecovery at h
  unfold isAttachCompatibleAgentProtocolVersion
  rw [List.contains_iff_mem] at h ⊢
  obtain ⟨n, hn, he⟩ := List.mem_map.mp h
  rw [List.mem_range'_1] at hn
  refine List.mem_map.mpr ⟨n, ?_, he⟩
  rw [List.mem_range'_1]
  omega

/-- The answers that are a state to the provider. -/
theorem parse_state {version : String} {response : AgentResponse} {state : Workspace.WorkspaceState}
    (h : parsePersistentAgentResponse version response = .ok (.state state)) : response = .state state := by
  unfold parsePersistentAgentResponse at h
  split at h
  · cases h
  · split at h
    · cases h
    · cases h
    · cases h
    · cases h; rfl

theorem parse_rejected (version : String) (reason : AgentRejection) :
    ∃ err, parsePersistentAgentResponse version (.rejected reason) = .error err := by
  unfold parsePersistentAgentResponse
  split
  · exact ⟨_, rfl⟩
  · exact ⟨_, rfl⟩

namespace AgentScope

variable {scope : AgentScope} {d d' d₁ d₂ : AgentDaemon} {request : AgentRequest} {attempts : AgentAttempts}

/-! ## The requests of a scope -/

theorem begin_state (scope : AgentScope) (size : RequestSize) (d : AgentDaemon) (platform : AgentPlatform) :
    d.begin (scope.stateRequest size) platform = d.ensureFor (scope.stateRequest size) platform .state := rfl

theorem begin_action (scope : AgentScope) (size : RequestSize) (action : WorkspaceActionRequest) (d : AgentDaemon)
    (platform : AgentPlatform) : d.begin (scope.actionRequest size action) platform =
      d.ensureFor (scope.actionRequest size action) platform (.action action) := rfl

theorem begin_restore (scope : AgentScope) (size : RequestSize) (document : WorkspaceRecoveryDocument) (d : AgentDaemon)
    (platform : AgentPlatform) : d.begin (scope.restoreRequest size document) platform =
      ((d.restoreWorkspace (scope.restoreRequest size document) (some document) platform).1,
        .error (d.restoreWorkspace (scope.restoreRequest size document) (some document) platform).2) := rfl

theorem validates_state (scope : AgentScope) (size : RequestSize) (d : AgentDaemon) :
    d.validates (scope.stateRequest size) = !d.closed := rfl

theorem validates_action (scope : AgentScope) (size : RequestSize) (action : WorkspaceActionRequest) (d : AgentDaemon) :
    d.validates (scope.actionRequest size action) = !d.closed := rfl

theorem validates_restore (scope : AgentScope) (size : RequestSize) (document : WorkspaceRecoveryDocument)
    (d : AgentDaemon) : d.validates (scope.restoreRequest size document) = !d.closed := rfl

theorem action_restore (scope : AgentScope) (size : RequestSize) (action : WorkspaceActionRequest)
    (document : WorkspaceRecoveryDocument) :
    SameCaller (scope.actionRequest size action) (scope.restoreRequest size document) := ⟨rfl, rfl, rfl⟩

theorem restore_action (scope : AgentScope) (size : RequestSize) (document : WorkspaceRecoveryDocument)
    (action : WorkspaceActionRequest) :
    SameCaller (scope.restoreRequest size document) (scope.actionRequest size action) := ⟨rfl, rfl, rfl⟩

/-! ## Both attempts of a request -/

variable (scope attempts) in
/-- A request that the daemon is not ready for fails, and leaves the workspace alone. -/
theorem request_refused (hr : ∀ d : AgentDaemon, d.validates request = !d.closed) (hn : ¬ d.Ready request) :
    (∃ err, (scope.requestAgentState d request attempts).2 = .error err) ∧
      (scope.requestAgentState d request attempts).1.workspace = d.workspace ∧
      (scope.requestAgentState d request attempts).1.workspaces = d.workspaces := by
  obtain ⟨d₁, reason, he, hn₁, hc₁, hp₁, hw₁⟩ := serve_refused attempts.first (hr d) hn
  obtain ⟨d₂, reason', he', -, -, hp₂, hw₂⟩ := serve_refused attempts.second (hr d₁) hn₁
  obtain ⟨err, hparse⟩ := parse_rejected scope.version reason
  obtain ⟨err', hparse'⟩ := parse_rejected scope.version reason'
  unfold requestAgentState requestPersistentAgent
  simp only [he, hparse, he', hparse']
  exact ⟨⟨_, rfl⟩, hp₂.trans hp₁, hw₂.trans hw₁⟩

/-- The daemon a request leaves is the one its first attempt leaves, or, where that failed, the one its second does. -/
theorem request_attempts (scope : AgentScope) (d : AgentDaemon) (request : AgentRequest) (attempts : AgentAttempts) :
    ((scope.requestAgentState d request attempts).1 = (d.serve request attempts.first).1 ∧
      ∀ state, (scope.requestAgentState d request attempts).2 = .ok state →
        (d.serve request attempts.first).2 = .state state) ∨
    ((scope.requestAgentState d request attempts).1 =
        ((d.serve request attempts.first).1.serve request attempts.second).1 ∧
      ∀ state, (scope.requestAgentState d request attempts).2 = .ok state →
        ((d.serve request attempts.first).1.serve request attempts.second).2 = .state state) := by
  unfold requestAgentState requestPersistentAgent
  simp only
  generalize d.serve request attempts.first = first
  cases hp : parsePersistentAgentResponse scope.version first.2 with
  | ok response =>
    left
    cases response with
    | state state => exact ⟨rfl, fun _ h => by cases h; exact parse_state hp⟩
    | _ => exact ⟨rfl, fun _ h => by cases h⟩
  | error err =>
    right
    generalize first.1.serve request attempts.second = second
    cases hp : parsePersistentAgentResponse scope.version second.2 with
    | error err => exact ⟨rfl, fun _ h => by cases h⟩
    | ok response =>
      cases response with
      | state state => exact ⟨rfl, fun _ h => by cases h; exact parse_state hp⟩
      | _ => exact ⟨rfl, fun _ h => by cases h⟩

theorem request_alike {work : RequestWork}
    (hb : ∀ (d : AgentDaemon) platform, d.begin request platform = d.ensureFor request platform work)
    (h₁ : d₁.Ready request) (h₂ : d₂.Ready request) (hs : SameBinding (d₁.served request) (d₂.served request))
    (hc : d₁.current = d₂.current) :
    (scope.requestAgentState d₁ request attempts).2 = (scope.requestAgentState d₂ request attempts).2 ∧
      (scope.requestAgentState d₁ request attempts).1.current = (scope.requestAgentState d₂ request attempts).1.current := by
  obtain ⟨hr, hcur⟩ := serve_alike (hb · attempts.first) h₁ h₂ hs hc
  have hf₁ := serve_follows (hb d₁ attempts.first) h₁
  have hf₂ := serve_follows (hb d₂ attempts.first) h₂
  have hs' := (hf₁.binding.again.symm.trans hs).trans hf₂.binding.again
  obtain ⟨hr', hcur'⟩ := serve_alike (hb · attempts.second) hf₁.ready hf₂.ready hs' hcur
  unfold requestAgentState requestPersistentAgent
  simp only [hr, hr']
  cases parsePersistentAgentResponse scope.version (d₂.serve request attempts.first).2 with
  | ok response => cases response <;> exact ⟨rfl, hcur⟩
  | error err =>
    cases parsePersistentAgentResponse scope.version
        ((d₂.serve request attempts.first).1.serve request attempts.second).2 with
    | ok response => cases response <;> exact ⟨rfl, hcur'⟩
    | error err => exact ⟨rfl, hcur'⟩

variable (scope attempts) in
/-- The bindings stay those of the caller over both attempts. -/
theorem request_follows {work : RequestWork}
    (hb : ∀ (d : AgentDaemon) platform, d.begin request platform = d.ensureFor request platform work)
    (h : d.Ready request) : d.Follows request (scope.requestAgentState d request attempts).1 := by
  have hf := serve_follows (hb d attempts.first) h
  rcases scope.request_attempts d request attempts with ⟨he, -⟩ | ⟨he, -⟩
  · rw [he]; exact hf
  · rw [he]; exact hf.trans (serve_follows (hb _ attempts.second) hf.ready)

variable (scope attempts) in
theorem request_keeps {work : RequestWork}
    (hb : ∀ (d : AgentDaemon) platform, d.begin request platform = d.ensureFor request platform work)
    (hr : ∀ d : AgentDaemon, d.validates request = !d.closed) {w : AgentWorkspace} (hw : d.current = some w)
    (hg : w.workspaceGeneration ≠ "") :
    (scope.requestAgentState d request attempts).1.workspace = d.workspace ∧
      (∃ w', (scope.requestAgentState d request attempts).1.current = some w' ∧
        w'.workspaceGeneration = w.workspaceGeneration) ∧
      ∀ state, (scope.requestAgentState d request attempts).2 = .ok state →
        state.WorkspaceGeneration = w.workspaceGeneration := by
  by_cases h : d.Ready request
  · obtain ⟨hp, ⟨w', hw', hg'⟩, hs⟩ := serve_keeps (hb d attempts.first) h hw hg
    rcases scope.request_attempts d request attempts with ⟨he, hok⟩ | ⟨he, hok⟩
    · rw [he]
      exact ⟨hp, ⟨w', hw', hg'⟩, fun state h => hs state (hok state h)⟩
    · obtain ⟨hp₂, ⟨v, hv, hgv⟩, hs₂⟩ := serve_keeps (hb _ attempts.second) (serve_follows (hb d attempts.first) h).ready hw'
        (by rw [hg']; exact hg)
      rw [he]
      exact ⟨hp₂.trans hp, ⟨v, hv, hgv.trans hg'⟩, fun state h => (hs₂ state (hok state h)).trans hg'⟩
  · obtain ⟨⟨err, he⟩, hp, hws⟩ := scope.request_refused attempts hr h
    refine ⟨hp, ⟨w, ?_, rfl⟩, fun state h => by rw [he] at h; cases h⟩
    unfold current at hw ⊢
    rw [hp, hws]
    exact hw

/-- The workspace a request leaves is of the generation there was, or of a new one. -/
theorem request_generation {work : RequestWork}
    (hb : ∀ (d : AgentDaemon) platform, d.begin request platform = d.ensureFor request platform work)
    (h : d.Ready request) {w' : AgentWorkspace} (hw : (scope.requestAgentState d request attempts).1.current = some w') :
    (∃ w, d.current = some w ∧ w'.workspaceGeneration = w.workspaceGeneration) ∨
      attempts.first.NewHistoryGeneration = .ok w'.workspaceGeneration ∨
        attempts.second.NewHistoryGeneration = .ok w'.workspaceGeneration := by
  have one : ∀ {d : AgentDaemon} {platform : AgentPlatform} {w' : AgentWorkspace}, d.Ready request →
      (d.serve request platform).1.current = some w' →
        (∃ w, d.current = some w ∧ w'.workspaceGeneration = w.workspaceGeneration) ∨
          platform.NewHistoryGeneration = .ok w'.workspaceGeneration := by
    intro d platform w' h hw
    rw [(serve_accepted (hb d platform) h.1 h.2).2.1] at hw
    exact (AgentWorkspace.serve_generation hw).imp id And.right
  rcases scope.request_attempts d request attempts with ⟨he, -⟩ | ⟨he, -⟩
  · rw [he] at hw
    exact (one h hw).imp id Or.inl
  · rw [he] at hw
    rcases one (serve_follows (hb d attempts.first) h).ready hw with ⟨w, hc, hg⟩ | hn
    · rcases one h hc with ⟨v, hv, hgv⟩ | hn
      · exact Or.inl ⟨v, hv, hg.trans hgv⟩
      · rw [hg]; exact Or.inr (Or.inl hn)
    · exact Or.inr (Or.inr hn)

theorem request_state {work : RequestWork}
    (hb : ∀ (d : AgentDaemon) platform, d.begin request platform = d.ensureFor request platform work)
    (h : d.Ready request) {state : Workspace.WorkspaceState}
    (hok : (scope.requestAgentState d request attempts).2 = .ok state) :
    ∃ w', (scope.requestAgentState d request attempts).1.current = some w' ∧
      state.WorkspaceGeneration = w'.workspaceGeneration := by
  have one : ∀ {d : AgentDaemon} {platform : AgentPlatform}, d.Ready request →
      (d.serve request platform).2 = .state state →
        ∃ w', (d.serve request platform).1.current = some w' ∧ state.WorkspaceGeneration = w'.workspaceGeneration := by
    intro d platform h hstate
    obtain ⟨hresponse, hcurrent, -⟩ := serve_accepted (hb d platform) h.1 h.2
    rw [hresponse] at hstate
    rw [hcurrent]
    exact AgentWorkspace.serve_state hstate
  rcases scope.request_attempts d request attempts with ⟨he, hst⟩ | ⟨he, hst⟩
  · rw [he]
    exact one h (hst state hok)
  · rw [he]
    exact one (serve_follows (hb d attempts.first) h).ready (hst state hok)

/-- A state is only answered by a daemon that was ready for the request. -/
theorem request_ready (hr : ∀ d : AgentDaemon, d.validates request = !d.closed) {state : Workspace.WorkspaceState}
    (h : (scope.requestAgentState d request attempts).2 = .ok state) : d.Ready request := by
  by_contra hn
  obtain ⟨⟨err, he⟩, -⟩ := scope.request_refused attempts hr hn
  rw [he] at h
  cases h

/-! ## Restoring -/

section Restore

variable {size : RequestSize} {document : WorkspaceRecoveryDocument}

theorem parse_failed (version err : String) (response : AgentResponse) :
    parsePersistentAgentResponse version (.failed err) ≠ .ok response := by
  unfold parsePersistentAgentResponse
  intro h
  split at h <;> cases h

variable (scope attempts) in
/-- Whatever two daemons of one caller have, the document is restored alike. -/
theorem restore_state_alike (h₁ : d₁.Ready (scope.restoreRequest size document))
    (h₂ : d₂.Ready (scope.restoreRequest size document))
    (hs : SameBinding (d₁.served (scope.restoreRequest size document)) (d₂.served (scope.restoreRequest size document))) :
    (scope.requestAgentState d₁ (scope.restoreRequest size document) attempts).2 =
        (scope.requestAgentState d₂ (scope.restoreRequest size document) attempts).2 ∧
      ∀ state, (scope.requestAgentState d₁ (scope.restoreRequest size document) attempts).2 = .ok state →
        (scope.requestAgentState d₁ (scope.restoreRequest size document) attempts).1.current =
          (scope.requestAgentState d₂ (scope.restoreRequest size document) attempts).1.current := by
  obtain ⟨hr, hcur⟩ := restore_alike (begin_restore scope size document · attempts.first) h₁ h₂ hs
  have hf₁ := restored_follows (begin_restore scope size document d₁ attempts.first) h₁
  have hf₂ := restored_follows (begin_restore scope size document d₂ attempts.first) h₂
  have hs' := (hf₁.binding.again.symm.trans hs).trans hf₂.binding.again
  obtain ⟨hr', hcur'⟩ := restore_alike (begin_restore scope size document · attempts.second) hf₁.ready hf₂.ready hs'
  unfold requestAgentState requestPersistentAgent
  simp only
  rw [hr, hr']
  cases hp : parsePersistentAgentResponse scope.version
      (d₂.serve (scope.restoreRequest size document) attempts.first).2 with
  | ok response =>
    have hc := hcur.resolve_left fun ⟨err, he⟩ => by rw [← hr, he] at hp; exact parse_failed _ _ _ hp
    cases response <;> exact ⟨rfl, fun _ _ => hc⟩
  | error err =>
    cases hp : parsePersistentAgentResponse scope.version ((d₂.serve (scope.restoreRequest size document)
        attempts.first).1.serve (scope.restoreRequest size document) attempts.second).2 with
    | ok response =>
      have hc := hcur'.resolve_left fun ⟨err, he⟩ => by rw [← hr', he] at hp; exact parse_failed _ _ _ hp
      cases response <;> exact ⟨rfl, fun _ _ => hc⟩
    | error err => exact ⟨rfl, fun _ h => by cases h⟩

/-- The agent that a document has been restored into. -/
theorem restore_state_ok (h : d.Ready (scope.restoreRequest size document)) {state : Workspace.WorkspaceState}
    (hok : (scope.requestAgentState d (scope.restoreRequest size document) attempts).2 = .ok state) :
    d.Follows (scope.restoreRequest size document)
        (scope.requestAgentState d (scope.restoreRequest size document) attempts).1 ∧
      ∃ w, (scope.requestAgentState d (scope.restoreRequest size document) attempts).1.current = some w ∧
        state.WorkspaceGeneration = w.workspaceGeneration ∧
        (attempts.first.NewHistoryGeneration = .ok w.workspaceGeneration ∨
          attempts.second.NewHistoryGeneration = .ok w.workspaceGeneration) := by
  have one : ∀ {d : AgentDaemon} {platform : AgentPlatform}, d.Ready (scope.restoreRequest size document) →
      (d.serve (scope.restoreRequest size document) platform).2 = .state state →
        ∃ w, (d.serve (scope.restoreRequest size document) platform).1.current = some w ∧
          state.WorkspaceGeneration = w.workspaceGeneration ∧ platform.NewHistoryGeneration = .ok w.workspaceGeneration := by
    intro d platform h hstate
    rcases (serve_restored (begin_restore scope size document d platform) h.1 h.2).1 with ⟨err, -, he⟩ | ⟨w, response, hrec, hresponse, hc⟩
    · rw [he] at hstate; cases hstate
    · obtain ⟨-, hg, st, hst, hsg⟩ := AgentWorkspace.recovered_ok hrec
      rw [hresponse, hst] at hstate
      cases hstate
      exact ⟨w, hc, hsg, hg⟩
  have hf := restored_follows (begin_restore scope size document d attempts.first) h
  rcases scope.request_attempts d (scope.restoreRequest size document) attempts with ⟨he, hst⟩ | ⟨he, hst⟩
  · obtain ⟨w, hc, hsg, hg⟩ := one h (hst state hok)
    rw [he]
    exact ⟨hf, w, hc, hsg, Or.inl hg⟩
  · obtain ⟨w, hc, hsg, hg⟩ := one hf.ready (hst state hok)
    rw [he]
    exact ⟨hf.trans (restored_follows (begin_restore scope size document _ attempts.second) hf.ready), w, hc, hsg, Or.inr hg⟩

theorem restore_eq (hv : supportsWorkspaceRecovery scope.version = true) (d : AgentDaemon) :
    scope.requestAgentWorkspaceRestore size document d attempts =
      scope.requestAgentState d (scope.restoreRequest size document) attempts := by
  unfold requestAgentWorkspaceRestore
  cases scope.requestAgentState d (scope.restoreRequest size document) attempts with
  | mk d result =>
    cases result with
    | error err => rfl
    | ok state => simp only [hv, if_true]

end Restore

end AgentScope

/-! ## An action behind a recovery -/

/-- New generations are new, and none of them is the document's. -/
structure GenerationsApart (d : AgentDaemon) (document : WorkspaceRecoveryDocument) (env : RecoveryEnv) : Prop where
  current : ∀ w, d.current = some w → w.workspaceGeneration ≠ document.WorkspaceGeneration
  created : ∀ platform ∈ [env.request.first, env.request.second],
    platform.NewHistoryGeneration ≠ .ok document.WorkspaceGeneration
  restored : ∀ platform ∈ [env.restore.first, env.restore.second], ∀ workspaceGeneration,
    platform.NewHistoryGeneration = .ok workspaceGeneration →
      (∀ w, d.current = some w → w.workspaceGeneration ≠ workspaceGeneration) ∧
        ∀ earlier ∈ [env.request.first, env.request.second], earlier.NewHistoryGeneration ≠ .ok workspaceGeneration

/-- The same state or error is returned, and the agent has the same workspace. -/
def SameOutcome (a b : AgentDaemon × Except ProviderError Workspace.WorkspaceState) : Prop :=
  a.2 = b.2 ∧ a.1.current = b.1.current

def Recovered.outcome (r : Recovered) : AgentDaemon × Except ProviderError Workspace.WorkspaceState :=
  (r.provider.daemon, r.result)

theorem newGeneration_trimmed {platform : AgentPlatform} {workspaceGeneration : String}
    (h : platform.NewHistoryGeneration = .ok workspaceGeneration) : Trimmed workspaceGeneration := by
  unfold AgentPlatform.NewHistoryGeneration at h
  cases hr : platform.random with
  | error err => rw [hr] at h; cases h
  | ok data =>
    rw [hr] at h
    cases h
    apply encodeToString_trimmed
    intro he
    have hlen := data.property
    rw [he] at hlen
    cases hlen

theorem load_epoch {stored : RecoveryStore} {epoch : String} {readable : Bool} {document : WorkspaceRecoveryDocument}
    (h : stored.load epoch readable = some document) : trimSpace epoch ≠ "" ∧ stored = some document := by
  unfold RecoveryStore.load at h
  split at h
  · cases h
  · rename_i hn
    exact ⟨fun he => hn (Or.inl he), (Option.filter_eq_some_iff.mp h).1⟩

theorem AgentDaemon.SameCaller.ready {d : AgentDaemon} {request request' : AgentRequest} (h : SameCaller request request')
    (hr : d.Ready request) : d.Ready request' := ⟨hr.1, h.accepts hr.2⟩

theorem AgentDaemon.SameCaller.follows {d d' : AgentDaemon} {request request' : AgentRequest}
    (h : SameCaller request request') (hf : d.Follows request d') : d.Follows request' d' :=
  ⟨by rw [h.served]; exact hf.binding, h.ready hf.ready⟩

namespace Provider

theorem refused_outcome {p : Provider} {scope : AgentScope} {size : RequestSize} {epoch : String}
    {action : WorkspaceActionRequest} {env : RecoveryEnv} {d : AgentDaemon} {err : ProviderError}
    (h : scope.requestAgentState p.daemon (scope.actionRequest size action) env.request = (d, .error err)) :
    (p.requestWorkspaceActionWithRecovery scope size epoch action env).outcome = (d, .error err) := by
  unfold requestWorkspaceActionWithRecovery AgentScope.requestAgentWorkspaceAction
  rw [h]
  rfl

theorem restoreThenApply_ok {scope : AgentScope} {size : RequestSize} {document : WorkspaceRecoveryDocument}
    {action : WorkspaceActionRequest} {d : AgentDaemon} {env : RecoveryEnv} {state : Workspace.WorkspaceState}
    (hversion : supportsWorkspaceRecovery scope.version = true)
    (h : (scope.requestAgentState d (scope.restoreRequest size document) env.restore).2 = .ok state) :
    restoreThenApply scope size document action d env = scope.requestAgentState
      (scope.requestAgentState d (scope.restoreRequest size document) env.restore).1 (scope.actionRequest size action)
      env.again := by
  unfold restoreThenApply AgentScope.requestAgentWorkspaceAction
  rw [scope.restore_eq hversion]
  generalize scope.requestAgentState d (scope.restoreRequest size document) env.restore = made at h
  obtain ⟨d, result⟩ := made
  cases h
  rfl

/-- The agent accepts the action where it is: the document is restored, and the action applied again. -/
theorem accepted_outcome {p : Provider} {scope : AgentScope} {size : RequestSize} {epoch : String}
    {action : WorkspaceActionRequest} {env : RecoveryEnv} {document : WorkspaceRecoveryDocument}
    (hversion : supportsWorkspaceRecovery scope.version = true)
    (hload : p.stored.load epoch env.readable = some document) {d : AgentDaemon} {state : Workspace.WorkspaceState}
    (hrequest : scope.requestAgentState p.daemon (scope.actionRequest size action) env.request = (d, .ok state))
    (hne : document.WorkspaceGeneration ≠ state.WorkspaceGeneration) :
    (p.requestWorkspaceActionWithRecovery scope size epoch action env).outcome =
      restoreThenApply scope size document action d env := by
  unfold requestWorkspaceActionWithRecovery restoreThenApply AgentScope.requestAgentWorkspaceAction reconcile
  rw [hrequest]
  simp only [if_neg (load_epoch hload).1, hload, if_neg hne, hversion, Bool.not_true, Bool.false_eq_true, if_false]
  cases scope.requestAgentWorkspaceRestore size document d env.restore with
  | mk d result =>
    cases result with
    | error err => rfl
    | ok state =>
      simp only
      cases scope.requestAgentState d (scope.actionRequest size action) env.again with
      | mk d result => cases result <;> rfl

/-- An action that is applied where the agent is comes out as behind a restore if and only if the
workspace the agent has accepts it. -/
theorem recovery_transparent_iff {p : Provider} {scope : AgentScope} {size : RequestSize} {epoch : String}
    {action : WorkspaceActionRequest} {env : RecoveryEnv} {document : WorkspaceRecoveryDocument}
    (hversion : supportsWorkspaceRecovery scope.version = true)
    (hload : p.stored.load epoch env.readable = some document) (hapart : GenerationsApart p.daemon document env)
    (hrestore : ∃ state, (scope.requestAgentWorkspaceRestore size document p.daemon env.restore).2 = .ok state) :
    SameOutcome (p.requestWorkspaceActionWithRecovery scope size epoch action env).outcome
        (restoreThenApply scope size document action p.daemon env) ↔
      ∃ state, (scope.requestAgentWorkspaceAction size action p.daemon env.request).2 = .ok state := by
  have hb := scope.begin_action size action
  have hcaller := scope.restore_action size document action
  have hcaller' := scope.action_restore size action document
  obtain ⟨restored, hok⟩ := hrestore
  rw [scope.restore_eq hversion] at hok
  have hready : p.daemon.Ready (scope.restoreRequest size document) := scope.request_ready (scope.validates_restore size document) hok
  obtain ⟨hfollows, w, hw, -, hgen⟩ := scope.restore_state_ok hready hok
  have hreadyAction := hcaller.ready hready
  rw [restoreThenApply_ok hversion hok]
  unfold AgentScope.requestAgentWorkspaceAction
  constructor
  · intro hsame
    cases hrequest : scope.requestAgentState p.daemon (scope.actionRequest size action) env.request with
    | mk d result =>
      cases result with
      | ok state => exact ⟨state, rfl⟩
      | error err =>
        exfalso
        have hgenerations := hapart.restored
        have hne : w.workspaceGeneration ≠ "" := by
          rcases hgen with hg | hg <;> exact (newGeneration_trimmed hg).2
        obtain ⟨-, ⟨v, hv, hvw⟩, -⟩ := scope.request_keeps env.again hb (scope.validates_action size action) hw hne
        rw [refused_outcome hrequest] at hsame
        have hcurrent : (scope.requestAgentState p.daemon (scope.actionRequest size action) env.request).1.current =
            some v := by
          rw [hrequest]
          exact hsame.2.trans hv
        have hapartFrom : (∀ w', p.daemon.current = some w' → w'.workspaceGeneration ≠ w.workspaceGeneration) ∧
            ∀ earlier ∈ [env.request.first, env.request.second], earlier.NewHistoryGeneration ≠ .ok w.workspaceGeneration := by
          rcases hgen with hg | hg
          · exact hgenerations _ (by simp) _ hg
          · exact hgenerations _ (by simp) _ hg
        rcases scope.request_generation hb hreadyAction hcurrent with ⟨w', hw', hg⟩ | hg | hg
        · exact hapartFrom.1 w' hw' (hg.symm.trans hvw)
        · exact hapartFrom.2 _ (by simp) (hg.trans (congrArg Except.ok hvw))
        · exact hapartFrom.2 _ (by simp) (hg.trans (congrArg Except.ok hvw))
  · rintro ⟨state, hstate⟩
    have hfirst := scope.request_follows env.request hb hreadyAction
    obtain ⟨w', hw', hsg⟩ := scope.request_state hb hreadyAction hstate
    have hne : document.WorkspaceGeneration ≠ state.WorkspaceGeneration := by
      rw [hsg]
      rcases scope.request_generation hb hreadyAction hw' with ⟨v, hv, hg⟩ | hg | hg
      · rw [hg]; exact (hapart.current v hv).symm
      · exact fun he => hapart.created env.request.first (by simp) (by rw [he]; exact hg)
      · exact fun he => hapart.created env.request.second (by simp) (by rw [he]; exact hg)
    have hpair : scope.requestAgentState p.daemon (scope.actionRequest size action) env.request =
        ((scope.requestAgentState p.daemon (scope.actionRequest size action) env.request).1, .ok state) := by
      rw [← hstate]
    have houtcome := accepted_outcome hversion hload hpair hne
    have hfirst' := hcaller'.follows hfirst
    obtain ⟨hresult, hcur⟩ := scope.restore_state_alike env.restore hready hfirst'.ready
      hfirst'.binding.again
    have hok' := hresult.symm.trans hok
    obtain ⟨hfollows', -⟩ := scope.restore_state_ok hfirst'.ready hok'
    have hboth : SameBinding
        ((scope.requestAgentState (scope.requestAgentState p.daemon (scope.actionRequest size action) env.request).1
          (scope.restoreRequest size document) env.restore).1.served (scope.actionRequest size action))
        ((scope.requestAgentState p.daemon (scope.restoreRequest size document) env.restore).1.served
          (scope.actionRequest size action)) := by
      rw [hcaller.served, hcaller.served]
      exact (hfirst'.binding.again.trans hfollows'.binding.again).symm.trans hfollows.binding.again
    rw [houtcome, restoreThenApply_ok hversion hok']
    exact scope.request_alike hb (hcaller.ready hfollows'.ready) (hcaller.ready hfollows.ready) hboth
      (hcur restored hok).symm

/-! ## A saved tab that the fresh workspace does not have -/

def savedTab : WorkspaceRecoveryDocument where
  Version := 1
  Epoch := "e"
  WorkspaceGeneration := "saved"
  ActiveTabID := "tab-7"
  RecentTabIDs := []
  Tabs := [{
    ID := "tab-7", Label := "a", CustomLabel := false, ActivePaneID := "pane-9", Layout := leafNode "pane-9" 0
    Panes := [{ ID := "pane-9", CWD := "" }] }]

def steadyPlatform (byte : Fin 256) : AgentPlatform where
  random := .ok ⟨List.replicate 16 byte, by simp⟩
  spawn := fun _ => .ok "/"
  activities := .ok []

def steadyAttempts (byte : Fin 256) : AgentAttempts := ⟨steadyPlatform byte, steadyPlatform byte⟩

/-- Every generation is made of one byte: 0 for a fresh workspace, 1 for a restored one. -/
def steadyEnv : RecoveryEnv where
  request := steadyAttempts 0
  restore := steadyAttempts 1
  again := steadyAttempts 2
  readable := true
  written := true

def ownScope : AgentScope := { Selector := "s", AccountID := "a", username := "u", version := AgentProtocolVersion }

def ownSize : RequestSize := ⟨120, 32, 5000⟩

/-- The agent has just been started; the document is what its predecessor left. -/
def restarted : Provider := ⟨AgentDaemon.start "s" "a" "u", some savedTab⟩

theorem steady_apart : GenerationsApart restarted.daemon savedTab steadyEnv where
  current := fun w hw => by cases hw
  created := by decide +kernel
  restored := by
    intro platform hp workspaceGeneration hg
    simp only [List.mem_cons, List.not_mem_nil, or_false] at hp
    refine ⟨(fun w hw => by cases hw), ?_⟩
    rcases hp with rfl | rfl <;> cases hg <;> decide +kernel

theorem recovery_transparent_createTab :
    SameOutcome (restarted.requestWorkspaceActionWithRecovery ownScope ownSize "e" { Action := .createTab } steadyEnv).outcome
        (restoreThenApply ownScope ownSize savedTab { Action := .createTab } restarted.daemon steadyEnv) ↔
      ∃ state, (ownScope.requestAgentWorkspaceAction ownSize { Action := .createTab } restarted.daemon
        steadyEnv.request).2 = .ok state :=
  recovery_transparent_iff (by decide +kernel) rfl steady_apart ⟨_, rfl⟩

/-- The saved tab cannot be renamed: the fresh workspace does not have it. -/
theorem rename_before_recovery :
    ¬ SameOutcome (restarted.requestWorkspaceActionWithRecovery ownScope ownSize "e"
        { Action := .renameTab, TabID := "tab-7", Label := "b" } steadyEnv).outcome
      (restoreThenApply ownScope ownSize savedTab { Action := .renameTab, TabID := "tab-7", Label := "b" }
        restarted.daemon steadyEnv) := by
  intro h
  cases h.1

end Provider

end Webshell
