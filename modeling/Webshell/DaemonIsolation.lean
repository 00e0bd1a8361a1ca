import Webshell.Daemon

/-!
# Accounts and selectors of a daemon

The two validators bind what the daemon has not bound yet while they check. A
request whose selector is bound by the first and whose account is refused by the
second leaves that selector behind; every other refused request leaves nothing.
-/

namespace Webshell

open GoText

def AgentRejection.isMismatch : AgentRejection → Bool
  | .selectorMismatch .. => true
  | .workspaceSelectorMismatch .. => true
  | .accountRequired => true
  | .accountMismatch .. => true
  | _ => false

def AgentResponse.isRejected : AgentResponse → Bool
  | .rejected _ => true
  | _ => false

/-- The request is turned away because its selector or its account does not match. -/
def AgentResponse.isMismatch : AgentResponse → Bool
  | .rejected reason => reason.isMismatch
  | _ => false

def mismatched (response : Option AgentResponse) : Bool := response.any AgentResponse.isMismatch

namespace AgentDaemon

/-- The request gets as far as the validators. -/
def validates (d : AgentDaemon) (request : AgentRequest) : Bool :=
  match request.RequestType, request.Action with
  | .ping, _ => true
  | .unknown _, _ => false
  | .action, none => false
  | .action, some (.restoreWorkspace none) => false
  | _, _ => !d.closed

def AccountRefused (d : AgentDaemon) (request : AgentRequest) : Prop :=
  d.accountID ≠ "" ∧ trimSpace request.AccountID ≠ d.accountID

/-- The selector is the first one the daemon sees. -/
def SelectorBinds (d : AgentDaemon) (selector : String) : Prop :=
  d.selector = "" ∧ trimSpace selector ≠ "" ∧ (d.workspaceSelector = "" ∨ d.workspaceSelector = trimSpace selector)

/-- The request brings the daemon its selector, and another account than the daemon's. -/
def HalfBinds (d : AgentDaemon) (request : AgentRequest) : Prop :=
  d.validates request = true ∧ d.SelectorBinds request.Selector ∧ d.AccountRefused request

/-! ## The validators -/

theorem validateSelector_cases (d : AgentDaemon) (selector : String) :
    (¬ d.SelectorBinds selector ∧
      ∃ reason, d.validateRequestSelectorLocked selector = .error reason ∧ reason.isMismatch = true) ∨
    (¬ d.SelectorBinds selector ∧ d.validateRequestSelectorLocked selector = .ok d) ∨
    (d.SelectorBinds selector ∧
      d.validateRequestSelectorLocked selector = .ok { d with selector := trimSpace selector }) := by
  unfold validateRequestSelectorLocked SelectorBinds
  simp only
  by_cases hs : trimSpace selector = ""
  · rw [if_pos hs]
    exact Or.inr (Or.inl ⟨fun h => h.2.1 hs, rfl⟩)
  · rw [if_neg hs]
    by_cases hd : d.selector ≠ "" ∧ d.selector ≠ trimSpace selector
    · rw [if_pos hd]
      exact Or.inl ⟨fun h => hd.1 h.1, _, rfl, rfl⟩
    · rw [if_neg hd]
      by_cases hw : d.workspaceSelector ≠ "" ∧ d.workspaceSelector ≠ trimSpace selector
      · rw [if_pos hw]
        exact Or.inl ⟨fun h => h.2.2.elim hw.1 hw.2, _, rfl, rfl⟩
      · rw [if_neg hw]
        by_cases he : d.selector = ""
        · refine Or.inr (Or.inr ⟨⟨he, hs, ?_⟩, rfl⟩)
          by_cases hwe : d.workspaceSelector = ""
          · exact Or.inl hwe
          · exact Or.inr (not_not.mp fun hne => hw ⟨hwe, hne⟩)
        · have hsame : d.selector = trimSpace selector := not_not.mp fun hne => hd ⟨he, hne⟩
          exact Or.inr (Or.inl ⟨fun h => he h.1, by rw [← hsame]⟩)

theorem validateAccount_cases (d : AgentDaemon) (request : AgentRequest) :
    (d.AccountRefused request ∧
      ∃ reason, d.validateRequestAccountLocked request.AccountID = .error reason ∧ reason.isMismatch = true) ∨
    (¬ d.AccountRefused request ∧ d.validateRequestAccountLocked request.AccountID = .ok {
      d with accountID := if d.accountID = "" then trimSpace request.AccountID else d.accountID }) := by
  unfold validateRequestAccountLocked AccountRefused
  simp only
  by_cases ha : trimSpace request.AccountID = ""
  · rw [if_pos ha]
    by_cases hd : d.accountID = ""
    · rw [if_neg (not_not.mpr hd)]
      refine Or.inr ⟨fun h => h.1 hd, ?_⟩
      rw [if_pos hd, ha, ← hd]
    · left
      refine ⟨⟨hd, fun h => hd (h.symm.trans ha)⟩, .accountRequired, ?_, rfl⟩
      rw [if_pos hd]
  · rw [if_neg ha]
    by_cases hd : d.accountID ≠ "" ∧ d.accountID ≠ trimSpace request.AccountID
    · rw [if_pos hd]
      exact Or.inl ⟨⟨hd.1, fun h => hd.2 h.symm⟩, _, rfl, rfl⟩
    · rw [if_neg hd]
      refine Or.inr ⟨fun h => hd ⟨h.1, fun h' => h.2 h'.symm⟩, ?_⟩
      by_cases he : d.accountID = ""
      · rw [if_pos he]
      · rw [if_neg he, ← not_not.mp fun hne => hd ⟨he, hne⟩]

/-- A refused request leaves the daemon as it was, but for the selector that the first validator bound. -/
theorem validate_refused {d d' : AgentDaemon} {request : AgentRequest} {reason : AgentRejection}
    (h : d.validate request = (d', some reason)) (hv : d.validates request = true) :
    reason.isMismatch = true ∧ (d' = d ↔ ¬ d.HalfBinds request) := by
  unfold validate at h
  rcases validateSelector_cases d request.Selector with ⟨hb, _, he, hm⟩ | ⟨hb, he⟩ | ⟨hb, he⟩
  · simp only [he] at h
    cases h
    exact ⟨hm, fun _ hh => hb hh.2.1, fun _ => rfl⟩
  · simp only [he] at h
    rcases validateAccount_cases d request with ⟨-, _, ha, hm⟩ | ⟨-, ha⟩
    · simp only [ha] at h
      cases h
      exact ⟨hm, fun _ hh => hb hh.2.1, fun _ => rfl⟩
    · simp only [ha] at h
      cases h
  · simp only [he] at h
    rcases validateAccount_cases { d with selector := trimSpace request.Selector } request with
      ⟨hr, _, ha, hm⟩ | ⟨-, ha⟩
    · simp only [ha] at h
      cases h
      refine ⟨hm, fun hc => ?_, fun hn => absurd ⟨hv, hb, hr⟩ hn⟩
      have hsel := congrArg AgentDaemon.selector hc
      exact absurd (hsel.trans hb.1) hb.2.1
    · simp only [ha] at h
      cases h

theorem validate_refused_account {d d' : AgentDaemon} {request : AgentRequest} {reason : AgentRejection}
    (h : d.validate request = (d', some reason)) : d'.accountID = d.accountID := by
  unfold validate at h
  rcases validateSelector_cases d request.Selector with ⟨-, _, he, -⟩ | ⟨-, he⟩ | ⟨-, he⟩
  · simp only [he] at h
    cases h; rfl
  · simp only [he] at h
    split at h <;> cases h
    rfl
  · simp only [he] at h
    split at h <;> cases h
    rfl

/-- An accepted request carries the daemon's account, and brings it where there was none. -/
theorem validate_accepted {d d' : AgentDaemon} {request : AgentRequest} (h : d.validate request = (d', none)) :
    ¬ d.AccountRefused request ∧
      d'.accountID = (if d.accountID = "" then trimSpace request.AccountID else d.accountID) := by
  unfold validate at h
  rcases validateSelector_cases d request.Selector with ⟨-, _, he, -⟩ | ⟨-, he⟩ | ⟨-, he⟩
  · simp only [he] at h
    cases h
  · simp only [he] at h
    rcases validateAccount_cases d request with ⟨-, _, ha, -⟩ | ⟨hr, ha⟩
    · simp only [ha] at h
      cases h
    · simp only [ha] at h
      cases h
      exact ⟨hr, rfl⟩
  · simp only [he] at h
    rcases validateAccount_cases { d with selector := trimSpace request.Selector } request with
      ⟨-, _, ha, -⟩ | ⟨hr, ha⟩
    · simp only [ha] at h
      cases h
    · simp only [ha] at h
      cases h
      exact ⟨hr, rfl⟩

/-! ## The handlers -/

/-- What the locked part of a request does when its validators are passed: an answer that is no
rejection, or work on a workspace, for the account that was validated. -/
def Serves (d : AgentDaemon) (begun : AgentDaemon × Begun) : Prop :=
  begun.1.accountID = d.accountID ∧ ∀ response, begun.2 = .error response → response.isRejected = false

/-- Each handler answers a refused request with the refusal, leaves what the validators left,
and serves every other one. -/
structure Handles (d : AgentDaemon) (request : AgentRequest) (begun : AgentDaemon × Begun) : Prop where
  refused : ∀ reason, (d.validate request).2 = some reason → begun = ((d.validate request).1, .error (.rejected reason))
  served : (d.validate request).2 = none → (d.validate request).1.Serves begun

theorem createWorkspace_account (d : AgentDaemon) (request : AgentRequest) (platform : AgentPlatform) :
    (d.createWorkspace request platform).1.accountID = d.accountID := by
  unfold createWorkspace
  split
  · rfl
  · simp only
    split <;> rfl

theorem prepare_account (d : AgentDaemon) (request : AgentRequest) (platform : AgentPlatform) :
    (d.prepareWorkspace request platform).1.accountID = d.accountID ∧
      ∀ response, (d.prepareWorkspace request platform).2 = .error response → response.isRejected = false := by
  unfold prepareWorkspace
  cases d.workspace with
  | none => exact ⟨rfl, fun _ h => by cases h; rfl⟩
  | some p =>
    simp only
    split
    · exact ⟨rfl, fun _ h => by cases h; rfl⟩
    · exact ⟨rfl, fun _ h => by cases h⟩

theorem Serves.withWork {d : AgentDaemon} {ensured : AgentDaemon × Except AgentResponse Nat} (work : RequestWork)
    (h : ensured.1.accountID = d.accountID ∧ ∀ response, ensured.2 = .error response → response.isRejected = false) :
    d.Serves (withWork ensured work) := by
  obtain ⟨u, result⟩ := ensured
  cases result with
  | error response => exact ⟨h.1, fun _ he => by cases he; exact h.2 response rfl⟩
  | ok p => exact ⟨h.1, fun _ he => by cases he⟩

theorem ensure_handles {d : AgentDaemon} (hc : d.closed = false) (request : AgentRequest) (platform : AgentPlatform)
    (work : RequestWork) : d.Handles request (d.ensureFor request platform work) := by
  unfold ensureFor ensureWorkspaceLocked
  simp only [hc, Bool.false_eq_true, if_false]
  cases hv : d.validate request with
  | mk v reason =>
    cases reason with
    | some reason => exact ⟨fun _ h => (by rw [hv] at h ⊢; cases h; rfl), fun h => (by rw [hv] at h; cases h)⟩
    | none =>
      refine ⟨fun _ h => (by rw [hv] at h; cases h), fun _ => ?_⟩
      rw [hv]
      apply Serves.withWork
      simp only
      have ha : (v.rememberUsername request.Username).accountID = v.accountID := rfl
      generalize v.rememberUsername request.Username = u at ha ⊢
      have hu : (if u.workspace = none then u.createWorkspace request platform else (u, none)).1.accountID =
          v.accountID := by
        split
        · rw [createWorkspace_account, ha]
        · exact ha
      generalize (if u.workspace = none then u.createWorkspace request platform else (u, none)) = c at hu ⊢
      obtain ⟨c, err⟩ := c
      cases err with
      | some err => exact ⟨hu, fun _ h => by cases h; rfl⟩
      | none => exact ⟨(prepare_account ..).1.trans hu, (prepare_account ..).2⟩

theorem ping_handles (d : AgentDaemon) (request : AgentRequest) : d.Handles request (d.beginPing request) := by
  unfold beginPing
  cases hv : d.validate request with
  | mk v reason =>
    cases reason with
    | some reason => exact ⟨fun _ h => (by rw [hv] at h ⊢; cases h; rfl), fun h => (by rw [hv] at h; cases h)⟩
    | none => exact ⟨fun _ h => (by rw [hv] at h; cases h), fun _ => (by rw [hv]; exact ⟨rfl, fun _ h => by cases h; rfl⟩)⟩

theorem inspect_handles {d : AgentDaemon} (hc : d.closed = false) (request : AgentRequest) :
    d.Handles request (d.inspectWorkspace request) := by
  unfold inspectWorkspace
  simp only [hc, Bool.false_eq_true, if_false]
  cases hv : d.validate request with
  | mk v reason =>
    cases reason with
    | some reason => exact ⟨fun _ h => (by rw [hv] at h ⊢; cases h; rfl), fun h => (by rw [hv] at h; cases h)⟩
    | none =>
      refine ⟨fun _ h => (by rw [hv] at h; cases h), fun _ => ?_⟩
      rw [hv]
      simp only
      cases v.workspace with
      | none => exact ⟨rfl, fun _ h => by cases h; rfl⟩
      | some p => exact ⟨rfl, fun _ h => by cases h⟩

theorem restore_handles {d : AgentDaemon} (hc : d.closed = false) (request : AgentRequest)
    (document : WorkspaceRecoveryDocument) (platform : AgentPlatform) :
    d.Handles request ((d.restoreWorkspace request (some document) platform).1,
      .error (d.restoreWorkspace request (some document) platform).2) := by
  unfold restoreWorkspace
  simp only [hc, Bool.false_eq_true, if_false]
  cases hv : d.validate request with
  | mk v reason =>
    cases reason with
    | some reason => exact ⟨fun _ h => (by rw [hv] at h ⊢; cases h; rfl), fun h => (by rw [hv] at h; cases h)⟩
    | none =>
      refine ⟨fun _ h => (by rw [hv] at h; cases h), fun _ => ?_⟩
      rw [hv]
      simp only
      have ha : (v.rememberUsername request.Username).accountID = v.accountID := rfl
      generalize v.rememberUsername request.Username = u at ha ⊢
      generalize Workspace.newRecoveredTerminalWorkspace document u.selector u.username (NormalizeCols request.Cols)
        (NormalizeRows request.Rows) platform.NewHistoryGeneration platform.spawn = made
      obtain ⟨made, err⟩ := made
      cases made with
      | none => exact ⟨ha, fun _ h => by cases h; rfl⟩
      | some made =>
        cases err with
        | some err => exact ⟨ha, fun _ h => by cases h; rfl⟩
        | none =>
          simp only
          cases u.workspace with
          | none => exact ⟨ha, fun _ h => by cases h; rfl⟩
          | some p => exact ⟨ha, fun _ h => by cases h; rfl⟩

theorem begin_handles {d : AgentDaemon} {request : AgentRequest} (h : d.validates request = true)
    (platform : AgentPlatform) : d.Handles request (d.begin request platform) := by
  have hopen : ∀ {b : Bool}, (!b) = true → b = false := fun {b} hb => by cases b <;> first | rfl | cases hb
  unfold validates at h
  unfold begin
  cases ht : request.RequestType with
  | ping => exact ping_handles d request
  | state => exact ensure_handles (hopen (by simpa [ht] using h)) request platform _
  | inspect => exact inspect_handles (hopen (by simpa [ht] using h)) request
  | activity => exact ensure_handles (hopen (by simpa [ht] using h)) request platform _
  | attach => exact ensure_handles (hopen (by simpa [ht] using h)) request platform _
  | unknown name => simp [ht] at h
  | action =>
    simp only
    unfold beginAction
    cases ha : request.Action with
    | none => simp [ht, ha] at h
    | some action =>
      cases action with
      | restoreWorkspace recovery =>
        cases recovery with
        | none => simp [ht, ha] at h
        | some document => exact restore_handles (hopen (by simpa [ht, ha] using h)) request document platform
      | apply action => exact ensure_handles (hopen (by simpa [ht, ha] using h)) request platform _

/-- A request that does not reach the validators changes nothing. -/
theorem begin_unvalidated {d : AgentDaemon} {request : AgentRequest} (h : d.validates request = false)
    (platform : AgentPlatform) :
    ∃ reason, d.begin request platform = (d, .error (.rejected reason)) ∧ reason.isMismatch = false := by
  have hclosed : ∀ {b : Bool}, (!b) = false → b = true := fun {b} hb => by cases b <;> first | rfl | cases hb
  have hensure : d.closed = true → ∀ work, d.ensureFor request platform work = (d, .error (.rejected .accessDisabled)) := by
    intro hc work
    unfold ensureFor ensureWorkspaceLocked
    rw [if_pos hc]
    rfl
  unfold validates at h
  unfold begin
  cases ht : request.RequestType with
  | ping => simp [ht] at h
  | state => exact ⟨_, hensure (hclosed (by simpa [ht] using h)) _, rfl⟩
  | inspect =>
    refine ⟨.accessDisabled, ?_, rfl⟩
    simp only
    unfold inspectWorkspace
    rw [if_pos (hclosed (by simpa [ht] using h))]
  | activity => exact ⟨_, hensure (hclosed (by simpa [ht] using h)) _, rfl⟩
  | attach => exact ⟨_, hensure (hclosed (by simpa [ht] using h)) _, rfl⟩
  | unknown name => exact ⟨_, rfl, rfl⟩
  | action =>
    simp only
    unfold beginAction
    cases ha : request.Action with
    | none => exact ⟨_, rfl, rfl⟩
    | some action =>
      cases action with
      | restoreWorkspace recovery =>
        cases recovery with
        | none => exact ⟨_, rfl, rfl⟩
        | some document =>
          refine ⟨.accessDisabled, ?_, rfl⟩
          simp only
          unfold restoreWorkspace
          simp only [hclosed (show (!d.closed) = false by simpa [ht, ha] using h), if_true]
      | apply action => exact ⟨_, hensure (hclosed (by simpa [ht, ha] using h)) _, rfl⟩

/-- The spec of the locked part: which requests it refuses for a mismatch, what a refusal leaves,
and whose account the others carry. -/
theorem begin_cases (d : AgentDaemon) (request : AgentRequest) (platform : AgentPlatform) :
    (∃ d' reason, d.begin request platform = (d', .error (.rejected reason)) ∧ reason.isMismatch = true ∧
      (d' = d ↔ ¬ d.HalfBinds request) ∧ d'.accountID = d.accountID) ∨
    (¬ d.HalfBinds request ∧ ∃ reason, d.begin request platform = (d, .error (.rejected reason)) ∧
      reason.isMismatch = false) ∨
    (¬ d.HalfBinds request ∧ ¬ d.AccountRefused request ∧
      (∀ response, (d.begin request platform).2 = .error response → response.isRejected = false) ∧
      (d.begin request platform).1.accountID =
        if d.accountID = "" then trimSpace request.AccountID else d.accountID) := by
  cases hr : d.validates request with
  | false =>
    obtain ⟨reason, he, hm⟩ := begin_unvalidated hr platform
    exact Or.inr (Or.inl ⟨fun hb => absurd (hr.symm.trans hb.1) Bool.false_ne_true, reason, he, hm⟩)
  | true =>
    have hh := begin_handles hr platform
    cases hv : d.validate request with
    | mk v refusal =>
      cases refusal with
      | some reason =>
        have he := hh.refused reason (by rw [hv])
        rw [hv] at he
        obtain ⟨hm, hsame⟩ := validate_refused hv hr
        exact Or.inl ⟨v, reason, he, hm, hsame, validate_refused_account hv⟩
      | none =>
        obtain ⟨ha, hs⟩ := hh.served (by rw [hv])
        rw [hv] at ha
        obtain ⟨hacc, hval⟩ := validate_accepted hv
        exact Or.inr (Or.inr ⟨fun hb => hacc hb.2.2, hacc, hs, ha.trans hval⟩)

end AgentDaemon

/-! ## Runs -/

namespace AgentState

/-- The events of a run with the responses they send. -/
def transcript : AgentState → List AgentEvent → List (AgentEvent × Option AgentResponse)
  | _, [] => []
  | s, e :: es => (e, (s.answer e).2) :: transcript (s.answer e).1 es

/-- The transcript without the requests refused for their selector or account. -/
def accepted (s : AgentState) (es : List AgentEvent) : List (AgentEvent × Option AgentResponse) :=
  (s.transcript es).filter fun entry => !mismatched entry.2

def HalfBinds (s : AgentState) : AgentEvent → Prop
  | .request request _ => s.daemon.HalfBinds request
  | _ => False

/-- A bound account stays, and a request that is not rejected carries it. -/
def Carries (s : AgentState) (e : AgentEvent) : Prop :=
  s.daemon.accountID ≠ "" → (s.answer e).1.daemon.accountID = s.daemon.accountID ∧
    ∀ request platform, e = .request request platform →
      (∀ response, (s.answer e).2 = some response → response.isRejected = false) →
      trimSpace request.AccountID = s.daemon.accountID

end AgentState

structure Isolated (s : AgentState) (es : List AgentEvent) : Prop where
  unchanged : agentMachine.Along (fun s e => mismatched (s.answer e).2 = true → (s.answer e).1 = s) s es
  /-- Without the refused requests the run goes the same way. -/
  invisible : s.transcript ((s.accepted es).map Prod.fst) = s.accepted es
  carried : agentMachine.Along AgentState.Carries s es

theorem work_response (w : AgentWorkspace) (platform : AgentPlatform) (work : RequestWork) :
    (w.work platform work).2.isRejected = false := by
  cases work with
  | state => rfl
  | inspect => rfl
  | activity => rfl
  | action request =>
    unfold AgentWorkspace.work AgentWorkspace.applyAction
    simp only
    split <;> rfl
  | attach paneID workspaceGeneration =>
    unfold AgentWorkspace.work AgentWorkspace.paneForAttach
    simp only
    split
    · rfl
    · split
      · rfl
      · split <;> rfl

theorem isMismatch_of_not_rejected {response : AgentResponse} (h : response.isRejected = false) :
    response.isMismatch = false := by
  cases response with
  | rejected reason => cases h
  | _ => rfl

namespace AgentState

theorem answer_request_error {s : AgentState} {request : AgentRequest} {platform : AgentPlatform} {d : AgentDaemon}
    {response : AgentResponse} (h : s.daemon.begin request platform = (d, .error response)) :
    s.answer (.request request platform) = ({ s with daemon := d }, some response) := by
  unfold answer
  simp only [h]

/-- Every event but a request is answered, if at all, by the work it does. -/
theorem answer_other {s : AgentState} {e : AgentEvent} (h : ∀ request platform, e ≠ .request request platform) :
    mismatched (s.answer e).2 = false ∧ (s.answer e).1.daemon.accountID = s.daemon.accountID := by
  cases e with
  | request request platform => exact absurd rfl (h request platform)
  | work index platform =>
    unfold answer
    simp only
    split
    · exact ⟨rfl, rfl⟩
    · exact ⟨isMismatch_of_not_rejected (work_response _ _ _), rfl⟩
  | pane p event => exact ⟨rfl, rfl⟩
  | close =>
    unfold answer
    simp only
    split <;> exact ⟨rfl, rfl⟩

theorem answer_request (s : AgentState) (request : AgentRequest) (platform : AgentPlatform) :
    (s.answer (.request request platform)).1.daemon = (s.daemon.begin request platform).1 ∧
      ((s.answer (.request request platform)).2 = match (s.daemon.begin request platform).2 with
        | .error response => some response
        | .ok _ => none) := by
  unfold answer
  simp only
  cases s.daemon.begin request platform with
  | mk d begun => cases begun <;> exact ⟨rfl, rfl⟩

/-- One step: a refused request leaves the state as it was, unless it has bound its selector. -/
theorem answer_unchanged_iff (s : AgentState) (e : AgentEvent) :
    (mismatched (s.answer e).2 = true → (s.answer e).1 = s) ↔ ¬ s.HalfBinds e := by
  cases e with
  | request request platform =>
    rcases s.daemon.begin_cases request platform with ⟨d, reason, he, hm, hsame, -⟩ | ⟨hb, reason, he, hm⟩ | ⟨hb, -, hr, -⟩
    · rw [answer_request_error he]
      constructor
      · exact fun h => hsame.mp (congrArg AgentState.daemon (h hm))
      · intro hb _
        simp only [hsame.mpr hb]
    · rw [answer_request_error he]
      exact ⟨fun _ => hb, fun _ _ => rfl⟩
    · refine ⟨fun _ => hb, fun _ h => ?_⟩
      rw [(answer_request s request platform).2] at h
      cases hbegun : (s.daemon.begin request platform).2 with
      | ok pending => rw [hbegun] at h; cases h
      | error response =>
        rw [hbegun] at h
        have hn := isMismatch_of_not_rejected (hr response hbegun)
        exact absurd (hn.symm.trans h) Bool.false_ne_true
  | work index platform =>
    refine ⟨fun _ => id, fun _ h => ?_⟩
    rw [(answer_other fun _ _ => by simp).1] at h
    cases h
  | pane p event => exact ⟨fun _ => id, fun _ h => by cases h⟩
  | close =>
    refine ⟨fun _ => id, fun _ h => ?_⟩
    rw [(answer_other fun _ _ => by simp).1] at h
    cases h

theorem answer_carries (s : AgentState) (e : AgentEvent) : s.Carries e := by
  intro hbound
  cases e with
  | request request platform =>
    obtain ⟨hd, hresponse⟩ := answer_request s request platform
    rcases s.daemon.begin_cases request platform with ⟨d, reason, he, -, -, ha⟩ | ⟨-, reason, he, -⟩ | ⟨-, hacc, -, ha⟩
    · refine ⟨by rw [hd, he]; exact ha, fun _ _ heq hnot => ?_⟩
      cases heq
      have hrej := hnot (.rejected reason) (by rw [hresponse, he])
      cases hrej
    · refine ⟨by rw [hd, he], fun _ _ heq hnot => ?_⟩
      cases heq
      have hrej := hnot (.rejected reason) (by rw [hresponse, he])
      cases hrej
    · refine ⟨by rw [hd, ha, if_neg hbound], fun _ _ heq _ => ?_⟩
      cases heq
      exact not_not.mp fun hne => hacc ⟨hbound, hne⟩
  | work index platform => exact ⟨(answer_other fun _ _ => by simp).2, fun _ _ heq => by cases heq⟩
  | pane p event => exact ⟨rfl, fun _ _ heq => by cases heq⟩
  | close => exact ⟨(answer_other fun _ _ => by simp).2, fun _ _ heq => by cases heq⟩

/-- Where every refused request leaves the state as it was, the run goes the same way without them. -/
theorem transcript_accepted {es : List AgentEvent} : ∀ {s : AgentState},
    agentMachine.Along (fun s e => mismatched (s.answer e).2 = true → (s.answer e).1 = s) s es →
    s.transcript ((s.accepted es).map Prod.fst) = s.accepted es := by
  induction es with
  | nil => exact fun _ => rfl
  | cons e es ih =>
    intro s h
    have hrest := ih (h.2 _ rfl)
    unfold accepted at hrest ⊢
    cases hm : mismatched (s.answer e).2 with
    | true =>
      rw [h.1 hm] at hrest
      simp only [transcript, List.filter_cons, hm, Bool.not_true, Bool.false_eq_true, if_false]
      rw [h.1 hm]
      exact hrest
    | false =>
      simp only [transcript, List.filter_cons, hm, Bool.not_false, if_true, List.map_cons]
      rw [hrest]

end AgentState

/-- Whatever a daemon has bound so far: a run is isolated if and only if no request of it brings the
daemon its selector and is then refused for its account. -/
theorem isolated_iff (s : AgentState) (es : List AgentEvent) :
    Isolated s es ↔ agentMachine.Along (fun s e => ¬ s.HalfBinds e) s es := by
  have hunchanged : agentMachine.Along (fun s e => mismatched (s.answer e).2 = true → (s.answer e).1 = s) s es ↔
      agentMachine.Along (fun s e => ¬ s.HalfBinds e) s es :=
    ⟨agentMachine.along_mono fun s e h => (s.answer_unchanged_iff e).mp h,
      agentMachine.along_mono fun s e h => (s.answer_unchanged_iff e).mpr h⟩
  constructor
  · exact fun h => hunchanged.mp h.unchanged
  · intro h
    have hu := hunchanged.mpr h
    refine ⟨hu, AgentState.transcript_accepted hu, ?_⟩
    exact agentMachine.along_mono (fun s e _ => s.answer_carries e) (agentMachine.along_true s es)

/-! ## A request of another account that brings the selector -/

def unansweredPlatform : AgentPlatform where
  random := .error "unavailable"
  spawn := fun _ => .error "unavailable"
  activities := .error "unavailable"

def pingOf (selector accountID : String) : AgentEvent :=
  .request { RequestType := .ping, Selector := selector, AccountID := accountID } unansweredPlatform

/-- The daemon's own account is refused after a stranger's refused request. -/
theorem stranger_binds_selector :
    let s : AgentState := ⟨AgentDaemon.start "" "alice" "", []⟩
    let es := [pingOf "other" "bob", pingOf "own" "alice"]
    ¬ Isolated s es ∧
      s.transcript es = [(pingOf "other" "bob", some (.rejected (.accountMismatch "alice" "bob"))),
        (pingOf "own" "alice", some (.rejected (.selectorMismatch "other" "own")))] ∧
      s.transcript [pingOf "own" "alice"] = [(pingOf "own" "alice", some .pong)] := by
  refine ⟨fun h => ?_, rfl, rfl⟩
  have hsame := congrArg (fun s => s.daemon.selector) (h.unchanged.1 rfl)
  exact absurd hsame (by decide)

end Webshell
