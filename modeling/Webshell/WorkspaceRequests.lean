import Webshell.Machine

/-!
# Workspace states of a page

Actions, refreshes and membership requests that overlap, within one page, one
instance and one generation. The server executes each request at one moment;
the page decides whether the state it answers with is applied.
-/

namespace Webshell

/-! ## The page -/

/-- What a request keeps until its response is there. -/
inductive PageRequest
  | action (applyResponse : Bool)
  | refresh (stateRevision mutationVersion : Nat)
  | membership (context observation revision mutationVersion : Nat)

/-- A request on its way. The server's executions are numbered in their order. -/
structure PageFetch where
  request : PageRequest
  execution : Option Nat
  settled : Bool

/-- What is read of a state: its selector, and for each tab whether its panes are an array. -/
structure PageAnswer where
  selector : String
  tabs : Option (List Bool)

def PageAnswer.complete (answer : PageAnswer) : Bool := answer.tabs.any fun tabs => tabs.all id

/-- `membershipRequest`: `returned` once only its `finally` is left. -/
structure MembershipRequest where
  id : Nat
  key : String
  observation : Nat
  returned : Bool

/-- `applied` keeps the execution of each state applied, and whether an action brought it. -/
structure WorkspacePage where
  requestName : String
  mutationVersion : Nat
  pendingActions : List Nat
  revision : Nat
  membershipRequest : Option MembershipRequest
  contexts : Nat
  fetches : List PageFetch
  executed : Nat
  applied : List (Nat × Bool)

namespace WorkspacePage

def start (requestName : String) : WorkspacePage := ⟨requestName, 0, [], 0, none, 0, [], 0, []⟩

/-- `getMutationState().pending`. -/
def pending (p : WorkspacePage) : Bool := p.pendingActions ≠ []

/-- `ensureWorkspaceResponseSelector` does not throw. -/
def fits (p : WorkspacePage) (answer : PageAnswer) : Bool :=
  answer.selector = "" ∨ p.requestName = "" ∨ answer.selector = p.requestName

def send (p : WorkspacePage) (request : PageRequest) : WorkspacePage :=
  { p with fetches := p.fetches ++ [⟨request, none, false⟩] }

def settle (p : WorkspacePage) (i : Nat) (f : PageFetch) : WorkspacePage :=
  { p with fetches := p.fetches.set i { f with settled := true } }

/-- `applyWorkspaceState`, of the state an execution gave. -/
def apply (p : WorkspacePage) (execution : Nat) (ofAction : Bool) : WorkspacePage :=
  { p with revision := p.revision + 1, applied := p.applied ++ [(execution, ofAction)] }

/-! ## Requests -/

/-- `postAction`, up to its request. -/
def postAction (p : WorkspacePage) (applyResponse : Bool) : WorkspacePage :=
  { p with mutationVersion := p.mutationVersion + 1, pendingActions := p.fetches.length :: p.pendingActions }.send
    (.action applyResponse)

def refresh (p : WorkspacePage) : WorkspacePage := p.send (.refresh p.revision p.mutationVersion)

/-- One turn of the loop of `syncMembership`, up to its request. -/
def fetchMembership (p : WorkspacePage) (context : MembershipRequest) : WorkspacePage :=
  p.send (.membership context.id context.observation p.revision p.mutationVersion)

def syncMembership (p : WorkspacePage) (key : String) : WorkspacePage :=
  if p.revision = 0 ∨ p.pending then p
  else match p.membershipRequest with
    | some context =>
      if context.key = key then p
      else { p with membershipRequest := some { context with key := key, observation := context.observation + 1 } }
    | none =>
      let context : MembershipRequest := ⟨p.contexts, key, 0, false⟩
      { p with membershipRequest := some context, contexts := p.contexts + 1 }.fetchMembership context

/-! ## Responses -/

/-- The end of `postAction`. -/
def actionDone (p : WorkspacePage) (i : Nat) : WorkspacePage :=
  { p with pendingActions := p.pendingActions.erase i, mutationVersion := p.mutationVersion + 1 }

def answerAction (p : WorkspacePage) (i : Nat) (applyResponse : Bool) (execution : Nat) (answer : PageAnswer) :
    WorkspacePage :=
  if p.fits answer ∧ applyResponse then (p.apply execution true).actionDone i else p.actionDone i

def answerRefresh (p : WorkspacePage) (stateRevision mutationVersion execution : Nat) (answer : PageAnswer) :
    WorkspacePage :=
  if stateRevision ≠ p.revision ∨ mutationVersion ≠ p.mutationVersion ∨ p.pending then p
  else if p.fits answer then p.apply execution false
  else p

/-- The loop of `syncMembership` has returned or thrown. -/
def membershipDone (p : WorkspacePage) (context : Nat) : WorkspacePage :=
  { p with membershipRequest := p.membershipRequest.map fun m => if m.id = context then { m with returned := true } else m }

def answerMembership (p : WorkspacePage) (context observation revision mutationVersion execution : Nat)
    (answer : PageAnswer) : WorkspacePage :=
  match p.membershipRequest with
  | none => p
  | some m =>
    if m.id ≠ context ∨ revision ≠ p.revision ∨ mutationVersion ≠ p.mutationVersion ∨ p.pending then
      p.membershipDone context
    else if observation ≠ m.observation then p.fetchMembership m
    else if p.fits answer ∧ answer.complete then (p.apply execution false).membershipDone context
    else p.membershipDone context

/-- A request whose response is an error, or does not come. -/
def fail (p : WorkspacePage) (i : Nat) : PageRequest → WorkspacePage
  | .action _ => p.actionDone i
  | .refresh _ _ => p
  | .membership context _ _ _ => p.membershipDone context

def answer (p : WorkspacePage) (i : Nat) (execution : Nat) (answer : PageAnswer) : PageRequest → WorkspacePage
  | .action applyResponse => p.answerAction i applyResponse execution answer
  | .refresh stateRevision mutationVersion => p.answerRefresh stateRevision mutationVersion execution answer
  | .membership context observation revision mutationVersion =>
    p.answerMembership context observation revision mutationVersion execution answer

end WorkspacePage

/-! ## Interleavings -/

inductive PageEvent
  | postAction (applyResponse : Bool)
  | refresh
  | syncMembership (key : String)
  | execute (i : Nat)
  | respond (i : Nat) (answer : Option PageAnswer)
  | membershipCleared

namespace WorkspacePage

def step (p : WorkspacePage) : PageEvent → Option WorkspacePage
  | .postAction applyResponse => some (p.postAction applyResponse)
  | .refresh => some p.refresh
  | .syncMembership key => some (p.syncMembership key)
  | .execute i =>
    match p.fetches[i]? with
    | some ⟨request, none, settled⟩ =>
      some { p with fetches := p.fetches.set i ⟨request, some p.executed, settled⟩, executed := p.executed + 1 }
    | _ => none
  | .respond i none =>
    match p.fetches[i]? with
    | some ⟨request, execution, false⟩ => some ((p.settle i ⟨request, execution, false⟩).fail i request)
    | _ => none
  | .respond i (some answer) =>
    match p.fetches[i]? with
    | some ⟨request, some execution, false⟩ =>
      some ((p.settle i ⟨request, some execution, false⟩).answer i execution answer request)
    | _ => none
  | .membershipCleared =>
    match p.membershipRequest with
    | some ⟨_, _, _, true⟩ => some { p with membershipRequest := none }
    | _ => none

end WorkspacePage

def pageMachine : Machine WorkspacePage PageEvent := ⟨WorkspacePage.step⟩

/-! ## What the requests on their way keep -/

/-- The revision a request was sent at, if it is one that looks at it. -/
def PageRequest.revision : PageRequest → Option Nat
  | .action _ => none
  | .refresh stateRevision _ => some stateRevision
  | .membership _ _ revision _ => some revision

def PageRequest.isAction : PageRequest → Bool
  | .action _ => true
  | .refresh _ _ | .membership _ _ _ _ => false

/-- A request that looks at its revision is too late, or nothing later has been applied; before the state of an
action on its way nothing later has been applied but states of actions. -/
structure PageInv (p : WorkspacePage) : Prop where
  executions : ∀ f ∈ p.fetches, ∀ k, f.execution = some k → k < p.executed
  applied : ∀ a ∈ p.applied, a.1 < p.executed
  fetched : ∀ f ∈ p.fetches, f.settled = false → ∀ r, f.request.revision = some r →
    r ≤ p.revision ∧ (r = p.revision → ∀ k, f.execution = some k → ∀ a ∈ p.applied, a.1 < k)
  acting : ∀ i f, p.fetches[i]? = some f → f.settled = false → f.request.isAction →
    i ∈ p.pendingActions ∧ ∀ k, f.execution = some k → ∀ a ∈ p.applied, a.1 < k ∨ a.2 = true

variable {p p' : WorkspacePage} {i k : Nat} {f : PageFetch}

theorem PageInv.send (h : PageInv p) {request : PageRequest} (hr : ∀ r, request.revision = some r → r ≤ p.revision)
    (ha : request.isAction → p.fetches.length ∈ p.pendingActions) : PageInv (p.send request) := by
  refine ⟨fun f hf => ?_, h.applied, fun f hf hs r hfr => ?_, fun i f hf hs hfa => ?_⟩
  · rcases List.mem_append.mp hf with hf | hf
    · exact h.executions f hf
    · rw [List.mem_singleton.mp hf]
      exact nofun
  · rcases List.mem_append.mp hf with hf | hf
    · exact h.fetched f hf hs r hfr
    · rw [List.mem_singleton.mp hf] at hfr ⊢
      exact ⟨hr r hfr, nofun⟩
  · by_cases hi : i < p.fetches.length
    · simp only [WorkspacePage.send, List.getElem?_append_left hi] at hf
      exact h.acting i f hf hs hfa
    · obtain ⟨rfl, rfl⟩ : i = p.fetches.length ∧ f = ⟨request, none, false⟩ := by
        simp only [WorkspacePage.send, List.getElem?_append_right (Nat.le_of_not_lt hi), List.getElem?_singleton] at hf
        split at hf
        · cases hf
          exact ⟨by omega, rfl⟩
        · cases hf
      exact ⟨ha hfa, nofun⟩

theorem PageInv.settle (h : PageInv p) (hf : p.fetches[i]? = some f) : PageInv (p.settle i f) := by
  refine ⟨fun g hg => ?_, h.applied, fun g hg hs => ?_, fun j g hg hs => ?_⟩
  · rcases List.mem_or_eq_of_mem_set hg with hg | rfl
    · exact h.executions g hg
    · exact h.executions f (List.mem_of_getElem? hf)
  · rcases List.mem_or_eq_of_mem_set hg with hg | rfl
    · exact h.fetched g hg hs
    · cases hs
  · by_cases hj : i = j
    · subst hj
      simp only [WorkspacePage.settle, List.getElem?_set_self' , hf] at hg
      cases hg
      cases hs
    · simp only [WorkspacePage.settle, List.getElem?_set_ne hj] at hg
      exact h.acting j g hg hs

theorem PageInv.execute (h : PageInv p) {request : PageRequest} {settled : Bool}
    (hf : p.fetches[i]? = some ⟨request, none, settled⟩) :
    PageInv { p with fetches := p.fetches.set i ⟨request, some p.executed, settled⟩, executed := p.executed + 1 } := by
  refine ⟨fun g hg k hk => ?_, fun a ha => Nat.lt_succ_of_lt (h.applied a ha), fun g hg hs r hr => ?_, fun j g hg hs hact => ?_⟩
  · rcases List.mem_or_eq_of_mem_set hg with hg | rfl
    · exact Nat.lt_succ_of_lt (h.executions g hg k hk)
    · cases hk
      exact Nat.lt_succ_self _
  · rcases List.mem_or_eq_of_mem_set hg with hg | rfl
    · exact h.fetched g hg hs r hr
    · obtain ⟨hle, -⟩ := h.fetched _ (List.mem_of_getElem? hf) hs r hr
      refine ⟨hle, fun _ k hk a ha => ?_⟩
      cases hk
      exact h.applied a ha
  · by_cases hj : i = j
    · subst hj
      simp only [List.getElem?_set_self', hf] at hg
      cases hg
      refine ⟨(h.acting i _ hf hs hact).1, fun k hk a ha => .inl ?_⟩
      cases hk
      exact h.applied a ha
    · simp only [List.getElem?_set_ne hj] at hg
      exact h.acting j g hg hs hact

/-- Every request on its way is then too late, unless it is an action. -/
theorem PageInv.apply (h : PageInv p) (hk : k < p.executed) {ofAction : Bool}
    (ha : ofAction = true ∨ p.pendingActions = []) : PageInv (p.apply k ofAction) := by
  refine ⟨h.executions, fun a hm => ?_, fun f hf hs r hr => ?_, fun i f hf hs hact => ?_⟩
  · rcases List.mem_append.mp hm with hm | hm
    · exact h.applied a hm
    · rw [List.mem_singleton.mp hm]
      exact hk
  · have hle := (h.fetched f hf hs r hr).1
    simp only [WorkspacePage.apply]
    exact ⟨by omega, fun he => by omega⟩
  · obtain ⟨hpending, hbefore⟩ := h.acting i f hf hs hact
    refine ⟨hpending, fun k' hk' a hm => ?_⟩
    rcases List.mem_append.mp hm with hm | hm
    · exact hbefore k' hk' a hm
    · rcases ha with rfl | hnone
      · exact .inr (by rw [List.mem_singleton.mp hm])
      · rw [hnone] at hpending
        cases hpending

theorem PageInv.actionDone (h : PageInv p) (hf : ∀ f, p.fetches[i]? = some f → f.settled = true) :
    PageInv (p.actionDone i) := by
  refine ⟨h.executions, h.applied, h.fetched, fun j g hg hs hact => ?_⟩
  obtain ⟨hpending, hbefore⟩ := h.acting j g hg hs hact
  refine ⟨?_, hbefore⟩
  by_cases hj : j = i
  · subst hj
    rw [hf g hg] at hs
    cases hs
  · exact (List.mem_erase_of_ne hj).mpr hpending

theorem PageInv.membershipDone (h : PageInv p) (context : Nat) : PageInv (p.membershipDone context) :=
  ⟨h.executions, h.applied, h.fetched, h.acting⟩

/-! ## States in order -/

/-- The states applied are in the server's order. -/
def WorkspacePage.Ordered (p : WorkspacePage) : Prop := (p.applied.map Prod.fst).Pairwise (· < ·)

/-- When the state of an action is to be applied, no action has had its state applied that the server executed
later. -/
def InOrder (p : WorkspacePage) : PageEvent → Prop
  | .respond i (some answer) => ∀ k, p.fetches[i]? = some ⟨.action true, some k, false⟩ → p.fits answer →
    ∀ later, (later, true) ∈ p.applied → later < k
  | _ => True

theorem ordered_apply (ofAction : Bool) (h : p.Ordered) :
    (p.apply k ofAction).Ordered ↔ ∀ a ∈ p.applied, a.1 < k := by
  simp only [WorkspacePage.Ordered, WorkspacePage.apply, List.map_append, List.pairwise_append]
  constructor
  · intro ho a ha
    exact ho.2.2 a.1 (List.mem_map_of_mem ha) k (by simp)
  · intro hk
    refine ⟨h, by simp, ?_⟩
    intro o ho o' ho'
    obtain ⟨a, ha, rfl⟩ := List.mem_map.mp ho
    simp only [List.map_cons, List.map_nil, List.mem_singleton] at ho'
    rw [ho']
    exact hk a ha

/-- A step keeps the invariant, and either applies no state, or one that comes after all others exactly if the step
is in order. -/
def PageMoves (p p' : WorkspacePage) (inOrder : Prop) : Prop :=
  PageInv p' ∧ (p'.applied = p.applied ∧ inOrder ∨
    ∃ k ofAction, p'.applied = p.applied ++ [(k, ofAction)] ∧ (inOrder ↔ ∀ a ∈ p.applied, a.1 < k))

theorem PageMoves.same {inOrder : Prop} (h : PageInv p') (ha : p'.applied = p.applied) (ho : inOrder) :
    PageMoves p p' inOrder := ⟨h, .inl ⟨ha, ho⟩⟩

theorem PageInv.postAction (h : PageInv p) (applyResponse : Bool) : PageInv (p.postAction applyResponse) := by
  apply PageInv.send
  · refine ⟨h.executions, h.applied, h.fetched, fun i f hf hs ha => ?_⟩
    obtain ⟨hpending, hbefore⟩ := h.acting i f hf hs ha
    exact ⟨List.mem_cons_of_mem _ hpending, hbefore⟩
  · exact nofun
  · exact fun _ => List.mem_cons_self ..

theorem PageInv.refresh (h : PageInv p) : PageInv p.refresh := by
  apply h.send
  · rintro r ⟨⟩
    exact Nat.le_refl _
  · exact nofun

theorem PageInv.fetchMembership (h : PageInv p) (context : MembershipRequest) : PageInv (p.fetchMembership context) := by
  apply h.send
  · rintro r ⟨⟩
    exact Nat.le_refl _
  · exact nofun

theorem PageInv.syncMembership (h : PageInv p) (key : String) :
    PageInv (p.syncMembership key) ∧ (p.syncMembership key).applied = p.applied := by
  unfold WorkspacePage.syncMembership
  by_cases hq : p.revision = 0 ∨ p.pending
  · rw [if_pos hq]
    exact ⟨h, rfl⟩
  rw [if_neg hq]
  cases p.membershipRequest with
  | none =>
    have hstarted : PageInv { p with membershipRequest := some ⟨p.contexts, key, 0, false⟩, contexts := p.contexts + 1 } :=
      ⟨h.executions, h.applied, h.fetched, h.acting⟩
    exact ⟨hstarted.fetchMembership _, rfl⟩
  | some context =>
    simp only
    split
    · exact ⟨h, rfl⟩
    · exact ⟨⟨h.executions, h.applied, h.fetched, h.acting⟩, rfl⟩

theorem PageInv.fail (h : PageInv p) (hf : ∀ f, p.fetches[i]? = some f → f.settled = true) (request : PageRequest) :
    PageInv (p.fail i request) ∧ (p.fail i request).applied = p.applied := by
  cases request with
  | action _ => exact ⟨h.actionDone hf, rfl⟩
  | refresh _ _ => exact ⟨h, rfl⟩
  | membership context _ _ _ => exact ⟨h.membershipDone context, rfl⟩

/-! ## Responses -/

section Response

variable {q : WorkspacePage} {answer : PageAnswer}

theorem moves_action {applyResponse : Bool} (h : PageInv p) (hf : p.fetches[i]? = some ⟨.action applyResponse, some k, false⟩)
    (hq : PageInv q) (hsettled : ∀ f, q.fetches[i]? = some f → f.settled = true) (ha : q.applied = p.applied)
    (hn : q.requestName = p.requestName) (hx : q.executed = p.executed) :
    PageMoves p (q.answerAction i applyResponse k answer) (InOrder p (.respond i (some answer))) := by
  have hfits : q.fits answer = p.fits answer := by simp only [WorkspacePage.fits, hn]
  have hk := h.executions _ (List.mem_of_getElem? hf) k rfl
  unfold WorkspacePage.answerAction
  by_cases happly : q.fits answer ∧ applyResponse
  · rw [if_pos happly]
    obtain ⟨hfit, rfl⟩ := happly
    refine ⟨(hq.apply (hx ▸ hk) (.inl rfl)).actionDone hsettled, .inr ⟨k, true, ?_, ?_⟩⟩
    · rw [← ha]
      rfl
    constructor
    · intro ho a hm
      rcases (h.acting i _ hf rfl rfl).2 k rfl a hm with hlt | htrue
      · exact hlt
      · exact ho k hf (hfits ▸ hfit) a.1 (by rw [← htrue]; exact hm)
    · intro hall k' hf' _ later hm
      rw [hf] at hf'
      cases hf'
      exact hall _ hm
  · rw [if_neg happly]
    refine .same (hq.actionDone hsettled) ha fun k' hf' hfit => absurd ⟨?_, ?_⟩ happly
    · rw [hfits]
      exact hfit
    · rw [hf] at hf'
      cases hf'
      rfl

/-- A request that is not an action brings its state in order. -/
theorem moves_apply {request : PageRequest} (h : PageInv p) (hf : p.fetches[i]? = some ⟨request, some k, false⟩)
    (hr : request.revision = some p.revision) (hq : PageInv (q.apply k false)) (ha : q.applied = p.applied) :
    PageMoves p (q.apply k false) (InOrder p (.respond i (some answer))) := by
  refine ⟨hq, .inr ⟨k, false, by rw [← ha]; rfl, fun _ => ?_, fun _ k' hf' => ?_⟩⟩
  · exact (h.fetched _ (List.mem_of_getElem? hf) rfl _ hr).2 rfl k rfl
  · rw [hf] at hf'
    cases hf'
    cases hr

theorem moves_refresh {stateRevision mutationVersion : Nat} (h : PageInv p)
    (hf : p.fetches[i]? = some ⟨.refresh stateRevision mutationVersion, some k, false⟩) :
    PageMoves p ((p.settle i ⟨.refresh stateRevision mutationVersion, some k, false⟩).answerRefresh stateRevision
      mutationVersion k answer) (InOrder p (.respond i (some answer))) := by
  have hsettled := h.settle hf
  have hother : InOrder p (.respond i (some answer)) := fun k' hf' => by rw [hf] at hf'; cases hf'
  unfold WorkspacePage.answerRefresh
  split
  · exact .same hsettled rfl hother
  · rename_i hcurrent
    rw [not_or, not_or, not_not, Bool.not_eq_true] at hcurrent
    split
    · refine moves_apply h hf (congrArg some hcurrent.1) (hsettled.apply ?_ (.inr ?_)) rfl
      · exact h.executions _ (List.mem_of_getElem? hf) k rfl
      · simpa [WorkspacePage.pending] using hcurrent.2.2
    · exact .same hsettled rfl hother

theorem moves_membership {context observation revision mutationVersion : Nat} (h : PageInv p)
    (hf : p.fetches[i]? = some ⟨.membership context observation revision mutationVersion, some k, false⟩) :
    PageMoves p ((p.settle i ⟨.membership context observation revision mutationVersion, some k, false⟩).answerMembership
      context observation revision mutationVersion k answer) (InOrder p (.respond i (some answer))) := by
  have hsettled := h.settle hf
  have hother : InOrder p (.respond i (some answer)) := fun k' hf' => by rw [hf] at hf'; cases hf'
  unfold WorkspacePage.answerMembership
  split
  · exact .same hsettled rfl hother
  · split
    · exact .same (hsettled.membershipDone context) rfl hother
    · rename_i hcurrent
      rw [not_or, not_or, not_or, not_not, not_not, Bool.not_eq_true] at hcurrent
      split
      · exact .same (hsettled.fetchMembership _) rfl hother
      · split
        · have happlied : PageInv (((p.settle i ⟨.membership context observation revision mutationVersion, some k, false⟩).apply
              k false)) := by
            apply hsettled.apply
            · exact h.executions _ (List.mem_of_getElem? hf) k rfl
            · exact .inr (by simpa [WorkspacePage.pending] using hcurrent.2.2.2)
          refine ⟨happlied.membershipDone context, ?_⟩
          exact (moves_apply h hf (congrArg some hcurrent.2.1) happlied rfl).2
        · exact .same (hsettled.membershipDone context) rfl hother

end Response

/-! ## Runs -/

theorem settled_at (f : PageFetch) : ∀ g, (p.settle i f).fetches[i]? = some g → g.settled = true := by
  intro g hg
  simp only [WorkspacePage.settle, List.getElem?_set_self'] at hg
  obtain ⟨-, -, rfl⟩ := Option.map_eq_some_iff.mp hg
  rfl

theorem page_moves {e : PageEvent} (h : PageInv p) (hs : pageMachine.step p e = some p') :
    PageMoves p p' (InOrder p e) := by
  cases e with
  | postAction applyResponse =>
    cases hs
    exact .same (h.postAction applyResponse) rfl trivial
  | refresh =>
    cases hs
    exact .same h.refresh rfl trivial
  | syncMembership key =>
    cases hs
    obtain ⟨hinv, ha⟩ := h.syncMembership key
    exact .same hinv ha trivial
  | execute i =>
    simp only [pageMachine, WorkspacePage.step] at hs
    split at hs
    · rename_i hf
      cases hs
      exact .same (h.execute hf) rfl trivial
    · cases hs
  | respond i answer =>
    cases answer with
    | none =>
      simp only [pageMachine, WorkspacePage.step] at hs
      split at hs
      · rename_i request execution hf
        cases hs
        obtain ⟨hinv, ha⟩ := (h.settle hf).fail (settled_at _) request
        exact .same hinv ha trivial
      · cases hs
    | some answer =>
      simp only [pageMachine, WorkspacePage.step] at hs
      split at hs
      · rename_i request execution hf
        cases hs
        cases request with
        | action applyResponse => exact moves_action h hf (h.settle hf) (settled_at _) rfl rfl rfl
        | refresh stateRevision mutationVersion => exact moves_refresh h hf
        | membership context observation revision mutationVersion => exact moves_membership h hf
      · cases hs
  | membershipCleared =>
    simp only [pageMachine, WorkspacePage.step] at hs
    split at hs
    · cases hs
      exact .same ⟨h.executions, h.applied, h.fetched, h.acting⟩ rfl trivial
    · cases hs

/-- One step: the states stay in order exactly if it is in order. -/
theorem ordered_step {e : PageEvent} (h : PageInv p) (hs : pageMachine.step p e = some p') (ho : p.Ordered) :
    p'.Ordered ↔ InOrder p e := by
  obtain ⟨-, ⟨ha, hin⟩ | ⟨k, ofAction, ha, hin⟩⟩ := page_moves h hs
  · unfold WorkspacePage.Ordered
    rw [ha]
    exact ⟨fun _ => hin, fun _ => ho⟩
  · rw [hin, ← ordered_apply ofAction ho]
    unfold WorkspacePage.Ordered WorkspacePage.apply
    rw [ha]

theorem ordered_of_step {e : PageEvent} (h : PageInv p) (hs : pageMachine.step p e = some p') (ho : p'.Ordered) :
    p.Ordered := by
  obtain ⟨-, ⟨ha, -⟩ | ⟨k, ofAction, ha, -⟩⟩ := page_moves h hs
  · unfold WorkspacePage.Ordered at ho ⊢
    rwa [ha] at ho
  · unfold WorkspacePage.Ordered at ho ⊢
    rw [ha, List.map_append] at ho
    exact (List.pairwise_append.mp ho).1

theorem start_inv (requestName : String) : PageInv (.start requestName) := ⟨nofun, nofun, nofun, nofun⟩

/-- The states a page applies are in the server's order exactly if every action that has its state applied is
answered in order among such actions. -/
theorem workspace_states_ordered (requestName : String) {es : List PageEvent} {p : WorkspacePage}
    (h : pageMachine.run (.start requestName) es = some p) : p.Ordered ↔ pageMachine.Along InOrder (.start requestName) es :=
  pageMachine.run_iff_along (fun _ _ _ hp hs => (page_moves hp hs).1) (fun _ _ _ hp hs => ordered_step hp hs)
    (fun _ _ _ hp hs => ordered_of_step hp hs) h (start_inv requestName) List.Pairwise.nil

/-- Two actions overlap and their responses overtake one another. -/
def crossedActions : List PageEvent :=
  [.postAction true, .postAction true, .execute 0, .execute 1, .respond 1 (some ⟨"box", some []⟩),
    .respond 0 (some ⟨"box", some []⟩)]

theorem workspace_states_crossed : ∃ p, pageMachine.run (.start "box") crossedActions = some p ∧
    p.applied = [(1, true), (0, true)] ∧ ¬p.Ordered := by
  have hrun : (pageMachine.run (.start "box") crossedActions).map WorkspacePage.applied = some [(1, true), (0, true)] := by
    decide
  obtain ⟨p, hp, ha⟩ := Option.map_eq_some_iff.mp hrun
  refine ⟨p, hp, ha, ?_⟩
  unfold WorkspacePage.Ordered
  rw [ha]
  decide

theorem workspace_states_overlapping : ∃ p, pageMachine.run (.start "box") crossedActions = some p ∧
    (p.Ordered ↔ pageMachine.Along InOrder (.start "box") crossedActions) := by
  have hrun : (pageMachine.run (.start "box") crossedActions).map WorkspacePage.applied = some [(1, true), (0, true)] := by
    decide
  obtain ⟨p, hp, -⟩ := Option.map_eq_some_iff.mp hrun
  exact ⟨p, hp, workspace_states_ordered "box" hp⟩

end Webshell
