import Mathlib.Data.List.Perm.Basic
import Mathlib.Data.List.Range
import Mathlib.Data.List.Nodup
import Webshell.BackendRpc
import Webshell.Settling

/-!
# Every promise of the page is settled

What is pending has its command still in the lane or its reply on the way, in
the order of the requests.
-/

namespace Webshell

/-! ## The worker -/

structure Handled (w : WorkerRuntime) (message : BackendMessage) (w' : WorkerRuntime) (reply : WorkerReply) : Prop where
  about : reply.message = message
  revision : w.revision ≤ w'.revision
  progress : ∀ state, reply.progress = some state → state.revision = w'.revision ∧ message.type ≠ .diagnose
  silent : reply.progress = none → w'.revision = w.revision ∨ w'.failed = true
  failed : w.failed = true → w'.failed = true
  began : w.failed = false → w'.failed = true → message.type ≠ .diagnose
  fatal : w'.failed = true → ∃ text, reply.result = .error { message := text, fatal := true }

theorem WorkerRuntime.snapshot_progress {w : WorkerRuntime} {o : NativeOutcome} {result : BackendResult}
    (h : w.snapshot o = .ok result) : result.progress = some (w.progress o) := by
  unfold WorkerRuntime.snapshot at h
  split at h
  · cases h
  · cases h
    split <;> rfl

theorem WorkerRuntime.engine_spec (w : WorkerRuntime) (type : BackendCommand) (o : NativeOutcome) :
    (w.engine type o).1.failed = w.failed ∧ w.revision ≤ (w.engine type o).1.revision ∧
      (∀ err, (w.engine type o).2 = .error err → (w.engine type o).1.revision = w.revision ∨ type.mutates = true) ∧
      ∀ result, (w.engine type o).2 = .ok result →
        (∀ state, result.progress = some state → state.revision = (w.engine type o).1.revision ∧ type ≠ .diagnose) ∧
          (result.progress = none → (w.engine type o).1.revision = w.revision) := by
  unfold WorkerRuntime.engine
  cases hr : o.refuses with
  | some message => simp
  | none =>
    cases type with
    | init =>
      refine ⟨rfl, by simp, by simp [BackendCommand.mutates], fun result h => ?_⟩
      have := WorkerRuntime.snapshot_progress h
      simp [this, WorkerRuntime.progress]
    | write =>
      by_cases hn : w.native = false
      · simp [hn]
      · cases hb : o.breaks <;> simp [hn, BackendCommand.mutates, BackendResult.progress, WorkerRuntime.progress]
    | resize | restore =>
      by_cases hn : w.native = false
      · simp [hn]
      · refine ⟨by simp [hn], by simp [hn], by simp [BackendCommand.mutates], fun result h => ?_⟩
        simp only [hn] at h ⊢
        have := WorkerRuntime.snapshot_progress h
        simp [this, WorkerRuntime.progress]
    | snapshot =>
      by_cases hn : w.native = false
      · simp [hn]
      · refine ⟨by simp [hn], by simp [hn], by simp [BackendCommand.mutates], fun result h => ?_⟩
        simp only [hn] at h ⊢
        have := WorkerRuntime.snapshot_progress h
        simp [this, WorkerRuntime.progress]
    | diagnose | read | text | search | link =>
      cases hb : o.breaks <;> simp [BackendResult.progress]

theorem WorkerRuntime.handle_spec (w : WorkerRuntime) (message : BackendMessage) (o : NativeOutcome) :
    Handled w message (w.handle message o).1 (w.handle message o).2 := by
  obtain ⟨hfailed, hle, herror, hok⟩ := w.engine_spec message.type o
  unfold WorkerRuntime.handle WorkerRuntime.serve
  by_cases hf : w.failed = true
  · rw [if_pos hf]
    exact ⟨rfl, Nat.le_refl _, nofun, fun _ => .inl rfl, fun _ => by simp [hf], fun h => absurd hf (by simp [h]),
      fun _ => ⟨_, by simp [hf]; rfl⟩⟩
  · rw [if_neg hf]
    have hf' : w.failed = false := by simpa using hf
    revert hfailed hle herror hok
    obtain ⟨w', err | result⟩ := w.engine message.type o
    · intro hfailed hle herror hok
      refine ⟨rfl, hle, nofun, fun _ => ?_, fun h => absurd h hf, fun _ h ht => ?_, fun h => ⟨err, ?_⟩⟩
      · exact (herror err rfl).imp_right fun h => by simp [h]
      · have hw : w'.failed = false := hfailed.trans hf'
        simp [hw, ht, BackendCommand.mutates] at h
      · exact congrArg (fun b => (Except.error { message := err, fatal := b } : Except WorkerError BackendResult)) h
    · intro hfailed hle herror hok
      obtain ⟨hstate, hnone⟩ := hok result rfl
      refine ⟨rfl, hle, fun state h => hstate state h, fun h => .inl (hnone h), fun h => absurd h hf, fun _ h => ?_, fun h => ?_⟩
      · exact absurd (hfailed.symm.trans h) hf
      · exact absurd (hfailed.symm.trans h) hf

/-! ## The page -/

/-- With distinct keys, a list is one of its elements and those with another key. -/
theorem perm_filter_key {α β : Type} [DecidableEq β] {f : α → β} {l : List α} (h : (l.map f).Nodup) {a : α} (ha : a ∈ l) :
    l.Perm (a :: l.filter fun b => f b ≠ f a) := by
  induction l with
  | nil => simp at ha
  | cons b l ih =>
    simp only [List.map_cons, List.nodup_cons, List.mem_map, not_exists, not_and] at h
    rcases List.mem_cons.mp ha with rfl | ha
    · have : l.filter (fun b => f b ≠ f a) = l := List.filter_eq_self.mpr fun b hb => by simpa using h.1 b hb
      rw [List.filter_cons_of_neg (by simp), this]
    · have hne : f b ≠ f a := fun he => h.1 a ha he.symm
      simp only [ne_eq, hne, not_false_eq_true, decide_true, List.filter_cons_of_pos]
      exact ((ih h.2 ha).cons b).trans (.swap ..)

namespace RemoteRpc

def pendingIDs (p : RemoteRpc) : List Nat := p.pending.map fun request => request.message.id

def diagnoses (p : RemoteRpc) : List PendingRequest := p.pending.filter fun request => request.message.type = .diagnose

structure RpcInv (p : RemoteRpc) : Prop where
  next : 1 ≤ p.nextID
  ids : (p.pendingIDs ++ p.settled.map Prod.fst).Perm (List.range' 1 (p.nextID - 1))
  bytes : p.disposed = false → p.pendingBytes = (p.pending.map PendingRequest.bytes).sum
  limit : (p.pending.map PendingRequest.bytes).sum ≤ maxPendingBytes
  observed : p.observed.length ≤ maxPending
  diagnoses : p.diagnoses.length ≤ maxPending
  ended : p.failed = true ∨ p.disposed = true → p.pending = []

namespace RpcInv

variable {p : RemoteRpc}

theorem nodup (h : RpcInv p) : p.pendingIDs.Nodup := by
  have := h.ids.nodup_iff.mpr List.nodup_range'
  exact (List.nodup_append.mp this).1

theorem id_lt (h : RpcInv p) {request : PendingRequest} (hm : request ∈ p.pending) : request.message.id < p.nextID := by
  have hid : request.message.id ∈ p.pendingIDs := List.mem_map.mpr ⟨request, hm, rfl⟩
  have := h.ids.subset (List.mem_append_left _ hid)
  simp only [List.mem_range'_1] at this
  omega

theorem rejected (h : RpcInv p) {q : RemoteRpc} (hn : q.nextID = p.nextID) (hp : q.pending = [])
    (hs : q.settled = p.rejectPending.settled) (hb : q.disposed = false → q.pendingBytes = 0) : RpcInv q where
  next := hn ▸ h.next
  ids := by
    rw [hn]
    refine .trans ?_ h.ids
    simp only [pendingIDs, hp, hs, rejectPending, List.map_nil, List.nil_append, List.map_append, List.map_map]
    exact List.perm_append_comm
  bytes hd := by simp [hp, hb hd]
  limit := by simp [hp]
  observed := by simp [RemoteRpc.observed, hp]
  diagnoses := by simp [RemoteRpc.diagnoses, hp]
  ended _ := hp

theorem start : RpcInv {} :=
  ⟨by simp, by simp [pendingIDs], by simp, by simp, by simp [RemoteRpc.observed], by simp [RemoteRpc.diagnoses], by simp⟩

theorem fail (h : RpcInv p) : RpcInv p.fail := by
  unfold RemoteRpc.fail
  split
  · exact h
  · exact h.rejected rfl rfl rfl fun _ => rfl

theorem free (h : RpcInv p) : RpcInv p.free := by
  unfold RemoteRpc.free
  split
  · exact h
  · exact h.rejected rfl rfl rfl nofun

theorem restart (h : RpcInv p) : RpcInv p.restart := h.rejected rfl rfl rfl fun _ => rfl

theorem settle_filter_length (p : RemoteRpc) (request : PendingRequest) (b : Bool) (q : PendingRequest → Bool) :
    ((p.settle request b).pending.filter q).length ≤ (p.pending.filter q).length :=
  List.Sublist.length_le (List.Sublist.filter q List.filter_sublist)

theorem settle (h : RpcInv p) {request : PendingRequest} (hm : request ∈ p.pending) (resolved : Bool) :
    RpcInv (p.settle request resolved) := by
  have hperm := perm_filter_key h.nodup hm
  refine ⟨h.next, ?_, fun hd => ?_, ?_, ?_, ?_, fun he => ?_⟩
  · refine .trans ?_ h.ids
    have := (hperm.map fun request => request.message.id).append_right (p.settled.map Prod.fst)
    refine .trans ?_ this.symm
    simp only [RemoteRpc.settle, pendingIDs, List.map_append, List.map_cons, List.map_nil, List.cons_append]
    rw [← List.append_assoc]
    exact List.perm_append_singleton _ _
  · have hsum := (hperm.map PendingRequest.bytes).sum_eq
    have := h.bytes hd
    simp only [RemoteRpc.settle, List.map_cons, List.sum_cons] at hsum ⊢
    omega
  · have hsum := (hperm.map PendingRequest.bytes).sum_eq
    have := h.limit
    simp only [RemoteRpc.settle, List.map_cons, List.sum_cons] at hsum ⊢
    omega
  · exact Nat.le_trans (settle_filter_length ..) h.observed
  · exact Nat.le_trans (settle_filter_length ..) h.diagnoses
  · have hp := h.ended he
    rw [hp] at hm
    simp at hm

/-- A request that the queue has room for. -/
theorem issued (h : RpcInv p) (hf : p.failed = false) (hd : p.disposed = false) {type : BackendCommand} {bytes : Nat}
    (hroom : p.queueFull type = false) (hbytes : p.pendingBytes + bytes ≤ maxPendingBytes) :
    RpcInv { p with
      nextID := p.nextID + 1
      pending := p.pending ++ [{ message := { id := p.nextID, type := type }, bytes := bytes }]
      pendingBytes := p.pendingBytes + bytes } := by
  have hsum := h.bytes hd
  have hnext := h.next
  have hroom' : p.pending.length < maxPending ∨ type ≠ .diagnose ∧ p.observed.length < maxPending := by
    simp only [queueFull, Bool.and_eq_false_iff, Bool.or_eq_false_iff, decide_eq_false_iff_not, not_le] at hroom
    exact hroom
  refine ⟨by simp, ?_, fun _ => ?_, ?_, ?_, ?_, fun he => ?_⟩
  · have hrange : List.range' 1 (p.nextID + 1 - 1) = List.range' 1 (p.nextID - 1) ++ [p.nextID] := by
      rw [show p.nextID + 1 - 1 = (p.nextID - 1) + 1 by omega, List.range'_concat]
      simp
      omega
    simp only [pendingIDs, List.map_append, List.map_cons, List.map_nil] at *
    rw [hrange, List.append_assoc]
    refine (List.Perm.append_left _ List.perm_append_comm).trans ?_
    rw [← List.append_assoc]
    exact h.ids.append_right _
  · simp [hsum]
  · simp only [List.map_append, List.sum_append, List.map_cons, List.map_nil, List.sum_cons, List.sum_nil]
    omega
  · have hle := h.observed
    have hlen : p.observed.length ≤ p.pending.length := List.length_filter_le ..
    by_cases ht : type = .diagnose
    · simp only [RemoteRpc.observed] at hle ⊢
      simpa [ht] using hle
    · simp only [RemoteRpc.observed] at hle hlen hroom' ⊢
      rw [List.filter_append, List.length_append]
      have := List.length_filter_le (fun request : PendingRequest => decide (request.message.type ≠ .diagnose))
        [{ message := { id := p.nextID, type := type }, bytes := bytes }]
      simp only [List.length_singleton] at this
      omega
  · have hle := h.diagnoses
    have hlen : p.diagnoses.length ≤ p.pending.length := List.length_filter_le ..
    by_cases ht : type = .diagnose
    · simp only [RemoteRpc.diagnoses] at hle hlen ⊢
      rw [List.filter_append, List.length_append]
      have := List.length_filter_le (fun request : PendingRequest => decide (request.message.type = .diagnose))
        [{ message := { id := p.nextID, type := type }, bytes := bytes }]
      simp only [List.length_singleton] at this
      have := hroom'.resolve_right fun hr => hr.1 ht
      omega
    · simp only [RemoteRpc.diagnoses] at hle ⊢
      simpa [ht] using hle
  · simp [hf, hd] at he

theorem request (h : RpcInv p) (type : BackendCommand) (bytes : Nat) (posts : Bool) :
    RpcInv (p.request type bytes posts).1 := by
  unfold RemoteRpc.request
  split
  · exact h
  · rename_i hopen
    simp only [Bool.or_eq_true, not_or, Bool.not_eq_true] at hopen
    split
    · simp only
      split
      · exact h
      · exact h.fail
    · rename_i hfits
      extract_lets request q
      simp only [Bool.or_eq_true, decide_eq_true_eq, not_or, Bool.not_eq_true, not_lt] at hfits
      have hq : RpcInv q := h.issued hopen.2 hopen.1 hfits.1 hfits.2
      split
      · exact hq
      · simp only
        split
        · exact hq.settle (List.mem_append_right _ (List.mem_singleton.mpr rfl)) false
        · exact hq.fail

/-- What `accept` leaves alone. -/
structure Bookkeeping (p q : RemoteRpc) : Prop where
  generation : q.generation = p.generation
  nextID : q.nextID = p.nextID
  pending : q.pending = p.pending
  pendingBytes : q.pendingBytes = p.pendingBytes
  disposed : q.disposed = p.disposed
  failed : q.failed = p.failed
  settled : q.settled = p.settled

theorem of_bookkeeping (h : RpcInv p) {q : RemoteRpc} (hb : Bookkeeping p q) : RpcInv q where
  next := hb.nextID ▸ h.next
  ids := by
    unfold pendingIDs
    rw [hb.pending, hb.settled, hb.nextID]
    exact h.ids
  bytes hd := by
    rw [hb.pending, hb.pendingBytes]
    exact h.bytes (hb.disposed ▸ hd)
  limit := hb.pending ▸ h.limit
  observed := by
    unfold RemoteRpc.observed
    rw [hb.pending]
    exact h.observed
  diagnoses := by
    unfold RemoteRpc.diagnoses
    rw [hb.pending]
    exact h.diagnoses
  ended he := by
    rw [hb.pending]
    rw [hb.failed, hb.disposed] at he
    exact h.ended he

theorem acceptProgress_bookkeeping (p : RemoteRpc) (state : TerminalProgress) : Bookkeeping p (p.acceptProgress state) := by
  unfold RemoteRpc.acceptProgress
  split <;> exact ⟨rfl, rfl, rfl, rfl, rfl, rfl, rfl⟩

theorem accept_bookkeeping (p : RemoteRpc) (result : BackendResult) : Bookkeeping p (p.accept result).1 := by
  have hprogress := acceptProgress_bookkeeping p
  cases result with
  | terminalState state cells =>
    unfold RemoteRpc.accept RemoteRpc.acceptFrame
    simp only
    split
    · exact ⟨rfl, rfl, rfl, rfl, rfl, rfl, rfl⟩
    · split
      · exact ⟨rfl, rfl, rfl, rfl, rfl, rfl, rfl⟩
      · split
        · exact ⟨(hprogress state).1, (hprogress state).2, (hprogress state).3, (hprogress state).4, (hprogress state).5,
            (hprogress state).6, (hprogress state).7⟩
        · exact hprogress state
  | terminalProgress state => exact hprogress state
  | other => exact ⟨rfl, rfl, rfl, rfl, rfl, rfl, rfl⟩

theorem onmessage (h : RpcInv p) (reply : WorkerReply) : RpcInv (p.onmessage reply) := by
  unfold RemoteRpc.onmessage
  split
  · exact h
  · split
    · exact h
    · rename_i request hfind
      have hm := List.mem_of_find?_eq_some hfind
      split
      · simp only
        split
        · exact (h.settle hm false).fail
        · exact h.settle hm false
      · rename_i result _
        have hb := accept_bookkeeping p result
        split
        · rename_i q heq
          rw [heq] at hb
          exact (h.of_bookkeeping hb).settle (hb.pending ▸ hm) true
        · rename_i q heq
          rw [heq] at hb
          exact ((h.of_bookkeeping hb).settle (hb.pending ▸ hm) false).fail

theorem checkTimeout (h : RpcInv p) (id : Nat) (late : Bool) : RpcInv (p.checkTimeout id late) := by
  unfold RemoteRpc.checkTimeout
  split
  · exact h
  · rename_i request hfind
    split
    · exact h.settle (List.mem_of_find?_eq_some hfind) false
    · split
      · exact h
      · exact h.fail

end RpcInv

end RemoteRpc

/-! ## What a page's step may do -/

namespace RemoteRpc

/-- Nothing is added to what is pending, and nothing that has ended begins again. -/
structure Shrinks (p q : RemoteRpc) : Prop where
  pending : q.pending.Sublist p.pending
  next : p.nextID ≤ q.nextID
  failed : q.failed = false → p.failed = false
  disposed : q.disposed = false → p.disposed = false

variable {p : RemoteRpc}

theorem Shrinks.refl (p : RemoteRpc) : Shrinks p p := ⟨.refl _, Nat.le_refl _, id, id⟩

theorem Shrinks.trans {q r : RemoteRpc} (h₁ : Shrinks p q) (h₂ : Shrinks q r) : Shrinks p r :=
  ⟨h₂.pending.trans h₁.pending, Nat.le_trans h₁.next h₂.next, fun h => h₁.failed (h₂.failed h),
    fun h => h₁.disposed (h₂.disposed h)⟩

theorem fail_shrinks (p : RemoteRpc) : Shrinks p p.fail := by
  unfold fail
  split
  · exact .refl p
  · exact ⟨List.nil_sublist _, Nat.le_refl _, nofun, id⟩

theorem free_shrinks (p : RemoteRpc) : Shrinks p p.free := by
  unfold free
  split
  · exact .refl p
  · exact ⟨List.nil_sublist _, Nat.le_refl _, id, nofun⟩

theorem settle_shrinks (p : RemoteRpc) (request : PendingRequest) (resolved : Bool) : Shrinks p (p.settle request resolved) :=
  ⟨List.filter_sublist, Nat.le_refl _, id, id⟩

theorem Bookkeeping.shrinks {q : RemoteRpc} (h : RpcInv.Bookkeeping p q) : Shrinks p q :=
  ⟨by rw [h.pending], by rw [h.nextID], fun hf => h.failed ▸ hf, fun hd => h.disposed ▸ hd⟩

theorem checkTimeout_shrinks (p : RemoteRpc) (id : Nat) (late : Bool) : Shrinks p (p.checkTimeout id late) := by
  unfold checkTimeout
  split
  · exact .refl p
  · split
    · exact settle_shrinks ..
    · split
      · exact .refl p
      · exact fail_shrinks p

/-- The request that a reply is about is not pending any more. -/
theorem onmessage_drops (h : p.RpcInv) (reply : WorkerReply) : Shrinks p (p.onmessage reply) ∧
    (p.onmessage reply).pending.Sublist (p.pending.filter fun request => request.message.id ≠ reply.message.id) := by
  unfold onmessage
  split
  · rename_i hd
    simp [h.ended (.inr hd), Shrinks.refl]
  · split
    · rename_i hfind
      refine ⟨.refl p, ?_⟩
      rw [List.filter_eq_self.mpr fun request hm => ?_]
      simpa using List.find?_eq_none.mp hfind request hm
    · rename_i request hfind
      have hid : request.message.id = reply.message.id := by simpa using List.find?_some hfind
      have hsettle (q : RemoteRpc) (hq : Shrinks p q) (b : Bool) : Shrinks p (q.settle request b) ∧
          (q.settle request b).pending.Sublist (p.pending.filter fun request => request.message.id ≠ reply.message.id) := by
        refine ⟨hq.trans (settle_shrinks ..), ?_⟩
        rw [← hid]
        exact List.Sublist.filter _ hq.pending
      have hfail {q : RemoteRpc} (hq : Shrinks p q ∧ q.pending.Sublist (p.pending.filter fun request =>
          request.message.id ≠ reply.message.id)) : Shrinks p q.fail ∧
            q.fail.pending.Sublist (p.pending.filter fun request => request.message.id ≠ reply.message.id) :=
        ⟨hq.1.trans (fail_shrinks q), (fail_shrinks q).pending.trans hq.2⟩
      split
      · simp only
        split
        · exact hfail (hsettle p (.refl p) false)
        · exact hsettle p (.refl p) false
      · rename_i result _
        have hb := Bookkeeping.shrinks (RpcInv.accept_bookkeeping p result)
        split
        · rename_i q heq
          rw [heq] at hb
          exact hsettle q hb true
        · rename_i q heq
          rw [heq] at hb
          exact hfail (hsettle q hb false)

/-- A request is posted with a number of its own, or nothing is added to what is pending. -/
theorem request_spec (p : RemoteRpc) (type : BackendCommand) (bytes : Nat) (posts : Bool) :
    ((p.request type bytes posts).2 = none ∧ Shrinks p (p.request type bytes posts).1) ∨
    ((p.request type bytes posts).2 = some { id := p.nextID, type := type } ∧
      (p.request type bytes posts).1.pending.map PendingRequest.message =
        p.pending.map PendingRequest.message ++ [{ id := p.nextID, type := type }] ∧
      (p.request type bytes posts).1.nextID = p.nextID + 1 ∧ p.failed = false ∧ p.disposed = false) := by
  unfold request
  split
  · exact .inl ⟨rfl, .refl p⟩
  · rename_i hopen
    simp only [Bool.or_eq_true, not_or, Bool.not_eq_true] at hopen
    split
    · refine .inl ⟨rfl, ?_⟩
      simp only
      split
      · exact .refl p
      · exact fail_shrinks p
    · extract_lets request q
      split
      · exact .inr ⟨rfl, by simp [q, request], rfl, hopen.2, hopen.1⟩
      · refine .inl ⟨rfl, ?_⟩
        simp only
        split
        · refine ⟨?_, Nat.le_succ _, id, id⟩
          simp only [settle, q, List.filter_append, request]
          simp
        · unfold fail
          split
          · rename_i he
            simp [q, hopen] at he
          · exact ⟨List.nil_sublist _, Nat.le_succ _, nofun, id⟩

end RemoteRpc

/-! ## What is under way -/

def noCells : FrameCells := { alternate := false, colors := "", viewport := { bytes := [], texts := [], columns := 0, rows := 0 } }

namespace BackendRun

/-- The commands whose replies the page has not heard, in order. -/
def talk (s : BackendRun) : List BackendMessage := s.flying.map WorkerReply.message ++ s.lane

structure Listening (s : BackendRun) : Prop where
  page : s.page.RpcInv
  /-- What is pending will be answered, in the order of the requests. -/
  order : (s.page.pending.map PendingRequest.message).Sublist s.talk
  ids : (s.talk.map BackendMessage.id).Nodup
  known : ∀ message ∈ s.talk, message.id < s.page.nextID
  alive : s.page.failed = false → s.page.disposed = false → s.worker ≠ none
  ended : s.page.failed = true ∨ s.page.disposed = true → s.lane = []

namespace Listening

variable {s : BackendRun}

theorem withPage {p : RemoteRpc} (hids : (s.talk.map BackendMessage.id).Nodup) (hknown : ∀ message ∈ s.talk, message.id < p.nextID)
    (halive : p.failed = false → p.disposed = false → s.worker ≠ none) (hp : p.RpcInv)
    (ho : (p.pending.map PendingRequest.message).Sublist s.talk) : Listening (s.withPage p) := by
  unfold BackendRun.withPage
  split
  · rename_i he
    have hended : p.failed = true ∨ p.disposed = true := by simpa using he
    have hnil : p.pending = [] := hp.ended hended
    have hsub : (s.flying.map WorkerReply.message).Sublist s.talk := List.sublist_append_left ..
    refine ⟨hp, by simp [hnil], ?_, fun message hm => ?_, fun hf hd => ?_, fun _ => rfl⟩
    · simpa [talk] using hids.sublist (hsub.map _)
    · exact hknown message (hsub.subset (by simpa [talk] using hm))
    · rcases hended with he | he
      · exact absurd (hf.symm.trans he) (by simp)
      · exact absurd (hd.symm.trans he) (by simp)
  · rename_i he
    exact ⟨hp, ho, hids, hknown, halive, fun hended => absurd (by simpa using hended) he⟩

theorem shrinks (h : Listening s) {p : RemoteRpc} (hp : p.RpcInv) (hs : RemoteRpc.Shrinks s.page p) : Listening (s.withPage p) :=
  withPage h.ids (fun message hm => Nat.lt_of_lt_of_le (h.known message hm) hs.next)
    (fun hf hd => h.alive (hs.failed hf) (hs.disposed hd)) hp ((hs.pending.map _).trans h.order)

theorem request (h : Listening s) (type : BackendCommand) (bytes : Nat) (posts : Bool) : Listening (s.request type bytes posts) := by
  have hp := h.page.request type bytes posts
  have hspec := s.page.request_spec type bytes posts
  unfold BackendRun.request
  revert hp hspec
  obtain ⟨p, message⟩ := s.page.request type bytes posts
  intro hp hspec
  rcases hspec with ⟨rfl, hs⟩ | ⟨rfl, hpending, hnext, hf, hd⟩
  · simp only [Option.toList_none, List.append_nil]
    exact h.shrinks hp hs
  · simp only [Option.toList_some]
    have htalk : talk { s with lane := s.lane ++ [{ id := s.page.nextID, type := type }] } =
        s.talk ++ [{ id := s.page.nextID, type := type }] := by simp [talk]
    refine withPage ?_ (fun message hm => ?_) (fun _ _ => h.alive hf hd) hp ?_
    · rw [htalk, List.map_append, List.nodup_append]
      refine ⟨h.ids, by simp, fun id hid other hother => ?_⟩
      obtain ⟨message, hm, rfl⟩ := List.mem_map.mp hid
      have := h.known message hm
      simp only [List.map_cons, List.map_nil, List.mem_singleton] at hother
      omega
    · rw [htalk] at hm
      simp only at hnext
      rw [hnext]
      rcases List.mem_append.mp hm with hm | hm
      · exact Nat.lt_succ_of_lt (h.known message hm)
      · simp only [List.mem_singleton] at hm
        simp [hm]
    · simp only at hpending
      rw [htalk, hpending]
      exact h.order.append_right _

theorem fresh (h : s.page.RpcInv) : Listening { page := s.page.restart, worker := some {} } := by
  refine ⟨h.restart, ?_, ?_, ?_, ?_, ?_⟩ <;> simp [talk, RemoteRpc.restart, RemoteRpc.rejectPending]

theorem restart (h : s.page.RpcInv) (constructs posts : Bool) : Listening (s.restart constructs posts) := by
  have hfresh := fresh h
  unfold BackendRun.restart
  simp only
  split
  · exact hfresh.request ..
  · refine hfresh.shrinks (hfresh.page.rejected rfl rfl ?_ ?_) ⟨.refl _, Nat.le_refl _, nofun, id⟩
    · simp [RemoteRpc.restart, RemoteRpc.rejectPending]
    · exact fun _ => rfl

theorem constructed (constructs posts : Bool) : Listening (.constructed constructs posts) := restart .start constructs posts

theorem handle (h : Listening s) {worker : WorkerRuntime} {message : BackendMessage} {lane : List BackendMessage}
    {reply : WorkerReply} (posted : List String) (hl : s.lane = message :: lane)
    (hr : reply.message = message) : Listening { s with
      worker := some worker, lane := lane, flying := s.flying ++ [reply], posted := posted } := by
  have htalk : talk { s with worker := some worker, lane := lane, flying := s.flying ++ [reply], posted := posted } = s.talk := by
    simp [talk, hl, hr]
  refine ⟨h.page, htalk ▸ h.order, htalk ▸ h.ids, htalk ▸ h.known, fun _ _ => by simp, fun he => ?_⟩
  have := h.ended he
  simp [hl] at this

theorem deliver (h : Listening s) {reply : WorkerReply} {flying : List WorkerReply} (hf : s.flying = reply :: flying) :
    Listening (BackendRun.withPage { s with flying := flying } (s.page.onmessage reply)) := by
  have htalk : s.talk = reply.message :: talk { s with flying := flying } := by simp [talk, hf]
  have hids := h.ids
  rw [htalk, List.map_cons, List.nodup_cons] at hids
  obtain ⟨hs, hdrops⟩ := RemoteRpc.onmessage_drops h.page reply
  refine withPage hids.2 (fun message hm => ?_) (fun hfail hd => h.alive (hs.failed hfail) (hs.disposed hd))
    (h.page.onmessage reply) ?_
  · exact Nat.lt_of_lt_of_le (h.known message (htalk ▸ List.mem_cons_of_mem _ hm)) hs.next
  · have hrest : (s.talk.filter fun message => message.id ≠ reply.message.id) = talk { s with flying := flying } := by
      rw [htalk, List.filter_cons_of_neg (by simp), List.filter_eq_self]
      intro message hm
      simpa using fun he => hids.1 (List.mem_map.mpr ⟨message, hm, he⟩)
    rw [← hrest]
    refine (hdrops.map _).trans ?_
    have := List.Sublist.filter (fun message => message.id ≠ reply.message.id) h.order
    rwa [List.filter_map] at this

theorem step (h : Listening s) {event : BackendEvent} {s' : BackendRun} (hs : backendMachine.step s event = some s') :
    Listening s' := by
  cases event with
  | request type bytes posts => exact Option.some.inj hs ▸ h.request type bytes posts
  | handle outcome =>
    simp only [backendMachine] at hs
    split at hs
    · rename_i worker message lane _ hl
      obtain rfl := Option.some.inj hs
      exact h.handle _ hl (worker.handle_spec message outcome).about
    · cases hs
  | deliver =>
    simp only [backendMachine] at hs
    split at hs
    · cases hs
    · rename_i reply flying hf
      exact Option.some.inj hs ▸ h.deliver hf
  | stale reply => exact Option.some.inj hs ▸ h
  | timeout id late => exact Option.some.inj hs ▸ h.shrinks (h.page.checkTimeout id late) (RemoteRpc.checkTimeout_shrinks ..)
  | workerError => exact Option.some.inj hs ▸ h.shrinks h.page.fail (RemoteRpc.fail_shrinks _)
  | readResponse =>
    simp only [backendMachine] at hs
    split at hs
    · cases hs
    · obtain rfl := Option.some.inj hs
      exact ⟨⟨h.page.next, h.page.ids, h.page.bytes, h.page.limit, h.page.observed, h.page.diagnoses, h.page.ended⟩, h.order,
        h.ids, h.known, h.alive, h.ended⟩
  | restart constructs posts =>
    simp only [backendMachine] at hs
    split at hs
    · cases hs
    · exact Option.some.inj hs ▸ restart h.page constructs posts
  | free => exact Option.some.inj hs ▸ h.shrinks h.page.free (RemoteRpc.free_shrinks _)

theorem run {s t : BackendRun} {events : List BackendEvent} (h : backendMachine.run s events = some t) (hs : Listening s) :
    Listening t :=
  Machine.run_inv _ (fun _ _ _ hi hstep => hi.step hstep) h hs

end Listening

end BackendRun

/-! ## Coming to rest -/

/-- What the worker and its messages do by themselves. -/
def BackendEvent.Owed : BackendEvent → Prop
  | .handle _ | .deliver => True
  | _ => False

namespace BackendRun

variable {s t : BackendRun}

/-- A command is a step of the worker and one of the page away from its end. -/
def work (s : BackendRun) : Nat := 2 * s.lane.length + s.flying.length

theorem work_withPage_le (s : BackendRun) (p : RemoteRpc) : (s.withPage p).work ≤ s.work := by
  unfold withPage work
  split <;> simp

theorem owed_works {event : BackendEvent} (ho : event.Owed) (hs : backendMachine.step s event = some t) : t.work < s.work := by
  cases event with
  | handle outcome =>
    simp only [backendMachine] at hs
    split at hs
    · rename_i worker message lane _ hl
      obtain rfl := Option.some.inj hs
      simp [work, hl]
      omega
    · cases hs
  | deliver =>
    simp only [backendMachine] at hs
    split at hs
    · cases hs
    · rename_i reply flying hf
      obtain rfl := Option.some.inj hs
      have := work_withPage_le { s with flying := flying } (s.page.onmessage reply)
      simp only [work, hf, List.length_cons] at this ⊢
      omega
  | request | stale | timeout | workerError | readResponse | restart | free => exact ho.elim

theorem settles : backendMachine.Settles BackendEvent.Owed Listening work where
  keeps _ _ _ h _ hs := h.step hs
  works _ _ _ _ ho hs := .inr (owed_works ho hs)

theorem Listening.leads (h : Listening s) (hl : backendMachine.Leads BackendEvent.Owed s t) : Listening t :=
  hl.inv (fun _ _ _ hi _ hs => hi.step hs) h

/-- What is pending while nothing moves would have been forgotten. -/
theorem Listening.quiet (h : Listening s) (hq : backendMachine.Quiet BackendEvent.Owed s) : s.page.pending = [] := by
  have hstop (event : BackendEvent) (ho : event.Owed) : backendMachine.step s event = none := by
    cases hs : backendMachine.step s event with
    | none => rfl
    | some t =>
      have hlt := owed_works ho hs
      rw [hq event t ho hs] at hlt
      exact absurd hlt (Nat.lt_irrefl _)
  by_cases he : s.page.failed = true ∨ s.page.disposed = true
  · exact h.page.ended he
  · have hflying : s.flying = [] := by
      have := hstop .deliver trivial
      simp only [backendMachine] at this
      split at this
      · assumption
      · cases this
    have hlane : s.lane = [] := by
      have := hstop (.handle { cells := noCells }) trivial
      simp only [not_or, Bool.not_eq_true] at he
      have halive := h.alive he.1 he.2
      simp only [backendMachine] at this
      split at this
      · cases this
      · rename_i hno
        cases hw : s.worker with
        | none => exact absurd hw halive
        | some worker =>
          cases hl : s.lane with
          | nil => rfl
          | cons message lane => exact (hno worker message lane hw hl).elim
    have := h.order
    simpa [talk, hflying, hlane] using this

end BackendRun

/-- Every request is counted once, among what is pending or among what is
settled, within the queue's bounds; the worker answers in the order of the
requests, and when it has, nothing is pending. -/
theorem backend_requests_settle (constructs posts : Bool) {events : List BackendEvent} {s : BackendRun}
    (h : backendMachine.run (.constructed constructs posts) events = some s) :
    (s.page.pendingIDs ++ s.page.settled.map Prod.fst).Perm (List.range' 1 (s.page.nextID - 1)) ∧
    (s.page.disposed = false → s.page.pendingBytes = (s.page.pending.map PendingRequest.bytes).sum) ∧
    (s.page.pending.map PendingRequest.bytes).sum ≤ RemoteRpc.maxPendingBytes ∧
    s.page.observed.length ≤ RemoteRpc.maxPending ∧ s.page.diagnoses.length ≤ RemoteRpc.maxPending ∧
    (s.page.failed = true ∨ s.page.disposed = true → s.page.pending = []) ∧
    (s.page.pending.map PendingRequest.message).Sublist s.talk ∧
    (∃ t, backendMachine.Leads BackendEvent.Owed s t ∧ backendMachine.Quiet BackendEvent.Owed t) ∧
    ∀ t, backendMachine.Leads BackendEvent.Owed s t → backendMachine.Quiet BackendEvent.Owed t → t.page.pending = [] ∧
      (t.page.settled.map Prod.fst).Perm (List.range' 1 (t.page.nextID - 1)) := by
  have hs := BackendRun.Listening.run h (.constructed constructs posts)
  refine ⟨hs.page.ids, hs.page.bytes, hs.page.limit, hs.page.observed, hs.page.diagnoses, hs.page.ended, hs.order,
    BackendRun.settles.leads_quiet hs, fun t hl hq => ?_⟩
  have ht := hs.leads hl
  have hp := ht.quiet hq
  have hids := ht.page.ids
  exact ⟨hp, by simpa [RemoteRpc.pendingIDs, hp] using hids⟩

/-- A worker that refuses a write while a diagnosis waits behind it. -/
def refusedEvents : List BackendEvent :=
  [.request .write 3 true, .request .diagnose 0 true, .handle { held := true, cells := noCells }, .deliver,
    .handle { refuses := some "out of memory", cells := noCells }]

theorem refusedEvents_runs : (backendMachine.run (.constructed true true) refusedEvents).isSome = true := by decide +kernel

theorem backend_requests_settle_refused : ∃ s t, backendMachine.run (.constructed true true) refusedEvents = some s ∧
    s.page.pendingIDs = [2, 3] ∧ backendMachine.Leads BackendEvent.Owed s t ∧
    t.page.pending = [] ∧ (t.page.settled.map Prod.fst).Perm (List.range' 1 (t.page.nextID - 1)) := by
  have h := (Option.some_get refusedEvents_runs).symm
  obtain ⟨-, -, -, -, -, -, -, ⟨t, hl, hq⟩, hrest⟩ := backend_requests_settle true true h
  exact ⟨_, t, h, by decide +kernel, hl, hrest t hl hq⟩

end Webshell
