import Webshell.Machine
import Webshell.Subscriber
import Mathlib.Algebra.BigOperators.Group.List.Basic
import Mathlib.Algebra.GroupWithZero.Nat
import Mathlib.Data.List.Forall2
import Mathlib.Data.List.Perm.Basic

/-!
# The subscriber queue under any interleaving

Producers enqueue while the writer takes messages from `send` and, a moment
later, reports each with `dequeued`. `held` are the messages in between. What
comes out is what was accepted, some neighbours merged.
-/

namespace Webshell

structure SubscriberState where
  client : PaneClient
  /-- The messages accepted by `enqueue`. -/
  enqueued : List PaneOutbound
  held : List PaneOutbound
  deriving DecidableEq

inductive SubscriberEvent
  | enqueue (outbound : PaneOutbound)
  | receive
  /-- `dequeued` for the held message at an index. -/
  | dequeued (i : Nat)
  | close

def subscriberMachine : Machine SubscriberState SubscriberEvent where
  step s
    | .enqueue outbound =>
      if outbound.size = 0 then none
      else
        let r := s.client.enqueue outbound
        some { s with client := r.1, enqueued := if r.2 then s.enqueued ++ [outbound] else s.enqueued }
    | .receive =>
      match s.client.send, s.client.receive with
      | outbound :: _, some client => some { s with client := client, held := s.held ++ [outbound] }
      | _, _ => none
    | .dequeued i =>
      match s.held[i]? with
      | none => none
      | some outbound => some { s with client := s.client.dequeued outbound.size, held := s.held.eraseIdx i }
    | .close => some { s with client := s.client.close }

def freshSubscriber : SubscriberState := { client := .new, enqueued := [], held := [] }

def totalSize (outbounds : List PaneOutbound) : Nat := (outbounds.map PaneOutbound.size).sum

def PaneOutbound.isBinary (o : PaneOutbound) : Prop := ∃ data, o.payload = .binary data

/-- A message is one of those accepted, or the concatenation of binary neighbours. -/
def MergedFrom (parts : List PaneOutbound) (o : PaneOutbound) : Prop :=
  parts = [o] ∨ (2 ≤ parts.length ∧ (∀ part ∈ parts, part.isBinary ∧ part.closeAfter = false) ∧
    o = { payload := .binary (parts.flatMap PaneOutbound.bytes), closeAfter := false } ∧ o.size ≤ historyChunkMaxBytes)

/-- `delivered` are the messages of `accepted` in order, neighbours merged. -/
def Coalesced (accepted delivered : List PaneOutbound) : Prop :=
  ∃ groups : List (List PaneOutbound), accepted = groups.flatten ∧ List.Forall₂ MergedFrom groups delivered

structure SubscriberInv (s : SubscriberState) : Prop where
  delivered : Coalesced s.enqueued (s.client.received ++ s.client.send ++ s.client.pending)
  bytes : s.client.queuedBytes = totalSize s.client.send + totalSize s.client.pending + totalSize s.held
  limit : s.client.queuedBytes ≤ clientQueueLimit
  nonempty : ∀ o ∈ s.client.send ++ s.client.pending ++ s.held, 0 < o.size
  capacity : s.client.send.length ≤ clientSendCapacity
  flowing : s.client.pending ≠ [] → s.client.send.length = clientSendCapacity ∨ s.held ≠ []

/-! ## Merging -/

@[simp] theorem totalSize_nil : totalSize [] = 0 := rfl

@[simp] theorem totalSize_append (l r : List PaneOutbound) : totalSize (l ++ r) = totalSize l + totalSize r := by
  simp [totalSize]

@[simp] theorem totalSize_cons (o : PaneOutbound) (l : List PaneOutbound) :
    totalSize (o :: l) = o.size + totalSize l := by
  simp [totalSize]

theorem totalSize_eraseIdx {l : List PaneOutbound} {i : Nat} {o : PaneOutbound} (h : l[i]? = some o) :
    totalSize l = o.size + totalSize (l.eraseIdx i) := by
  obtain ⟨hi, rfl⟩ := List.getElem?_eq_some_iff.mp h
  have hp := (List.getElem_cons_eraseIdx_perm hi).map PaneOutbound.size
  have := hp.sum_eq
  simpa [totalSize] using this.symm

/-- Only the last message is merged into, and only binary ones that stay small. -/
theorem mergeLast_some : ∀ {pending pending' : List PaneOutbound} {outbound : PaneOutbound},
    mergeLast pending outbound = some pending' → ∃ before a b,
      pending = before ++ [⟨.binary a, false⟩] ∧ outbound = ⟨.binary b, false⟩ ∧
        a.length + b.length ≤ historyChunkMaxBytes ∧ pending' = before ++ [⟨.binary (a ++ b), false⟩]
  | [], _, _, h => by cases h
  | [last], pending', outbound, h => by
    obtain ⟨p, c⟩ := last
    obtain ⟨p', c'⟩ := outbound
    rw [mergeLast] at h
    split at h
    · rename_i a b ha hb
      simp only at ha hb
      subst ha hb
      split at h
      · rename_i hsmall
        simp only [Bool.and_eq_true, Bool.not_eq_true', decide_eq_true_eq] at hsmall
        obtain ⟨⟨rfl, rfl⟩, hle⟩ := hsmall
        cases h
        exact ⟨[], a, b, rfl, rfl, hle, rfl⟩
      · cases h
    · cases h
  | o :: p :: rest, pending', outbound, h => by
    rw [mergeLast] at h
    · obtain ⟨merged, hm, rfl⟩ := Option.map_eq_some_iff.mp h
      obtain ⟨before, a, b, hp, ho, hle, rfl⟩ := mergeLast_some hm
      exact ⟨o :: before, a, b, by rw [hp]; rfl, ho, hle, rfl⟩
    · rintro ⟨⟩

theorem Coalesced.snoc {accepted delivered : List PaneOutbound} (h : Coalesced accepted delivered) (o : PaneOutbound) :
    Coalesced (accepted ++ [o]) (delivered ++ [o]) := by
  obtain ⟨groups, rfl, hg⟩ := h
  exact ⟨groups ++ [[o]], by simp, List.rel_append hg (.cons (Or.inl rfl) .nil)⟩

/-- Appending to the last message, its parts growing by one. -/
theorem Coalesced.merge {accepted before : List PaneOutbound} {a b : Bytes}
    (h : Coalesced accepted (before ++ [⟨.binary a, false⟩])) (hle : a.length + b.length ≤ historyChunkMaxBytes) :
    Coalesced (accepted ++ [⟨.binary b, false⟩]) (before ++ [⟨.binary (a ++ b), false⟩]) := by
  obtain ⟨groups, rfl, hg⟩ := h
  obtain ⟨g₁, g₂, rfl, h₁, h₂⟩ : ∃ g₁ g₂, groups = g₁ ++ g₂ ∧ List.Forall₂ MergedFrom g₁ before ∧
      List.Forall₂ MergedFrom g₂ [⟨.binary a, false⟩] :=
    ⟨_, _, (List.take_append_drop before.length groups).symm, List.forall₂_take_append _ _ _ hg,
      List.forall₂_drop_append _ _ _ hg⟩
  cases h₂ with
  | @cons parts _ _ _ hp hnil =>
    cases hnil
    refine ⟨g₁ ++ [parts ++ [⟨.binary b, false⟩]], by simp, List.rel_append h₁ (.cons (Or.inr ?_) .nil)⟩
    rcases hp with rfl | ⟨hlen, hbin, ho, -⟩
    · refine ⟨by simp, ?_, by simp [PaneOutbound.bytes], ?_⟩
      · intro part hm
        simp only [List.cons_append, List.nil_append, List.mem_cons, List.not_mem_nil, or_false] at hm
        rcases hm with rfl | rfl
        · exact ⟨⟨a, rfl⟩, rfl⟩
        · exact ⟨⟨b, rfl⟩, rfl⟩
      · simpa [PaneOutbound.size] using hle
    · simp only [PaneOutbound.mk.injEq, PanePayload.binary.injEq, and_true] at ho
      refine ⟨by simp; omega, ?_, ?_, ?_⟩
      · intro part hm
        rcases List.mem_append.mp hm with hm | hm
        · exact hbin part hm
        · rw [List.mem_singleton.mp hm]
          exact ⟨⟨b, rfl⟩, rfl⟩
      · rw [List.flatMap_append, ← ho]; simp [PaneOutbound.bytes]
      · simpa [PaneOutbound.size] using hle

/-! ## One operation -/

/-- What `enqueue` does: refuse and close, send, merge into the tail, or queue behind it. -/
theorem enqueue_cases (c : PaneClient) (o : PaneOutbound) :
    c.enqueue o = ({ c with done := true }, false) ∨
      (c.queuedBytes + o.size ≤ clientQueueLimit ∧
        ((c.pending = [] ∧ c.send.length < clientSendCapacity ∧
            c.enqueue o = ({ c with queuedBytes := c.queuedBytes + o.size, send := c.send ++ [o] }, true)) ∨
          (∃ pending, mergeLast c.pending o = some pending ∧
            c.enqueue o = ({ c with queuedBytes := c.queuedBytes + o.size, pending := pending }, true)) ∨
          ((c.pending ≠ [] ∨ clientSendCapacity ≤ c.send.length) ∧
            c.enqueue o = ({ c with queuedBytes := c.queuedBytes + o.size, pending := c.pending ++ [o] }, true)))) := by
  unfold PaneClient.enqueue
  split
  · rename_i hd
    left
    rw [← hd]
  · split
    · exact Or.inl rfl
    · rename_i hlimit
      simp only
      split
      · rename_i hroom
        exact Or.inr ⟨Int.not_lt.mp hlimit, Or.inl ⟨hroom.1, hroom.2, rfl⟩⟩
      · rename_i hfull
        cases hm : mergeLast c.pending o with
        | some pending => exact Or.inr ⟨Int.not_lt.mp hlimit, Or.inr (Or.inl ⟨pending, rfl, rfl⟩)⟩
        | none =>
          simp only
          split
          · left
            simp [PaneClient.close]
          · refine Or.inr ⟨Int.not_lt.mp hlimit, Or.inr (Or.inr ⟨?_, rfl⟩)⟩
            by_cases hp : c.pending = []
            · exact Or.inr (Nat.not_lt.mp fun hlt => hfull ⟨hp, hlt⟩)
            · exact Or.inl hp

/-- A refused message leaves the queue as it was, and the client closed. -/
theorem enqueue_refused {c : PaneClient} {o : PaneOutbound} (h : (c.enqueue o).2 = false) :
    (c.enqueue o).1 = { c with done := true } := by
  rcases enqueue_cases c o with he | ⟨-, ⟨-, -, he⟩ | ⟨_, -, he⟩ | ⟨-, he⟩⟩ <;> rw [he] at h ⊢
  all_goals cases h

theorem refill_full : ∀ (pending send : List PaneOutbound), send.length ≤ clientSendCapacity →
    (refill send pending).1.length ≤ clientSendCapacity ∧
      ((refill send pending).2 ≠ [] → (refill send pending).1.length = clientSendCapacity)
  | [], send, h => ⟨h, fun hne => absurd rfl hne⟩
  | o :: pending, send, h => by
    rw [refill]
    split
    · rename_i hlt
      exact refill_full pending _ (by rw [List.length_append]; exact hlt)
    · exact ⟨h, fun _ => by simp only; omega⟩

namespace SubscriberInv

variable {s : SubscriberState}

theorem enqueue (h : SubscriberInv s) {o : PaneOutbound} (hsize : 0 < o.size) :
    SubscriberInv { s with
      client := (s.client.enqueue o).1
      enqueued := if (s.client.enqueue o).2 then s.enqueued ++ [o] else s.enqueued } := by
  rcases enqueue_cases s.client o with he | ⟨hlimit, ⟨hp, hroom, he⟩ | ⟨pending, hm, he⟩ | ⟨hfull, he⟩⟩ <;> rw [he]
  · exact ⟨h.delivered, h.bytes, h.limit, h.nonempty, h.capacity, h.flowing⟩
  · have hb := h.bytes
    constructor
    · have := h.delivered.snoc o
      rw [hp, List.append_nil] at this
      simpa [hp] using this
    · simp only [totalSize_append, totalSize_cons, totalSize_nil]; omega
    · exact hlimit
    · have := h.nonempty
      simp only [hp, List.append_nil, List.mem_append, List.mem_singleton] at this ⊢
      rintro x ((hx | rfl) | hx)
      · exact this x (Or.inl hx)
      · exact hsize
      · exact this x (Or.inr hx)
    · simp only [List.length_append, List.length_singleton]; omega
    · exact fun hne => absurd hp hne
  · have hb := h.bytes
    obtain ⟨before, a, b, hp, rfl, hle, rfl⟩ := mergeLast_some hm
    have hne : s.client.pending ≠ [] := by rw [hp]; simp
    constructor
    · have := h.delivered
      rw [hp, ← List.append_assoc] at this
      simpa using this.merge hle
    · rw [hp] at hb
      simp only [totalSize_append, totalSize_cons, totalSize_nil, PaneOutbound.size, List.length_append] at hb ⊢
      omega
    · exact hlimit
    · have := h.nonempty
      rw [hp] at this
      simp only [List.mem_append, List.mem_singleton] at this ⊢
      rintro x ((hx | hx | rfl) | hx)
      · exact this x (Or.inl (Or.inl hx))
      · exact this x (Or.inl (Or.inr (Or.inl hx)))
      · simp only [PaneOutbound.size, List.length_append] at hsize ⊢
        omega
      · exact this x (Or.inr hx)
    · exact h.capacity
    · exact fun _ => h.flowing hne
  · have hb := h.bytes
    constructor
    · have := h.delivered.snoc o
      simpa using this
    · simp only [totalSize_append, totalSize_cons, totalSize_nil]; omega
    · exact hlimit
    · have := h.nonempty
      simp only [List.mem_append, List.mem_singleton] at this ⊢
      rintro x ((hx | hx | rfl) | hx)
      · exact this x (Or.inl (Or.inl hx))
      · exact this x (Or.inl (Or.inr hx))
      · exact hsize
      · exact this x (Or.inr hx)
    · exact h.capacity
    · intro _
      rcases hfull with hne | hfull
      · exact h.flowing hne
      · exact Or.inl (Nat.le_antisymm h.capacity hfull)

theorem receive (h : SubscriberInv s) {o : PaneOutbound} {send : List PaneOutbound} (hs : s.client.send = o :: send) :
    SubscriberInv { s with
      client := { s.client with send := send, received := s.client.received ++ [o] }
      held := s.held ++ [o] } := by
  have hb := h.bytes
  have hn := h.nonempty
  have hc := h.capacity
  rw [hs] at hb hn hc
  constructor
  · have := h.delivered
    rw [hs] at this
    simpa using this
  · simp only [totalSize_append, totalSize_cons, totalSize_nil] at hb ⊢; omega
  · exact h.limit
  · simp only [List.mem_append, List.mem_cons, List.not_mem_nil, or_false] at hn ⊢
    rintro x ((hx | hx) | hx | rfl)
    · exact hn x (Or.inl (Or.inl (Or.inr hx)))
    · exact hn x (Or.inl (Or.inr hx))
    · exact hn x (Or.inr hx)
    · exact hn x (Or.inl (Or.inl (Or.inl rfl)))
  · simp only [List.length_cons] at hc
    simp only; omega
  · exact fun _ => Or.inr (by simp)

/-- A held message is counted, so taking its bytes off never goes below zero. -/
theorem held_le (h : SubscriberInv s) {i : Nat} {o : PaneOutbound} (hi : s.held[i]? = some o) :
    (o.size : Int) ≤ s.client.queuedBytes := by
  have hb := h.bytes
  have ht := totalSize_eraseIdx hi
  omega

theorem dequeued (h : SubscriberInv s) {i : Nat} {o : PaneOutbound} (hi : s.held[i]? = some o) :
    SubscriberInv { s with client := s.client.dequeued o.size, held := s.held.eraseIdx i } := by
  have hb := h.bytes
  have hle := h.held_le hi
  have hlimit := h.limit
  have ht := totalSize_eraseIdx hi
  have hpos : 0 < o.size := h.nonempty o (List.mem_append_right _ (List.mem_of_getElem? hi))
  have hsplit := refill_append s.client.send s.client.pending
  obtain ⟨hcap, hfull⟩ := refill_full s.client.pending s.client.send h.capacity
  unfold PaneClient.dequeued
  rw [if_neg (by omega)]
  constructor
  · have := h.delivered
    rw [List.append_assoc, ← hsplit, ← List.append_assoc] at this
    exact this
  · have hsum := congrArg totalSize hsplit
    rw [totalSize_append, totalSize_append] at hsum
    simp only; omega
  · simp only; omega
  · intro x hx
    simp only [hsplit] at hx
    rcases List.mem_append.mp hx with hx | hx
    · exact h.nonempty x (List.mem_append_left _ hx)
    · exact h.nonempty x (List.mem_append_right _ (List.mem_of_mem_eraseIdx hx))
  · exact hcap
  · exact fun hne => Or.inl (hfull hne)

theorem step (h : SubscriberInv s) {e : SubscriberEvent} {s' : SubscriberState}
    (hs : subscriberMachine.step s e = some s') : SubscriberInv s' := by
  cases e with
  | enqueue o =>
    simp only [subscriberMachine] at hs
    split at hs
    · cases hs
    · rename_i hsize
      cases hs
      exact h.enqueue (Nat.pos_of_ne_zero hsize)
  | receive =>
    simp only [subscriberMachine, PaneClient.receive] at hs
    cases hsend : s.client.send with
    | nil => rw [hsend] at hs; cases hs
    | cons o send =>
      rw [hsend] at hs
      cases hs
      exact h.receive hsend
  | dequeued i =>
    simp only [subscriberMachine] at hs
    cases hi : s.held[i]? with
    | none => rw [hi] at hs; cases hs
    | some o =>
      rw [hi] at hs
      cases hs
      exact h.dequeued hi
  | close =>
    cases hs
    exact ⟨h.delivered, h.bytes, h.limit, h.nonempty, h.capacity, h.flowing⟩

end SubscriberInv

theorem freshSubscriber_inv : SubscriberInv freshSubscriber where
  delivered := ⟨[], rfl, .nil⟩
  bytes := rfl
  limit := by decide
  nonempty := by simp [freshSubscriber, PaneClient.new]
  capacity := by decide
  flowing h := absurd rfl h

/-- Through any interleaving the client gets what was accepted, within the byte budget and without a stall. -/
theorem subscriber_delivers {s : SubscriberState} (h : subscriberMachine.Reachable freshSubscriber s) :
    Coalesced s.enqueued (s.client.received ++ s.client.send ++ s.client.pending) ∧
      s.client.queuedBytes = totalSize s.client.send + totalSize s.client.pending + totalSize s.held ∧
      s.client.queuedBytes ≤ clientQueueLimit ∧
      (∀ (i : Nat) (o : PaneOutbound), s.held[i]? = some o → 0 ≤ s.client.queuedBytes - o.size) ∧
      (s.client.pending ≠ [] → s.client.send.length = clientSendCapacity ∨ s.held ≠ []) ∧
      ∀ o, (s.client.enqueue o).2 = false → (s.client.enqueue o).1 = { s.client with done := true } := by
  have hi := subscriberMachine.reachable_inv (fun _ _ _ hinv hs => SubscriberInv.step hinv hs) h freshSubscriber_inv
  refine ⟨hi.delivered, hi.bytes, hi.limit, fun i o ho => ?_, hi.flowing, fun o ho => enqueue_refused ho⟩
  have := hi.held_le ho
  omega

theorem subscriber_delivers_one :
    ∃ s : SubscriberState, s.client.received = [⟨.binary [1, 2], false⟩] ∧ s.client.queuedBytes = 0 ∧
      Coalesced s.enqueued (s.client.received ++ s.client.send ++ s.client.pending) := by
  refine ⟨_, ?_, ?_, (subscriber_delivers
    ⟨[.enqueue ⟨.binary [1, 2], false⟩, .receive, .dequeued 0], rfl⟩).1⟩
  · rfl
  · rfl

end Webshell
