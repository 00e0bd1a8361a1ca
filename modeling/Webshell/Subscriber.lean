import Webshell.History

/-!
# The subscriber queue

A client's output passes through `send`, a channel of 256 messages, and behind
it `pending`, where adjacent binary messages are merged. `received` is what the
client's writer has taken from `send` so far.
-/

namespace Webshell

def clientQueueLimit : Nat := 8 * 1024 * 1024

def clientSendCapacity : Nat := 256

@[ext] structure Geometry where
  cols : Int
  rows : Int
  pixelWidth : Int
  pixelHeight : Int
  deriving DecidableEq

/-- The text controls a pane sends, without the fields that only describe. -/
inductive PaneControl
  | processExit (exitCode : Int) (message : String) (retained : Bool)
  | checkpointDiagnostic
  | resizeOwnerReleased (epoch : Nat) (geometry : Geometry)
  | resizeApplied (epoch : Nat) (geometry : Geometry)
  | resizeError (epoch appliedEpoch : Nat) (geometry : Geometry) (reason : String)
  | pong
  deriving DecidableEq

/-- `retryable` in a resize error. -/
def retryable (reason : String) : Bool := reason = "pty_resize_failed"

inductive PanePayload
  | binary (data : Bytes)
  /-- A control and the length of its JSON text. -/
  | text (control : PaneControl) (size : Nat)
  deriving DecidableEq

structure PaneOutbound where
  payload : PanePayload
  closeAfter : Bool := false
  deriving DecidableEq

namespace PaneOutbound

def size (o : PaneOutbound) : Nat :=
  match o.payload with
  | .binary data => data.length
  | .text _ size => size

/-- The binary payload, empty for a text message. -/
def bytes (o : PaneOutbound) : Bytes :=
  match o.payload with
  | .binary data => data
  | .text .. => []

end PaneOutbound

structure PaneClient where
  send : List PaneOutbound
  pending : List PaneOutbound
  queuedBytes : Int
  done : Bool
  received : List PaneOutbound
  deriving DecidableEq

/-- The last pending message with `outbound` merged into it, if both are binary and small. -/
def mergeLast : List PaneOutbound → PaneOutbound → Option (List PaneOutbound)
  | [], _ => none
  | [last], outbound =>
    match last.payload, outbound.payload with
    | .binary a, .binary b =>
      if !last.closeAfter && !outbound.closeAfter && a.length + b.length ≤ historyChunkMaxBytes then
        some [{ last with payload := .binary (a ++ b) }]
      else none
    | _, _ => none
  | o :: rest, outbound => (mergeLast rest outbound).map (o :: ·)

/-- The loop of `dequeued`: pending messages moved to `send` while it has room. -/
def refill (send : List PaneOutbound) : List PaneOutbound → List PaneOutbound × List PaneOutbound
  | [] => (send, [])
  | o :: pending =>
    if send.length < clientSendCapacity then refill (send ++ [o]) pending else (send, o :: pending)

namespace PaneClient

def new : PaneClient := { send := [], pending := [], queuedBytes := 0, done := false, received := [] }

def close (c : PaneClient) : PaneClient := { c with done := true }

def enqueue (c : PaneClient) (outbound : PaneOutbound) : PaneClient × Bool :=
  if c.done then (c, false)
  else if (clientQueueLimit : Int) < c.queuedBytes + outbound.size then (c.close, false)
  else
    let c := { c with queuedBytes := c.queuedBytes + outbound.size }
    if c.pending = [] ∧ c.send.length < clientSendCapacity then ({ c with send := c.send ++ [outbound] }, true)
    else
      match mergeLast c.pending outbound with
      | some pending => ({ c with pending := pending }, true)
      | none =>
        if clientQueueLimit / historyChunkMaxBytes ≤ c.pending.length then
          ({ c with queuedBytes := c.queuedBytes - outbound.size }.close, false)
        else ({ c with pending := c.pending ++ [outbound] }, true)

/-- The writer takes a message from `send`. -/
def receive (c : PaneClient) : Option PaneClient :=
  match c.send with
  | [] => none
  | o :: send => some { c with send := send, received := c.received ++ [o] }

def dequeued (c : PaneClient) (size : Int) : PaneClient :=
  if size ≤ 0 then c
  else
    let moved := refill c.send c.pending
    { c with queuedBytes := max 0 (c.queuedBytes - size), send := moved.1, pending := moved.2 }

/-- Everything enqueued so far, in order. -/
def accepted (c : PaneClient) : List PaneOutbound := c.received ++ c.send ++ c.pending

/-- The binary payloads enqueued so far. -/
def binary (c : PaneClient) : Bytes := c.accepted.flatMap PaneOutbound.bytes

end PaneClient

/-! ## Nothing is lost or reordered -/

theorem mergeLast_bytes : ∀ {pending pending' : List PaneOutbound} {outbound : PaneOutbound},
    mergeLast pending outbound = some pending' →
      pending'.flatMap PaneOutbound.bytes = pending.flatMap PaneOutbound.bytes ++ outbound.bytes
  | [], _, _, h => by cases h
  | [last], pending', outbound, h => by
    rw [mergeLast] at h
    split at h
    · rename_i a b ha hb
      split at h
      · cases h
        simp [PaneOutbound.bytes, ha, hb]
      · cases h
    · cases h
  | o :: p :: rest, pending', outbound, h => by
    rw [mergeLast] at h
    · obtain ⟨merged, hm, rfl⟩ := Option.map_eq_some_iff.mp h
      simp only [List.flatMap_cons, mergeLast_bytes hm, List.append_assoc]
    · rintro ⟨⟩

theorem refill_append (send pending : List PaneOutbound) :
    (refill send pending).1 ++ (refill send pending).2 = send ++ pending := by
  induction pending generalizing send with
  | nil => rfl
  | cons o pending ih =>
    rw [refill]
    split
    · rw [ih, List.append_assoc]; rfl
    · rfl

namespace PaneClient

theorem receive_accepted {c c' : PaneClient} (h : c.receive = some c') : c'.accepted = c.accepted ∧ c'.done = c.done := by
  unfold receive at h
  split at h
  · cases h
  · rename_i o send hs
    cases h
    exact ⟨by simp [accepted, hs], rfl⟩

theorem dequeued_accepted (c : PaneClient) (size : Int) :
    (c.dequeued size).accepted = c.accepted ∧ (c.dequeued size).done = c.done := by
  unfold dequeued
  split
  · exact ⟨rfl, rfl⟩
  · refine ⟨?_, rfl⟩
    simp only [accepted]
    rw [List.append_assoc, refill_append, List.append_assoc]

/-- A message is enqueued behind all others, or the client is closed. -/
theorem enqueue_binary (c : PaneClient) (outbound : PaneOutbound) :
    (c.enqueue outbound).1.binary = c.binary ++ (if (c.enqueue outbound).2 then outbound.bytes else []) ∧
      ((c.enqueue outbound).2 = false → (c.enqueue outbound).1.done = true) ∧
        ((c.enqueue outbound).2 = true → c.done = false ∧ (c.enqueue outbound).1.done = false) := by
  unfold enqueue
  split
  · rename_i hd; simp [hd]
  · rename_i hd
    have hd : c.done = false := by simpa using hd
    split
    · simp [close, binary, accepted]
    · simp only
      split
      · rename_i hroom
        simp [binary, accepted, hroom.1, hd]
      · split
        · rename_i pending hm
          refine ⟨?_, by simp, by simp [hd]⟩
          simp only [binary, accepted, List.flatMap_append, mergeLast_bytes hm, if_true, List.append_assoc]
        · split
          · simp [close, binary, accepted]
          · simp [binary, accepted, hd]

/-- Text messages carry no bytes. -/
theorem enqueue_text_binary (c : PaneClient) (control : PaneControl) (size : Nat) (closeAfter : Bool) :
    (c.enqueue ⟨.text control size, closeAfter⟩).1.binary = c.binary := by
  have h := (enqueue_binary c ⟨.text control size, closeAfter⟩).1
  rw [h]
  split <;> exact List.append_nil _

theorem enqueue_done {c : PaneClient} (h : c.done = true) (outbound : PaneOutbound) :
    c.enqueue outbound = (c, false) := by
  unfold enqueue; rw [if_pos h]

end PaneClient

end Webshell
