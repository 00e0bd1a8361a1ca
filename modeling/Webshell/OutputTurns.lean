import Webshell.JsValue

/-!
# Turns of output in the browser

Output that was received waits in a queue until the terminal has parsed it. At
the end of a turn the server is owed an acknowledgement, which is sent once
everything before the end is parsed.
-/

namespace Webshell

/-- What has to be the same when an acknowledgement is sent as it was when it became due. -/
structure OutputConnection where
  socket : Nat
  connectionEpoch : Nat
  channelGeneration : Nat
  deriving DecidableEq

structure QueueTurnAck where
  connection : OutputConnection
  cursor : Nat
  sequence : List Char
  deriving DecidableEq

structure OutputEntry where
  byteLength : Nat
  historyEndCursor : Option Nat
  deriving DecidableEq

/-- What `completeQueueTurn` returns. -/
inductive TurnStatus
  | ignored
  | invalid (reason : String)
  | accepted (cursor : Nat) (sequence : List Char)
  deriving DecidableEq

/-- What `sendQueueTurnAck` does: it returns true, it does not, or it throws. -/
inductive AckAnswer
  | sent
  | refused
  | thrown
  deriving DecidableEq

/-- A pane's session; `windowed` where its flow mode is `window-ack-v1`. -/
structure OutputSession where
  windowed : Bool := false
  closed : Bool := false
  unified : Bool := true
  connection : OutputConnection
  historyProtocolActive : Bool := false
  receivedHistoryCursor : Nat := 0
  appliedHistoryCursor : Nat := 0
  outputQueue : List OutputEntry := []
  queueTurnReceivedCursor : Option Nat := none
  queueTurnReceivedSequence : Option Nat := none
  pendingQueueTurnAck : Option QueueTurnAck := none
  ackBoundaries : List QueueTurnAck := []
  deriving DecidableEq

namespace OutputSession

def outputQueueSize (s : OutputSession) : Nat := (s.outputQueue.map OutputEntry.byteLength).sum

/-- `String(value ?? "")` of a counter. -/
def counterText : Option Nat → List Char
  | none => []
  | some n => Nat.toDigits 10 n

def resetQueueTurn (s : OutputSession) (windowed : Bool) : OutputSession :=
  { s with
    queueTurnReceivedCursor := none, queueTurnReceivedSequence := none, pendingQueueTurnAck := none
    ackBoundaries := [], windowed := windowed }

def noteQueueTurnFrame (s : OutputSession) (endCursor sequence : Nat) : OutputSession :=
  { s with queueTurnReceivedCursor := some endCursor, queueTurnReceivedSequence := some sequence }

def enqueueEntry (s : OutputSession) (byteLength : Nat) : OutputSession :=
  if byteLength = 0 then s
  else if s.historyProtocolActive then
    { s with
      receivedHistoryCursor := s.receivedHistoryCursor + byteLength
      outputQueue := s.outputQueue ++ [⟨byteLength, some (s.receivedHistoryCursor + byteLength)⟩] }
  else { s with outputQueue := s.outputQueue ++ [⟨byteLength, none⟩] }

/-- The bytes of a frame, cut up for the parser. -/
def write (s : OutputSession) (chunks : List Nat) : OutputSession := chunks.foldl enqueueEntry s

/-- The acknowledgement, where one is sent. -/
def trySendPendingQueueTurnAck (s : OutputSession) (answer : AckAnswer) : OutputSession × Option QueueTurnAck :=
  let consumed := s.ackBoundaries.takeWhile fun b => b.cursor ≤ s.appliedHistoryCursor
  match if s.windowed then consumed.getLast? else s.pendingQueueTurnAck with
  | none => (s, none)
  | some pending =>
    if s.closed = true ∨ s.connection.socket ≠ pending.connection.socket ∨ s.unified = false then (s, none)
    else if s.connection.connectionEpoch ≠ pending.connection.connectionEpoch ∨
        s.connection.channelGeneration ≠ pending.connection.channelGeneration ∨
        (s.windowed = false ∧ (0 < s.outputQueueSize ∨ s.appliedHistoryCursor ≠ pending.cursor)) then (s, none)
    else
      match answer with
      | .refused => (s, none)
      | .thrown => ({ s with pendingQueueTurnAck := none, ackBoundaries := [] }, none)
      | .sent =>
        let boundaries := s.ackBoundaries.drop consumed.length
        (if s.windowed then { s with ackBoundaries := boundaries, pendingQueueTurnAck := boundaries.getLast? }
          else { s with pendingQueueTurnAck := none }, some pending)

def isDigits (text : List Char) : Bool := text ≠ [] && text.all Char.isDigit

def completeQueueTurn (s : OutputSession) (appliedCursor appliedSequence : List Char) (connection : OutputConnection)
    (answer : AckAnswer) : OutputSession × TurnStatus × Option QueueTurnAck :=
  let cursorText := Js.trim appliedCursor
  let sequenceText := Js.trim appliedSequence
  if cursorText = [] ∧ sequenceText = [] then (s, .ignored, none)
  else if isDigits cursorText = false ∨ isDigits sequenceText = false ∨
      cursorText ≠ Js.trim (counterText s.queueTurnReceivedCursor) ∨
      sequenceText ≠ Js.trim (counterText s.queueTurnReceivedSequence) then
    (s, .invalid "queue turn acknowledgement boundary does not match received output", none)
  else
    match Js.decimal cursorText with
    | none => (s, .invalid "queue turn acknowledgement cursor is invalid", none)
    | some cursor =>
      let pending := { connection := connection, cursor := cursor, sequence := sequenceText }
      let s := { s with pendingQueueTurnAck := some pending }
      if s.windowed = true ∧ 512 ≤ s.ackBoundaries.length then
        (s, .invalid "too many unconsumed output boundaries", none)
      else
        let s := if s.windowed then { s with ackBoundaries := s.ackBoundaries ++ [pending] } else s
        let r := s.trySendPendingQueueTurnAck answer
        (r.1, .accepted cursor sequenceText, r.2)

/-- The terminal has parsed a batch of the queue's first entries. -/
def batchParsed (s : OutputSession) (entries : Nat) (answer : AckAnswer) : Option (OutputSession × Option QueueTurnAck) :=
  match (s.outputQueue.take entries).getLast? with
  | none => none
  | some last =>
    some ({ s with
      outputQueue := s.outputQueue.drop entries
      appliedHistoryCursor := last.historyEndCursor.getD s.appliedHistoryCursor }.trySendPendingQueueTurnAck answer)

end OutputSession

/-! ## What is sent -/

namespace OutputSession

/-- An acknowledgement of a window is of the last boundary that is parsed; it and those before it are not kept. -/
theorem trySend_window {s s' : OutputSession} {answer : AckAnswer} {sent : Option QueueTurnAck} (hw : s.windowed = true)
    (h : s.trySendPendingQueueTurnAck answer = (s', sent)) :
    s'.windowed = true ∧ s'.queueTurnReceivedCursor = s.queueTurnReceivedCursor ∧
    s'.queueTurnReceivedSequence = s.queueTurnReceivedSequence ∧ s'.appliedHistoryCursor = s.appliedHistoryCursor ∧
    ((sent = none ∧ (s'.ackBoundaries = s.ackBoundaries ∨ s'.ackBoundaries = [])) ∨
      ∃ before pending, sent = some pending ∧ s.ackBoundaries = before ++ pending :: s'.ackBoundaries ∧
        pending.cursor ≤ s.appliedHistoryCursor) := by
  unfold trySendPendingQueueTurnAck at h
  simp only [hw, if_true] at h
  split at h
  · cases h
    exact ⟨hw, rfl, rfl, rfl, .inl ⟨rfl, .inl rfl⟩⟩
  rename_i pending hlast
  split at h
  · cases h
    exact ⟨hw, rfl, rfl, rfl, .inl ⟨rfl, .inl rfl⟩⟩
  split at h
  · cases h
    exact ⟨hw, rfl, rfl, rfl, .inl ⟨rfl, .inl rfl⟩⟩
  split at h
  · cases h
    exact ⟨hw, rfl, rfl, rfl, .inl ⟨rfl, .inl rfl⟩⟩
  · cases h
    exact ⟨rfl, rfl, rfl, rfl, .inl ⟨rfl, .inr rfl⟩⟩
  · cases h
    refine ⟨rfl, rfl, rfl, rfl, .inr ⟨(s.ackBoundaries.takeWhile fun b => b.cursor ≤ s.appliedHistoryCursor).dropLast,
      pending, rfl, ?_, ?_⟩⟩
    · have hcut := List.dropLast_append_getLast? pending hlast
      have hsplit := List.takeWhile_append_dropWhile (p := fun b : QueueTurnAck => decide (b.cursor ≤ s.appliedHistoryCursor))
        (l := s.ackBoundaries)
      have hdrop : s.ackBoundaries.drop (s.ackBoundaries.takeWhile fun b => b.cursor ≤ s.appliedHistoryCursor).length =
          s.ackBoundaries.dropWhile fun b => b.cursor ≤ s.appliedHistoryCursor := by
        conv => lhs; arg 2; rw [← hsplit]
        exact List.drop_left
      simp only [hdrop]
      rw [List.append_cons, hcut, hsplit]
    · simpa using List.mem_takeWhile_imp (List.mem_of_getLast? hlast)

end OutputSession

end Webshell
