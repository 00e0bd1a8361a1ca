import Webshell.Machine
import Webshell.Text
import Webshell.Checkpoint
import Mathlib.Algebra.GroupWithZero.Nat
import Mathlib.Algebra.Ring.Int.Defs

/-!
# The queue stream of one pane

The agent's frames are put in a buffer the queue writer empties, turn by turn.
A goroutine works on the stream in pieces, one for each time it takes the
stream's lock; between two pieces any other goroutine may take it.
-/

namespace Webshell

open GoText

def terminalQueuePaneBufferLimit : Nat := 4 * 1024 * 1024

def terminalQueuePaneBufferHighWater : Nat := 3 * 1024 * 1024

def terminalQueueRoundByteBudget : Nat := 512 * 1024

def terminalQueueBinaryPayloadMaxBytes : Nat := 512 * 1024

def terminalQueueWindowBytes : Nat := 1024 * 1024

def terminalQueueWindowTurns : Nat := 256

def terminalQueueReplayBurstMaxBytes : Nat := 3500000

/-! ## Frames -/

/-- A value in a decoded JSON object: a string, or what `fmt.Sprint` prints of another value. -/
inductive JsonValue
  | str (s : String)
  | other (printed : String)
  deriving DecidableEq

abbrev JsonObject := List (String × JsonValue)

namespace JsonObject

def get (o : JsonObject) (key : String) : Option JsonValue := o.lookup key

def set (o : JsonObject) (key : String) (value : JsonValue) : JsonObject :=
  (key, value) :: o.filter fun entry => entry.1 != key

/-- `strings.TrimSpace(fmt.Sprint(o[key]))`. -/
def text (o : JsonObject) (key : String) : String :=
  match o.get key with
  | none => "<nil>"
  | some (.str s) => trimSpace s
  | some (.other printed) => trimSpace printed

def cursor (o : JsonObject) (key : String) : Option Nat := parseUint (o.text key)

end JsonObject

/-- A text payload: the object it decodes to, if it does, its length, and the length of the
object's text once its burst size is added. -/
structure TextFrame where
  message : Option JsonObject
  size : Nat
  encoded : Option Nat := none
  deriving DecidableEq

inductive QueuePayload
  | text (message : Option JsonObject)
  | binary (data : Bytes)
  deriving DecidableEq

structure QueueOutbound where
  sequence : Nat := 0
  binarySequence : Nat := 0
  payload : QueuePayload
  startCursor : Nat := 0
  endCursor : Nat := 0
  byteCost : Nat
  replayBurstStart : Bool := false
  replayBurstFinish : Bool := false
  deriving DecidableEq

namespace QueueOutbound

def isBinary (o : QueueOutbound) : Bool :=
  match o.payload with
  | .text _ => false
  | .binary _ => true

/-- The binary payload, empty for a text. -/
def data (o : QueueOutbound) : Bytes :=
  match o.payload with
  | .text _ => []
  | .binary data => data

end QueueOutbound

/-! ## The stream -/

inductive FlowControl
  | none
  | turnAck
  | window
  deriving DecidableEq

structure ConsumedBoundary where
  cursor : Nat
  sequence : Nat
  bytes : Int
  deriving DecidableEq

structure QueueWindow where
  inFlight : Int := 0
  currentTurnBytes : Int := 0
  boundaries : List ConsumedBoundary := []
  ackCursor : Nat := 0
  ackSequence : Nat := 0
  deriving DecidableEq

structure QueuePaneStream where
  flowControl : FlowControl
  replayBurstLimitBytes : Int
  active : Bool := true
  overloaded : Bool := false
  priority : Nat
  terminalControl : Bool := false
  nextSequence : Nat := 0
  binarySequence : Nat := 0
  awaitingTurnAck : Bool := false
  turnAckCursor : Nat := 0
  turnAckSequence : Nat := 0
  window : QueueWindow := {}
  replayBurstActive : Bool := false
  pendingTurnCursor : Nat := 0
  pendingTurnSequence : Nat := 0
  buffer : List QueueOutbound := []
  bufferBytes : Nat := 0
  hasCursor : Bool := false
  cursor : Nat := 0
  deriving DecidableEq

/-- What a goroutine still has to do to a stream, each piece under one holding of its lock. -/
inductive QueueWork
  | enqueueText (frame : TextFrame)
  | enqueueBinary (payload : Bytes)
  /-- The loop of `enqueueBinary`, with the bytes it has still to cut up. -/
  | enqueueChunks (start : Nat) (rest : Bytes)
  | enqueue (entry : QueueOutbound)
  | overload (reason : String)
  | signalWriter
  deriving DecidableEq

def clampTerminalStreamPriority (value : Int) : Nat := if value < 0 then 0 else if 3 < value then 3 else value.toNat

def terminalQueueReplayBurstBytes (flowControl : FlowControl) (limitBytes : Int) (message : JsonObject) : Nat :=
  if flowControl = .none ∨ limitBytes ≤ 0 ∨ message.get "sync_mode" ≠ some (.str "snapshot") then 0
  else
    match message.cursor "delta_from_cursor", message.cursor "delta_to_cursor" with
    | some start, some stop =>
      if stop ≤ start ∨ min limitBytes terminalQueueReplayBurstMaxBytes < (stop - start : Nat) then 0 else stop - start
    | _, _ => 0

/-- A parsed acknowledgement: cursor and sequence. -/
def parseTurnAck (value : String) : Option (Nat × Nat) :=
  match split (trimSpace value) ':' with
  | [cursor, sequence] =>
    match parseUint cursor, parseUint sequence with
    | some cursor, some sequence => some (cursor, sequence)
    | _, _ => none
  | _ => none

namespace QueuePaneStream

def start (flowControl : FlowControl) (replayBurstLimitBytes priority : Int) : QueuePaneStream where
  flowControl := flowControl
  replayBurstLimitBytes := replayBurstLimitBytes
  priority := clampTerminalStreamPriority priority

def usesWindow (s : QueuePaneStream) : Bool := s.flowControl = .window

def windowAllows (s : QueuePaneStream) (entry : QueueOutbound) : Bool :=
  if !s.usesWindow || s.replayBurstActive || !entry.isBinary then true
  else s.window.boundaries.length < terminalQueueWindowTurns &&
    s.window.inFlight + entry.byteCost ≤ terminalQueueWindowBytes

def deactivate (s : QueuePaneStream) : QueuePaneStream := { s with active := false, buffer := [], bufferBytes := 0 }

/-! ## The reader's side -/

/-- The cursor a `history-replay-start` sets, if it can be read. -/
def replayFrom (s : QueuePaneStream) (message : JsonObject) : QueuePaneStream :=
  match message.cursor "delta_from_cursor" with
  | some cursor => { s with cursor := cursor, hasCursor := true }
  | none => s

/-- The start of `enqueueText`, up to the `enqueue` or `overload` it ends with. -/
def enqueueText (s : QueuePaneStream) (frame : TextFrame) : QueuePaneStream × List QueueWork :=
  let entry : QueueOutbound := { payload := .text frame.message, byteCost := frame.size }
  match frame.message with
  | none => (s, [.enqueue entry])
  | some message =>
    let typeName := message.text "type"
    if typeName = "history-replay-start" then
      let size := terminalQueueReplayBurstBytes s.flowControl s.replayBurstLimitBytes message
      match frame.encoded with
      | some encoded =>
        if 0 < size then
          let burst := message.set "replay_burst_bytes" (.other size.repr)
          (s.replayFrom message,
            [.enqueue { entry with payload := .text (some burst), byteCost := encoded, replayBurstStart := true }])
        else (s.replayFrom message, [.enqueue entry])
      | none => (s.replayFrom message, [.enqueue entry])
    else if typeName = "history-replay-complete" then
      if s.hasCursor = true ∧ message.cursor "history_cursor" = some s.cursor then
        (s, [.enqueue { entry with replayBurstFinish := true }])
      else (s, [.overload "queue history cursor is not continuous"])
    else if typeName = "process-exit" ∨ typeName = "workspace-refresh-required" ∨
        typeName = "terminal-checkpoint-error" then
      ({ s with terminalControl := true }, [.enqueue { entry with replayBurstFinish := true }])
    else if typeName = "connection-error" then (s, [.enqueue { entry with replayBurstFinish := true }])
    else (s, [.enqueue entry])

/-- The start of `enqueueBinary`, up to its loop. -/
def enqueueBinary (s : QueuePaneStream) (payload : Bytes) : QueuePaneStream × List QueueWork :=
  if payload = [] then (s, [])
  else if s.hasCursor = false then (s, [.overload "queue output arrived before history cursor"])
  else if terminalQueuePaneBufferLimit < s.bufferBytes + payload.length then
    (s, [.overload "queue pane buffer exceeded its limit"])
  else ({ s with cursor := s.cursor + payload.length }, [.enqueueChunks s.cursor payload])

/-- One round of the loop of `enqueueBinary`. -/
def enqueueChunks (s : QueuePaneStream) (start : Nat) (rest : Bytes) : QueuePaneStream × List QueueWork :=
  if rest = [] then (s, [])
  else
    let chunk := rest.take terminalQueueBinaryPayloadMaxBytes
    let entry : QueueOutbound := {
      payload := .binary chunk, startCursor := start, endCursor := start + chunk.length
      binarySequence := s.binarySequence + 1, byteCost := chunk.length }
    ({ s with binarySequence := s.binarySequence + 1 },
      [.enqueue entry, .enqueueChunks (start + chunk.length) (rest.drop terminalQueueBinaryPayloadMaxBytes)])

def push (s : QueuePaneStream) (entry : QueueOutbound) : QueuePaneStream :=
  { s with
    nextSequence := s.nextSequence + 1
    buffer := s.buffer ++ [{ entry with sequence := s.nextSequence + 1 }]
    bufferBytes := s.bufferBytes + entry.byteCost }

def enqueue (s : QueuePaneStream) (entry : QueueOutbound) : QueuePaneStream × List QueueWork :=
  if s.active = false ∨ s.overloaded = true then (s, [])
  else if terminalQueuePaneBufferLimit < s.bufferBytes + entry.byteCost then
    (s, [.overload "queue pane buffer exceeded its limit"])
  else (s.push entry, [.signalWriter])

/-- The text `overload` puts in place of the buffer. -/
def overloadEntry (reason : String) (sequence : Nat) : QueueOutbound where
  sequence := sequence
  payload := .text (some [("message", .str reason), ("resync_required", .other "true"),
    ("retryable", .other "true"), ("type", .str "connection-error")])
  byteCost := 80 + reason.length

/-- Everything held is dropped for the one text. -/
def giveUp (s : QueuePaneStream) (reason : String) : QueuePaneStream :=
  { s with
    overloaded := true, replayBurstActive := false, pendingTurnCursor := 0, pendingTurnSequence := 0
    awaitingTurnAck := false, window := {}, nextSequence := s.nextSequence + 1
    buffer := [overloadEntry reason (s.nextSequence + 1)]
    bufferBytes := (overloadEntry reason (s.nextSequence + 1)).byteCost }

def overload (s : QueuePaneStream) (reason : String) : QueuePaneStream × List QueueWork :=
  if s.active = false ∨ s.overloaded = true then (s, []) else (s.giveUp reason, [.signalWriter])

/-- One piece of work, and the work it leads to. -/
def perform (s : QueuePaneStream) : QueueWork → QueuePaneStream × List QueueWork
  | .enqueueText frame => s.enqueueText frame
  | .enqueueBinary payload => s.enqueueBinary payload
  | .enqueueChunks start rest => s.enqueueChunks start rest
  | .enqueue entry => s.enqueue entry
  | .overload reason => s.overload reason
  | .signalWriter => (s, [])

/-- Neither deactivated nor given up. -/
def Healthy (s : QueuePaneStream) : Prop := s.active = true ∧ s.overloaded = false

theorem enqueueText_same (s : QueuePaneStream) (frame : TextFrame) : ∃ terminalControl hasCursor cursor,
    (s.enqueueText frame).1 = { s with terminalControl := terminalControl, hasCursor := hasCursor, cursor := cursor } := by
  have hreplay (message : JsonObject) : ∃ terminalControl hasCursor cursor, s.replayFrom message =
      { s with terminalControl := terminalControl, hasCursor := hasCursor, cursor := cursor } := by
    unfold replayFrom
    split <;> exact ⟨_, _, _, rfl⟩
  unfold enqueueText
  split
  · exact ⟨_, _, _, rfl⟩
  · simp only
    split
    · split
      · split <;> exact hreplay _
      · exact hreplay _
    · split
      · split <;> exact ⟨_, _, _, rfl⟩
      · split
        · exact ⟨_, _, _, rfl⟩
        · split <;> exact ⟨_, _, _, rfl⟩

/-- All that a piece of work can do: set what only the reader uses, put an entry in the
buffer of a healthy stream, or give the stream up. -/
theorem perform_cases (s : QueuePaneStream) (work : QueueWork) :
    (∃ terminalControl hasCursor cursor binarySequence, (s.perform work).1 =
      { s with terminalControl := terminalControl, hasCursor := hasCursor, cursor := cursor
               binarySequence := binarySequence }) ∨
    (∃ entry, work = .enqueue entry ∧ s.Healthy ∧ s.perform work = (s.push entry, [.signalWriter])) ∨
    (∃ reason, work = .overload reason ∧ s.Healthy ∧ s.perform work = (s.giveUp reason, [.signalWriter])) := by
  have healthy (h : ¬ (s.active = false ∨ s.overloaded = true)) : s.Healthy := by
    simpa [Healthy] using h
  cases work with
  | enqueueText frame =>
    obtain ⟨_, _, _, h⟩ := s.enqueueText_same frame
    exact .inl ⟨_, _, _, _, h⟩
  | enqueueBinary payload =>
    simp only [perform, enqueueBinary]
    split
    · exact .inl ⟨_, _, _, _, rfl⟩
    · split
      · exact .inl ⟨_, _, _, _, rfl⟩
      · split <;> exact .inl ⟨_, _, _, _, rfl⟩
  | enqueueChunks start rest =>
    simp only [perform, enqueueChunks]
    split <;> exact .inl ⟨_, _, _, _, rfl⟩
  | enqueue entry =>
    simp only [perform, enqueue]
    split
    · exact .inl ⟨_, _, _, _, rfl⟩
    · rename_i h
      split
      · exact .inl ⟨_, _, _, _, rfl⟩
      · exact .inr (.inl ⟨entry, rfl, healthy h, rfl⟩)
  | overload reason =>
    simp only [perform, overload]
    split
    · exact .inl ⟨_, _, _, _, rfl⟩
    · rename_i h
      exact .inr (.inr ⟨reason, rfl, healthy h, rfl⟩)
  | signalWriter => exact .inl ⟨_, _, _, _, rfl⟩

/-! ## The client's side -/

/-- The boundaries left when the first one at `cursor` and `sequence` is acknowledged, and
the bytes released with it. -/
def releaseBoundaries (cursor sequence : Nat) : List ConsumedBoundary → Option (Int × List ConsumedBoundary)
  | [] => none
  | boundary :: boundaries =>
    if boundary.sequence = sequence ∧ boundary.cursor = cursor then some (boundary.bytes, boundaries)
    else (releaseBoundaries cursor sequence boundaries).map fun r => (boundary.bytes + r.1, r.2)

/-- Everything up to the acknowledged boundary is released. -/
def release (s : QueuePaneStream) (cursor sequence : Nat) (bytes : Int) (boundaries : List ConsumedBoundary) :
    QueuePaneStream :=
  { s with
    window := {
      inFlight := s.window.inFlight - bytes, currentTurnBytes := s.window.currentTurnBytes
      boundaries := boundaries, ackCursor := cursor, ackSequence := sequence } }

def acknowledgeWindow (s : QueuePaneStream) (cursor sequence : Nat) : QueuePaneStream × Option String :=
  if sequence = s.window.ackSequence ∧ cursor = s.window.ackCursor then (s, none)
  else
    match releaseBoundaries cursor sequence s.window.boundaries with
    | some (bytes, boundaries) => (s.release cursor sequence bytes boundaries, none)
    | none => (s, some "queue consumption acknowledgement does not match a sent boundary")

/-- The stream after an acknowledgement, and the error it is answered with. -/
def acknowledgeTurn (s : QueuePaneStream) (value : String) : QueuePaneStream × Option String :=
  match parseTurnAck value with
  | none => (s, some "invalid queue turn acknowledgement")
  | some (cursor, sequence) =>
    if s.usesWindow = true then s.acknowledgeWindow cursor sequence
    else if s.flowControl ≠ .turnAck ∨ s.awaitingTurnAck = false ∨ cursor ≠ s.turnAckCursor ∨
        sequence ≠ s.turnAckSequence then
      (s, some "queue turn acknowledgement does not match")
    else ({ s with awaitingTurnAck := false, turnAckCursor := 0, turnAckSequence := 0 }, none)

theorem releaseBoundaries_some {cursor sequence : Nat} {boundaries after : List ConsumedBoundary} {bytes : Int}
    (h : releaseBoundaries cursor sequence boundaries = some (bytes, after)) :
    ∃ before b, boundaries = before ++ b :: after ∧ (b.cursor, b.sequence) = (cursor, sequence) ∧
      bytes = ((before ++ [b]).map ConsumedBoundary.bytes).sum := by
  induction boundaries generalizing bytes with
  | nil => cases h
  | cons b boundaries ih =>
    unfold releaseBoundaries at h
    split at h
    · rename_i hb
      cases h
      exact ⟨[], b, rfl, by rw [hb.1, hb.2], by simp⟩
    · obtain ⟨⟨released, rest⟩, hr, he⟩ := Option.map_eq_some_iff.mp h
      cases he
      obtain ⟨before, c, rfl, hc, hsum⟩ := ih hr
      exact ⟨b :: before, c, rfl, hc, by rw [hsum]; simp⟩

theorem releaseBoundaries_none {cursor sequence : Nat} {boundaries : List ConsumedBoundary}
    (h : releaseBoundaries cursor sequence boundaries = none) :
    ∀ b ∈ boundaries, (b.cursor, b.sequence) ≠ (cursor, sequence) := by
  induction boundaries with
  | nil => intro b hb; cases hb
  | cons c boundaries ih =>
    unfold releaseBoundaries at h
    split at h
    · cases h
    · rename_i hc
      intro b hb he
      rcases List.mem_cons.mp hb with rfl | hb
      · exact hc ⟨congrArg Prod.snd he, congrArg Prod.fst he⟩
      · exact ih (Option.map_eq_none_iff.mp h) b hb he

/-- An acknowledgement that is accepted repeats the last one, releases the boundary it names
and those before it, or is the one a turn waits for. -/
theorem acknowledgeTurn_accepted {s s' : QueuePaneStream} {value : String} (h : s.acknowledgeTurn value = (s', none)) :
    ∃ cursor sequence, parseTurnAck value = some (cursor, sequence) ∧
      ((s.usesWindow = true ∧ cursor = s.window.ackCursor ∧ sequence = s.window.ackSequence ∧ s' = s) ∨
      (s.usesWindow = true ∧ ∃ before b after, s.window.boundaries = before ++ b :: after ∧
        (b.cursor, b.sequence) = (cursor, sequence) ∧
        s' = s.release cursor sequence ((before ++ [b]).map ConsumedBoundary.bytes).sum after) ∨
      (s.flowControl = .turnAck ∧ s.awaitingTurnAck = true ∧ cursor = s.turnAckCursor ∧ sequence = s.turnAckSequence ∧
        s' = { s with awaitingTurnAck := false, turnAckCursor := 0, turnAckSequence := 0 })) := by
  unfold acknowledgeTurn at h
  split at h
  · cases h
  · rename_i cursor sequence hp
    refine ⟨cursor, sequence, hp, ?_⟩
    split at h
    · rename_i hw
      unfold acknowledgeWindow at h
      split at h
      · rename_i hr
        cases h; exact .inl ⟨hw, hr.2, hr.1, rfl⟩
      · split at h
        · rename_i bytes after hr
          obtain ⟨before, b, hb, he, rfl⟩ := releaseBoundaries_some hr
          cases h; exact .inr (.inl ⟨hw, before, b, after, hb, he, rfl⟩)
        · cases h
    · split at h
      · cases h
      · rename_i hr
        simp only [ne_eq, not_or, not_not, Bool.not_eq_false] at hr
        cases h; exact .inr (.inr ⟨hr.1, hr.2.1, hr.2.2.1, hr.2.2.2, rfl⟩)

theorem acknowledgeTurn_refused {s s' : QueuePaneStream} {value err : String}
    (h : s.acknowledgeTurn value = (s', some err)) : s' = s := by
  unfold acknowledgeTurn acknowledgeWindow at h
  split at h
  · cases h; rfl
  · split at h
    · split at h
      · cases h
      · split at h <;> cases h
        rfl
    · split at h <;> cases h
      rfl

/-! ## The writer's side -/

def targetSequence (s : QueuePaneStream) : Nat :=
  match s.buffer with
  | [] => 0
  | head :: rest =>
    if s.active = false ∨ s.awaitingTurnAck = true then 0
    else if s.windowAllows head then (rest.getLastD head).sequence
    else 0

/-- The head of the buffer taken for the wire. -/
def pop (s : QueuePaneStream) (entry : QueueOutbound) (rest : List QueueOutbound) : QueuePaneStream :=
  { s with
    buffer := rest
    replayBurstActive := !entry.replayBurstFinish && (entry.replayBurstStart || s.replayBurstActive)
    window :=
      if s.usesWindow && entry.isBinary then
        { s.window with
          inFlight := s.window.inFlight + entry.byteCost
          currentTurnBytes := s.window.currentTurnBytes + entry.byteCost }
      else s.window
    bufferBytes := s.bufferBytes - entry.byteCost }

def popThrough (s : QueuePaneStream) (target alreadyWritten : Nat) : Option (QueueOutbound × QueuePaneStream) :=
  match s.buffer with
  | [] => none
  | entry :: rest =>
    if s.active = false ∨ target < entry.sequence then none
    else if !s.windowAllows entry then none
    else if 0 < alreadyWritten ∧ 0 < entry.byteCost ∧ terminalQueueRoundByteBudget < alreadyWritten + entry.byteCost then
      none
    else some (entry, s.pop entry rest)

theorem popThrough_cases {s s' : QueuePaneStream} {target alreadyWritten : Nat} {entry : QueueOutbound}
    (h : s.popThrough target alreadyWritten = some (entry, s')) :
    ∃ rest, s.buffer = entry :: rest ∧ s.active = true ∧ entry.sequence ≤ target ∧ s.windowAllows entry = true ∧
      s' = s.pop entry rest := by
  unfold popThrough at h
  split at h
  · cases h
  · rename_i head rest hb
    split at h
    · cases h
    · rename_i ht
      split at h
      · cases h
      · rename_i hw
        split at h
        · cases h
        · cases h
          exact ⟨rest, hb, by grind, by grind, by simpa using hw, rfl⟩

def recordTurn (s : QueuePaneStream) (cursor sequence : Nat) : QueuePaneStream :=
  if sequence ≠ 0 then { s with pendingTurnCursor := cursor, pendingTurnSequence := sequence } else s

/-- The client is to acknowledge everything up to the pending turn. -/
def closeTurn (s : QueuePaneStream) : QueuePaneStream :=
  let boundary := { cursor := s.pendingTurnCursor, sequence := s.pendingTurnSequence, bytes := s.window.currentTurnBytes }
  { s with
    pendingTurnCursor := 0, pendingTurnSequence := 0
    awaitingTurnAck := if s.flowControl = .turnAck then true else s.awaitingTurnAck
    turnAckCursor := if s.flowControl = .turnAck then s.pendingTurnCursor else s.turnAckCursor
    turnAckSequence := if s.flowControl = .turnAck then s.pendingTurnSequence else s.turnAckSequence
    window :=
      if s.usesWindow then
        { s.window with boundaries := s.window.boundaries ++ [boundary], currentTurnBytes := 0 }
      else s.window }

/-- The end of a turn, with the end cursor and number of its last binary entry, and the
boundary the client is told of. -/
def finishTurn (s : QueuePaneStream) (cursor sequence : Nat) : QueuePaneStream × Option (Nat × Nat) :=
  if s.active = false ∨ s.overloaded = true then (s, none)
  else
    let s := s.recordTurn cursor sequence
    if s.replayBurstActive = true ∨ s.pendingTurnSequence = 0 then (s, none)
    else (s.closeTurn, some (s.pendingTurnCursor, s.pendingTurnSequence))

theorem finishTurn_cases (s : QueuePaneStream) (cursor sequence : Nat) :
    (¬ s.Healthy ∧ s.finishTurn cursor sequence = (s, none)) ∨
    (s.Healthy ∧ ((s.recordTurn cursor sequence).replayBurstActive = true ∨
        (s.recordTurn cursor sequence).pendingTurnSequence = 0) ∧
      s.finishTurn cursor sequence = (s.recordTurn cursor sequence, none)) ∨
    (s.Healthy ∧ (s.recordTurn cursor sequence).replayBurstActive = false ∧
      (s.recordTurn cursor sequence).pendingTurnSequence ≠ 0 ∧
      s.finishTurn cursor sequence = ((s.recordTurn cursor sequence).closeTurn,
        some ((s.recordTurn cursor sequence).pendingTurnCursor, (s.recordTurn cursor sequence).pendingTurnSequence))) := by
  by_cases hh : s.active = false ∨ s.overloaded = true
  · left
    refine ⟨fun h => ?_, if_pos hh⟩
    rcases hh with hh | hh
    · rw [h.1] at hh; cases hh
    · rw [h.2] at hh; cases hh
  · have healthy : s.Healthy := by simpa [Healthy] using hh
    right
    simp only [finishTurn, if_neg hh]
    by_cases hp : (s.recordTurn cursor sequence).replayBurstActive = true ∨
        (s.recordTurn cursor sequence).pendingTurnSequence = 0
    · exact .inl ⟨healthy, hp, if_pos hp⟩
    · refine .inr ⟨healthy, ?_, ?_, if_neg hp⟩
      · simpa using fun h => hp (.inl h)
      · exact fun h => hp (.inr h)

end QueuePaneStream

/-! ## All interleavings -/

/-- Where the reader's loop is between two frames. -/
inductive ReaderPhase
  | waiting
  | reading
  | closed
  deriving DecidableEq

inductive TurnPhase
  | popping
  | finishing
  /-- The boundary is to be sent to the client. -/
  | notifying (boundary : Nat × Nat)
  deriving DecidableEq

/-- A turn of the queue writer on the stream. -/
structure Turn where
  target : Nat
  writtenBytes : Nat := 0
  turnCursor : Nat := 0
  turnSequence : Nat := 0
  phase : TurnPhase := .popping
  deriving DecidableEq

/-- A stream with the goroutines that work on it, and what has gone over its ends. -/
structure QueueRun where
  stream : QueuePaneStream
  phase : ReaderPhase := .waiting
  reader : List QueueWork := []
  /-- The calls of the broker, which do not wait for each other. -/
  controls : List (List QueueWork) := []
  turn : Option Turn := none
  /-- The agent's binary payloads so far. -/
  agentOut : Bytes := []
  popped : List QueueOutbound := []
  /-- The boundaries sent to the client. -/
  sent : List (Nat × Nat) := []
  /-- The acknowledgement accepted last. -/
  lastAck : Option (Nat × Nat) := none
  deriving DecidableEq

/-- The texts the broker itself puts in a stream. -/
inductive BrokerControl
  | logicalAttachStart
  | agentPreparing
  | pong
  deriving DecidableEq

def BrokerControl.frame (size : Nat) : BrokerControl → TextFrame
  | .logicalAttachStart => { message := some [("type", .str "logical-attach-start")], size := size }
  | .agentPreparing => { message := some [("type", .str "agent-preparing")], size := size }
  | .pong => { message := some [("type", .str "pong")], size := size }

def IsPaneNotFoundAttachError (message : String) : Bool := contains (trimSpace message).toLower "pane not found"

def AgentConnectionErrorPayload (err : String) : JsonObject :=
  let message := if trimSpace err ≠ "" then trimSpace err else "persistent webshell agent connection failed"
  [("type", .str "connection-error"), ("message", .str message), ("retryable", .other "true")]

inductive QueueEvent
  /-- `waitForBufferCapacity` returns true. -/
  | capacity
  | agentText (frame : TextFrame)
  | agentBinary (payload : Bytes)
  | readError (err stderr selector : String) (size : Nat)
  | readerStep
  | brokerControl (control : BrokerControl) (size : Nat)
  | controlStep (thread : Nat)
  | acknowledgeTurn (value : String)
  | setPriority (priority : Int)
  /-- The stream is put in the broker's map; the writer is signalled after. -/
  | registered
  | deactivate
  | beginTurn
  /-- The writer pops an entry; `timeUp` if the turn's time is over after it. -/
  | pop (timeUp : Bool)
  | finishTurn
  | notify

namespace QueueRun

def start (flowControl : FlowControl) (replayBurstLimitBytes priority : Int) : QueueRun where
  stream := .start flowControl replayBurstLimitBytes priority

def capacity (q : QueueRun) : Option QueueRun :=
  if q.reader = [] ∧ q.phase = .waiting ∧ q.stream.active = true ∧ q.stream.overloaded = false ∧
      q.stream.bufferBytes < terminalQueuePaneBufferHighWater then
    some { q with phase := .reading }
  else none

def agentFrame (q : QueueRun) (payload : Bytes) (work : QueueWork) : Option QueueRun :=
  if q.reader = [] ∧ q.phase = .reading then
    some { q with phase := .waiting, reader := [work], agentOut := q.agentOut ++ payload }
  else none

/-- The text the reader leaves when it cannot read on. -/
def readErrorText (q : QueueRun) (err stderr selector : String) : Option JsonObject :=
  if trimSpace stderr ≠ "" then
    if IsPaneNotFoundAttachError (trimSpace stderr) then
      some [("type", .str "workspace-refresh-required"), ("selector", .str selector), ("reason", .str (trimSpace stderr))]
    else if q.stream.terminalControl = false then some (AgentConnectionErrorPayload (trimSpace stderr))
    else none
  else if q.stream.terminalControl = false then some (AgentConnectionErrorPayload err)
  else none

def readError (q : QueueRun) (err stderr selector : String) (size : Nat) : Option QueueRun :=
  if q.reader = [] ∧ q.phase = .reading then
    match q.readErrorText err stderr selector with
    | none => some { q with phase := .closed }
    | some message => some { q with phase := .closed, reader := [.enqueueText { message := some message, size := size }] }
  else none

def readerStep (q : QueueRun) : Option QueueRun :=
  match q.reader with
  | [] => none
  | work :: rest =>
    let done := q.stream.perform work
    some { q with stream := done.1, reader := done.2 ++ rest }

def controlStep (q : QueueRun) (thread : Nat) : Option QueueRun :=
  match q.controls[thread]? with
  | none | some [] => none
  | some (work :: rest) =>
    let done := q.stream.perform work
    some { q with stream := done.1, controls := q.controls.set thread (done.2 ++ rest) }

def acknowledgeTurn (q : QueueRun) (value : String) : QueueRun :=
  match q.stream.acknowledgeTurn value with
  | (_, some _) => q
  | (s, none) => { q with stream := s, controls := q.controls ++ [[.signalWriter]], lastAck := parseTurnAck value }

def beginTurn (q : QueueRun) : Option QueueRun :=
  match q.turn with
  | some _ => none
  | none =>
    let target := q.stream.targetSequence
    if target = 0 then some q else some { q with turn := some { target := target } }

def popTurn (q : QueueRun) (timeUp : Bool) : Option QueueRun :=
  match q.turn with
  | some t =>
    if t.phase = .popping then
      match q.stream.popThrough t.target t.writtenBytes with
      | none => some { q with turn := some { t with phase := .finishing } }
      | some (entry, s) =>
        let written := t.writtenBytes + entry.byteCost
        let t := if entry.isBinary then { t with turnCursor := entry.endCursor, turnSequence := entry.binarySequence } else t
        let phase := if terminalQueueRoundByteBudget ≤ written ∨ timeUp = true then .finishing else .popping
        some { q with
          stream := s, popped := q.popped ++ [entry]
          turn := some { t with writtenBytes := written, phase := phase } }
    else none
  | none => none

def finishTurn (q : QueueRun) : Option QueueRun :=
  match q.turn with
  | some t =>
    if t.phase = .finishing then
      match q.stream.finishTurn t.turnCursor t.turnSequence with
      | (s, none) => some { q with stream := s, turn := none }
      | (s, some boundary) => some { q with stream := s, turn := some { t with phase := .notifying boundary } }
    else none
  | none => none

def notify (q : QueueRun) : Option QueueRun :=
  match q.turn with
  | some { phase := .notifying boundary, .. } => some { q with turn := none, sent := q.sent ++ [boundary] }
  | _ => none

end QueueRun

def queueMachine : Machine QueueRun QueueEvent where
  step q
    | .capacity => q.capacity
    | .agentText frame => q.agentFrame [] (.enqueueText frame)
    | .agentBinary payload => q.agentFrame payload (.enqueueBinary payload)
    | .readError err stderr selector size => q.readError err stderr selector size
    | .readerStep => q.readerStep
    | .brokerControl control size => some { q with controls := q.controls ++ [[.enqueueText (control.frame size)]] }
    | .controlStep thread => q.controlStep thread
    | .acknowledgeTurn value => some (q.acknowledgeTurn value)
    | .setPriority priority =>
      some { q with
        stream := { q.stream with priority := clampTerminalStreamPriority priority }
        controls := q.controls ++ [[.signalWriter]] }
    | .registered => some { q with controls := q.controls ++ [[.signalWriter]] }
    | .deactivate => some { q with stream := q.stream.deactivate }
    | .beginTurn => q.beginTurn
    | .pop timeUp => q.popTurn timeUp
    | .finishTurn => q.finishTurn
    | .notify => q.notify

end Webshell
