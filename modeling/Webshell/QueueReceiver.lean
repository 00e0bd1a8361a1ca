import Webshell.JsValue
import Webshell.QueueFrame

/-!
# The browser's end of the queue

A connection keeps the logical streams that are open on it, each with the
cursor and the sequence number it expects next. What it takes it hands to the
stream's listeners; what does not continue the stream it refuses.
-/

namespace Webshell

/-! ## Identities -/

structure LogicalIdentity where
  paneID : List Char
  streamID : List Char
  channelGeneration : Nat
  deriving DecidableEq

/-- The identity in a descriptor, unless it is invalid. -/
def normalizeIdentity (descriptor : Json) : Option LogicalIdentity :=
  let either (key other : String) : Json :=
    Js.orElse (descriptor.get key) (Js.orElse (descriptor.get other) (.str []))
  let paneID := Js.trim (Js.text (either "pane_id" "paneID"))
  let streamID := Js.trim (Js.text (either "stream_id" "streamID"))
  match Js.positiveInteger (either "channel_generation" "channelGeneration") with
  | some channelGeneration => if paneID = [] ∨ streamID = [] then none else some { paneID, streamID, channelGeneration }
  | none => none

def streamKey (identity : LogicalIdentity) : List Char :=
  identity.paneID ++ '\x00' :: (identity.streamID ++ '\x00' :: Nat.toDigits 10 identity.channelGeneration)

/-! ## Fields of a frame -/

def parseCursor (value : Option Json) : Option Nat := Js.decimal (Js.trimmedText value)

def parseSequence (value : Option Json) : Option Nat :=
  (Js.decimal (Js.trimmedText value)).filter fun sequence => sequence ≤ Js.maxSafeInteger

/-- `padStart(8, "0")`. -/
def padChecksum (s : List Char) : List Char := s.leftpad 8 '0'

def isHexDigit (c : Char) : Bool := c.isDigit || ('a' ≤ c && c ≤ 'f')

def payloadChecksumMatches (data : Bytes) (expected : Option Json) : Bool :=
  match expected with
  | none | some .null | some (.str []) => true
  | some expected =>
    let lower := (Js.trim (Js.text expected)).map Char.toLower
    let text := if "0x".toList.isPrefixOf lower then lower.drop 2 else lower
    if text = [] ∨ 8 < text.length ∨ text.all isHexDigit = false then false
    else padChecksum (Nat.toDigits 16 (Crc32.checksumByTable data).toNat) = padChecksum text

/-! ## Logical streams -/

inductive SocketState
  | connecting
  | open
  | closing
  | closed
  deriving DecidableEq

structure QueueMetadata where
  identity : LogicalIdentity
  startCursor : Nat
  endCursor : Nat
  sequence : Option Nat
  historyGeneration : Option (List Char)
  deriving DecidableEq

/-- What the listeners of a stream are given. -/
inductive Dispatched
  | control (payload : Json) (identity : LogicalIdentity)
  | binary (payload : Bytes) (metadata : QueueMetadata)
  /-- The connection error of `failLogicalProtocol`. -/
  | failure (message : String)

structure LogicalStream where
  identity : LogicalIdentity
  /-- `String(subscription.history_generation || "")`. -/
  historyGeneration : List Char
  readyState : SocketState
  expectedCursor : Option Nat := none
  expectedSequence : Option Nat := none
  sequenceMode : Option Bool := none
  dispatched : List Dispatched := []

namespace LogicalStream

def dispatch (s : LogicalStream) (event : Dispatched) : LogicalStream := { s with dispatched := s.dispatched ++ [event] }

/-- The stream after a control payload, or why it is refused. -/
def control (s : LogicalStream) (payload : Option Json) (identity : LogicalIdentity) : Except String LogicalStream :=
  let pass (s : LogicalStream) (payload : Json) : Except String LogicalStream := .ok (s.dispatch (.control payload identity))
  match payload with
  | some (.arr items) => pass s (.arr items)
  | some (.obj fields) =>
    let payload := Json.obj fields
    if Js.equals (payload.get "type") "history-replay-start" = true then
      match parseCursor (payload.get "delta_from_cursor") with
      | none => .error "terminal queue replay start cursor is invalid"
      | some cursor => pass { s with expectedCursor := some cursor } payload
    else if Js.equals (payload.get "type") "history-replay-complete" = true then
      match parseCursor (payload.get "history_cursor") with
      | none => .error "terminal queue replay completion cursor is not continuous"
      | some cursor =>
        if s.expectedCursor = some cursor then pass s payload
        else .error "terminal queue replay completion cursor is not continuous"
    else pass s payload
  | _ => .error "terminal queue pane control payload is invalid"

/-- Once the first frame has had one, every frame needs the sequence number after the last. An
expected sequence that is still `null` counts as zero. -/
def sequenceValid (s : LogicalStream) (provided : Bool) (sequence : Option Nat) : Bool :=
  match s.sequenceMode with
  | none => !provided || sequence.isSome
  | some _ => sequence = some (s.expectedSequence.getD 0 + 1)

/-- The stream after a frame with this header, or why it is refused. -/
def binary (s : LogicalStream) (header : Json) (payload : Bytes) (identity : LogicalIdentity) : Except String LogicalStream :=
  let frameHistoryGeneration := Js.trim (Js.text (Js.orElse (header.get "history_generation") (.str [])))
  let expectedHistoryGeneration := Js.trim s.historyGeneration
  if frameHistoryGeneration ≠ [] ∧ expectedHistoryGeneration ≠ [] ∧
      frameHistoryGeneration ≠ expectedHistoryGeneration then
    .error "terminal queue binary history generation does not match"
  else
    let provided := (header.get "sequence").isSome
    let sequence := parseSequence (header.get "sequence")
    match parseCursor (header.get "start_cursor"), parseCursor (header.get "end_cursor") with
    | some startCursor, some endCursor =>
      if startCursor ≤ endCursor ∧ payload.length = endCursor - startCursor ∧ s.expectedCursor = some startCursor ∧
          s.sequenceValid provided sequence = true ∧ payloadChecksumMatches payload (header.get "checksum") = true then
        let s := { s with
          sequenceMode := s.sequenceMode.or (some provided), expectedSequence := sequence.or s.expectedSequence
          expectedCursor := some endCursor }
        .ok (s.dispatch (.binary payload {
          identity, startCursor, endCursor, sequence
          historyGeneration := if frameHistoryGeneration = [] then none else some frameHistoryGeneration }))
      else .error "terminal queue binary frame identity or cursor validation failed"
    | _, _ => .error "terminal queue binary frame identity or cursor validation failed"

end LogicalStream

/-! ## Connections -/

/-- The streams that are open on a connection, and what `onProtocolError` was told. -/
structure QueueConnection where
  logicalStreams : List (List Char × LogicalStream) := []
  protocolErrors : List String := []

/-- A message of the WebSocket; of texts, only those for a pane. -/
inductive QueueDelivery
  | paneControl (message : Json)
  | binary (data : Bytes)

namespace QueueConnection

def stream (c : QueueConnection) (key : List Char) : Option LogicalStream := c.logicalStreams.lookup key

def setStream (c : QueueConnection) (key : List Char) (s : LogicalStream) : QueueConnection :=
  { c with logicalStreams := c.logicalStreams.map fun entry => if entry.1 = key then (key, s) else entry }

def protocolError (c : QueueConnection) (message : String) : QueueConnection :=
  { c with protocolErrors := c.protocolErrors ++ [message] }

def failLogicalProtocol (c : QueueConnection) (key : List Char) (s : LogicalStream) (message : String) : QueueConnection :=
  let c := c.protocolError message
  if s.readyState = .closed then c else c.setStream key (s.dispatch (.failure message))

/-- What a stream answers, put into effect. -/
def settle (c : QueueConnection) (key : List Char) (s : LogicalStream) :
    Except String LogicalStream → QueueConnection × Bool
  | .ok s' => (c.setStream key s', true)
  | .error message => (c.failLogicalProtocol key s message, false)

/-- An invalid identity is thrown, with nothing done. -/
def routePaneControl (c : QueueConnection) (message : Json) : QueueConnection × Bool :=
  match normalizeIdentity message with
  | none => (c, false)
  | some identity =>
    match c.stream (streamKey identity) with
    | none => (c, false)
    | some s =>
      if s.readyState ≠ .open then (c, false)
      else c.settle (streamKey identity) s (s.control (message.get "payload") identity)

def routeBinary (c : QueueConnection) (data : Bytes) : QueueConnection × Bool :=
  match decodeTerminalQueueBinaryFrame data with
  | .error message => (c.protocolError message, false)
  | .ok (header, payload) =>
    match normalizeIdentity header with
    | none => (c.protocolError "invalid terminal queue logical stream identity", false)
    | some identity =>
      match c.stream (streamKey identity) with
      | none => (c, false)
      | some s =>
        if s.readyState ≠ .open then (c, false)
        else c.settle (streamKey identity) s (s.binary header payload identity)

def deliver (c : QueueConnection) : QueueDelivery → QueueConnection × Bool
  | .paneControl message => c.routePaneControl message
  | .binary data => c.routeBinary data

def deliverAll (c : QueueConnection) (ds : List QueueDelivery) : QueueConnection := ds.foldl (fun c d => (c.deliver d).1) c

end QueueConnection

end Webshell
