import Webshell.Machine
import Webshell.Pane
import Webshell.QueueFrame
import Mathlib.Data.List.AList

/-!
# Replacing a broker's subscriptions

The client sends the whole list of the panes it wants. Streams it still wants
are kept as they are, the others are retired, and only then is the backend
asked for the missing ones. A stream is named by its place in `heap`, where it
stays after it left the map.
-/

namespace Webshell

open GoText

/-- A subscription with all that it is checked by and a stream is started with. -/
structure QueueSubscription extends TerminalQueueSubscription where
  checkpointProtocol : String := ""
  workspaceGeneration : String := ""
  localBaseCursor : String := ""
  localEndCursor : String := ""
  historyReplayMode : String := ""
  flowControl : String := ""
  replayBurstLimitBytes : Int := 0
  priority : Int := 0
  foreground : String := ""
  background : String := ""
  cursor : String := ""
  deriving DecidableEq

structure QueueSyncRequest extends HistorySyncRequest where
  WorkspaceGeneration : String := ""
  LocalBase : Nat := 0

def terminalQueueMaxSubscriptions : Int := 1024

/-- What is read of a local history range, if one is given. -/
def historyRange (generation baseText endText : String) : Except String (Option (Nat × Nat)) :=
  if generation ≠ "" ∨ baseText ≠ "" ∨ endText ≠ "" then
    if generation = "" ∨ baseText = "" ∨ endText = "" then .error "incomplete queue history range"
    else
      match parseUint baseText, parseUint endText with
      | some base, some stop => if stop < base then .error "invalid queue history range" else .ok (some (base, stop))
      | _, _ => .error "invalid queue history range"
  else .ok none

def QueueSubscription.trimmed (s : QueueSubscription) : QueueSubscription :=
  { s with
    paneID := trimSpace s.paneID, streamID := trimSpace s.streamID
    workspaceGeneration := trimSpace s.workspaceGeneration, historyGeneration := trimSpace s.historyGeneration
    historyReplayMode := trimSpace s.historyReplayMode, flowControl := trimSpace s.flowControl }

def validateTerminalQueueSubscription (subscription : QueueSubscription) :
    Except String (QueueSubscription × QueueSyncRequest) :=
  if 64 < byteLength subscription.foreground ∨ 64 < byteLength subscription.background ∨
      64 < byteLength subscription.cursor then
    .error "invalid terminal theme"
  else
    let s := subscription.trimmed
    if s.checkpointProtocol ≠ "" ∧ s.checkpointProtocol ≠ TerminalMemoryCheckpointProtocol then
      .error "unsupported terminal checkpoint protocol"
    else if s.flowControl ≠ "" ∧ s.flowControl ≠ "turn-ack-v1" ∧ s.flowControl ≠ "window-ack-v1" then
      .error "unsupported queue flow control"
    else if s.paneID = "" ∨ 128 < byteLength s.paneID then .error "invalid queue pane id"
    else if s.streamID = "" ∨ 128 < byteLength s.streamID then .error "invalid queue stream id"
    else if s.channelGeneration = 0 then .error "invalid queue channel generation"
    else if 128 < byteLength s.workspaceGeneration ∨ 128 < byteLength s.historyGeneration then
      .error "invalid queue history identity"
    else
      let request : QueueSyncRequest := {
        WorkspaceGeneration := s.workspaceGeneration, Generation := s.historyGeneration
        ForceSnapshot := s.historyReplayMode = "snapshot" }
      match historyRange s.historyGeneration (trimSpace s.localBaseCursor) (trimSpace s.localEndCursor) with
      | .error err => .error err
      | .ok none => .ok (s, request)
      | .ok (some (base, stop)) => .ok (s, { request with LocalBase := base, LocalEnd := stop, HasRange := true })

/-! ## The broker's map -/

structure SubscribedStream where
  subscription : QueueSubscription
  syncRequest : QueueSyncRequest
  order : Nat := 0
  stopped : Bool := false
  stream : QueuePaneStream

namespace SubscribedStream

def matchesIdentity (s : SubscribedStream) (streamID : String) (generation : Nat) : Bool :=
  s.subscription.streamID = trimSpace streamID && s.subscription.channelGeneration = generation

def accepts (s : SubscribedStream) (subscription : QueueSubscription) : Bool :=
  s.matchesIdentity subscription.streamID subscription.channelGeneration

/-- `deactivate` and `stop`. -/
def retire (s : SubscribedStream) : SubscribedStream := { s with stopped := true, stream := s.stream.deactivate }

end SubscribedStream

structure DesiredStream where
  subscription : QueueSubscription
  syncRequest : QueueSyncRequest

/-- A message of `WritePaneError`. -/
structure PaneError where
  paneID : String
  streamID : String
  channelGeneration : Nat
  payload : JsonObject

structure SubscriptionBroker where
  transportRole : String
  maxSubscriptions : Int
  /-- `writeMessage` is set. -/
  writes : Bool
  heap : List SubscribedStream := []
  streams : AList fun _ : String => Nat := ∅
  nextOrder : Nat := 0
  paneErrors : List PaneError := []

/-- What the backend's `Open` answers for a pane: an error, or the sizes of the two texts the
stream starts with. -/
abbrev Opened := String → Except String (Nat × Nat)

def flowControlOf (text : String) : FlowControl :=
  if text = "turn-ack-v1" then .turnAck else if text = "window-ack-v1" then .window else .none

/-- Work done to its end, in at most so many pieces. -/
def QueuePaneStream.settle : Nat → QueuePaneStream → List QueueWork → QueuePaneStream
  | 0, s, _ => s
  | _, s, [] => s
  | n + 1, s, work :: rest => settle n (s.perform work).1 ((s.perform work).2 ++ rest)

/-- A text takes four pieces of work at most. -/
def QueuePaneStream.enqueueControl (s : QueuePaneStream) (frame : TextFrame) : QueuePaneStream :=
  s.settle 4 [.enqueueText frame]

/-- The stream of an opened backend; `order` is set when it is put in the map. -/
def startPaneStream (want : DesiredStream) (sizes : Nat × Nat) : SubscribedStream where
  subscription := want.subscription
  syncRequest := { want.syncRequest with CheckpointProtocol := want.subscription.checkpointProtocol }
  stream :=
    ((QueuePaneStream.start (flowControlOf want.subscription.flowControl) want.subscription.replayBurstLimitBytes
      want.subscription.priority).enqueueControl (BrokerControl.logicalAttachStart.frame sizes.1)).enqueueControl
        (BrokerControl.agentPreparing.frame sizes.2)

/-- The wants in their order, each pane once. -/
def collectDesired : List QueueSubscription → List DesiredStream → Except String (List DesiredStream)
  | [], desired => .ok desired
  | subscription :: rest, desired =>
    match validateTerminalQueueSubscription subscription with
    | .error err => .error err
    | .ok (normalized, syncRequest) =>
      if desired.any fun d => d.subscription.paneID = normalized.paneID then
        .error ("duplicate queue pane subscription: " ++ normalized.paneID)
      else collectDesired rest (desired ++ [{ subscription := normalized, syncRequest := syncRequest }])

def findDesired (paneID : String) (desired : List DesiredStream) : Option DesiredStream :=
  desired.find? fun d => d.subscription.paneID = paneID

/-- The stream of a map entry is one that is desired. -/
def stillWanted (heap : List SubscribedStream) (desired : List DesiredStream) (entry : (_ : String) × Nat) : Bool :=
  match findDesired entry.1 desired, heap[entry.2]? with
  | some want, some stream => stream.accepts want.subscription
  | _, _ => false

/-- Where the loop over the broker's map is. -/
structure Retiring where
  desired : List DesiredStream
  streams : AList fun _ : String => Nat
  removed : List Nat := []

def retireEntry (heap : List SubscribedStream) (r : Retiring) (entry : (_ : String) × Nat) : Retiring :=
  if stillWanted heap r.desired entry then
    { r with desired := r.desired.filter fun d => d.subscription.paneID ≠ entry.1 }
  else { r with streams := r.streams.erase entry.1, removed := r.removed ++ [entry.2] }

namespace SubscriptionBroker

def WritePaneError (b : SubscriptionBroker) (subscription : QueueSubscription) (err : String) : SubscriptionBroker :=
  if b.writes then
    { b with paneErrors := b.paneErrors ++ [{
        paneID := trimSpace subscription.paneID, streamID := trimSpace subscription.streamID
        channelGeneration := subscription.channelGeneration, payload := AgentConnectionErrorPayload err }] }
  else b

/-- One round of the loop over the wanted panes. -/
def startDesired (opened : Opened) (b : SubscriptionBroker) (want : DesiredStream) : SubscriptionBroker :=
  match opened want.subscription.paneID with
  | .error err => b.WritePaneError want.subscription err
  | .ok sizes =>
    let stream := startPaneStream want sizes
    match b.streams.lookup want.subscription.paneID with
    | some _ => { b with heap := b.heap ++ [stream.retire] }
    | none =>
      { b with
        nextOrder := b.nextOrder + 1
        heap := b.heap ++ [{ stream with order := b.nextOrder + 1 }]
        streams := b.streams.insert want.subscription.paneID b.heap.length }

/-- The broker after the call, and the error it returns. -/
def ReplaceSubscriptions (b : SubscriptionBroker) (subscriptions : List QueueSubscription) (opened : Opened) :
    SubscriptionBroker × Option String :=
  let maxSubscriptions := if b.maxSubscriptions ≤ 0 then terminalQueueMaxSubscriptions else b.maxSubscriptions
  if maxSubscriptions < subscriptions.length then
    (b, some ("too many " ++ b.transportRole ++ " subscriptions: " ++ subscriptions.length.repr))
  else
    match collectDesired subscriptions [] with
    | .error err => (b, some err)
    | .ok desired =>
      let r := b.streams.entries.foldl (retireEntry b.heap) { desired := desired, streams := b.streams }
      let retired := r.removed.foldl (fun heap i => heap.modify i SubscribedStream.retire) b.heap
      (r.desired.foldl (startDesired opened) { b with heap := retired, streams := r.streams }, none)

/-- A broker is closed when its connection is. -/
def Close (b : SubscriptionBroker) : SubscriptionBroker :=
  { b with
    streams := ∅
    heap := b.streams.entries.foldl (fun heap entry => heap.modify entry.2 SubscribedStream.retire) b.heap }

end SubscriptionBroker

def terminalFastMaxSubscriptions : Int := 1

def NewTerminalQueueBroker (transportRole : String) (writes : Bool) : SubscriptionBroker :=
  let role := trimSpace transportRole
  let role := if role ≠ "fast" ∧ role ≠ "unified" then "queue" else role
  { transportRole := role
    maxSubscriptions := if role = "fast" then terminalFastMaxSubscriptions else terminalQueueMaxSubscriptions
    writes := writes }

inductive SubscriptionEvent
  | replace (subscriptions : List QueueSubscription) (opened : Opened)
  /-- What the other goroutines make of a stream between two calls. -/
  | stream (i : Nat) (becomes : QueuePaneStream) (stops : Bool)
  | close

def subscriptionEvent (b : SubscriptionBroker) : SubscriptionEvent → SubscriptionBroker
  | .replace subscriptions opened => (b.ReplaceSubscriptions subscriptions opened).1
  | .stream i becomes stops =>
    { b with heap := b.heap.modify i fun s => { s with stream := becomes, stopped := s.stopped || stops } }
  | .close => b.Close

def subscriptionMachine : Machine SubscriptionBroker SubscriptionEvent where
  step b e := some (subscriptionEvent b e)

end Webshell
