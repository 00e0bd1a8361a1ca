import Webshell.QueueReceiver
import Webshell.QueueSubscriptions

/-!
# Keeping a broker subscribed

A connection that is kept when it has no streams tells the broker what it is
subscribed to: the whole list from a microtask that stands for all changes
since the last one, and a priority that changed in between as a message of its
own. The broker handles the messages in the order in which they are sent.
-/

namespace Webshell

open GoText

/-! ## Messages -/

/-- `pane_id`, `stream_id` and `channel_generation` of a message. -/
structure PaneAddress where
  paneID : String
  streamID : String
  channelGeneration : Nat
  deriving DecidableEq

/-- The `control` of a message, as the broker decodes it. -/
inductive ControlPayload
  | missing
  | undecodable
  | decoded (control : TerminalControlMessage)

inductive TerminalQueueClientMessage
  | replaceSubscriptions (subscriptions : List QueueSubscription)
  | setPriority (address : PaneAddress) (priority : Int)
  | paneControl (address : PaneAddress) (control : ControlPayload)

/-! ## The broker's side -/

/-- Why a message for one stream is refused. -/
inductive StreamRefusal
  | priorityNotActive
  | controlNotActive
  | controlRequired
  | controlInvalid
  | ordinaryInput
  | streamClosed
  /-- What writing to the agent returned. -/
  | agentWrite (err : String)
  | turnAck (err : String)
  | unsupported (typeName : String)
  deriving DecidableEq

def StreamRefusal.text : StreamRefusal → String
  | .priorityNotActive => "unified pane stream is not active"
  | .controlNotActive => "queue pane stream is not active"
  | .controlRequired => "queue pane control payload is required"
  | .controlInvalid => "invalid queue pane control payload"
  | .ordinaryInput => "ordinary input requires a fast terminal channel"
  | .streamClosed => "queue pane stream is closed"
  | .agentWrite err => err
  | .turnAck err => err
  | .unsupported typeName => "unsupported queue pane control type: " ++ typeName

/-- What the outside has to say to a control: the length of the text of a `pong`, and the error of a
write to the agent. -/
structure ControlAnswers where
  pongSize : Nat := 0
  writeError : Option String := none

namespace SubscriptionBroker

def allowOrdinaryInput (b : SubscriptionBroker) : Bool := b.transportRole = "fast" || b.transportRole = "unified"

/-- The place of the stream that a message names, if it is the one of its pane. -/
def activeStream (b : SubscriptionBroker) (address : PaneAddress) : Option Nat :=
  match b.streams.lookup (trimSpace address.paneID) with
  | none => none
  | some i =>
    match b.heap[i]? with
    | none => none
    | some s => if s.matchesIdentity address.streamID address.channelGeneration then some i else none

def modifyStream (b : SubscriptionBroker) (i : Nat) (f : QueuePaneStream → QueuePaneStream) : SubscriptionBroker :=
  { b with heap := b.heap.modify i fun s => { s with stream := f s.stream } }

def SetPriority (b : SubscriptionBroker) (address : PaneAddress) (priority : Int) :
    SubscriptionBroker × Option StreamRefusal :=
  match b.activeStream address with
  | none => (b, some .priorityNotActive)
  | some i => (b.modifyStream i fun s => { s with priority := clampTerminalStreamPriority priority }, none)

/-- `WriteAgentFrame` of the stream at a place. -/
def writeAgentFrame (b : SubscriptionBroker) (i : Nat) (answers : ControlAnswers) : Option StreamRefusal :=
  if (b.heap[i]?.map SubscribedStream.stopped).getD true = true then some .streamClosed
  else answers.writeError.map .agentWrite

def acknowledgeTurn (b : SubscriptionBroker) (i : Nat) (value : String) : SubscriptionBroker × Option StreamRefusal :=
  (b.modifyStream i fun s => (s.acknowledgeTurn value).1,
    b.heap[i]?.bind fun s => (s.stream.acknowledgeTurn value).2.map .turnAck)

def HandlePaneControl (b : SubscriptionBroker) (address : PaneAddress) (payload : ControlPayload)
    (answers : ControlAnswers) : SubscriptionBroker × Option StreamRefusal :=
  match b.activeStream address with
  | none => (b, some .controlNotActive)
  | some i =>
    match payload with
    | .missing => (b, some .controlRequired)
    | .undecodable => (b, some .controlInvalid)
    | .decoded control =>
      match control.type with
      | .ping => (b.modifyStream i fun s => s.enqueueControl (BrokerControl.pong.frame answers.pongSize), none)
      | .resize | .theme => (b, b.writeAgentFrame i answers)
      | .inputLock => (b, none)
      | .detach => (b, some (.unsupported "detach"))
      | .input =>
        if control.Generated = false ∧ b.allowOrdinaryInput = false then (b, some .ordinaryInput)
        else if control.Data = "" then (b, none)
        else (b, b.writeAgentFrame i answers)
      | .other typeName =>
        if typeName = "queue-turn-ack" then b.acknowledgeTurn i control.Data
        else (b, some (.unsupported typeName))

/-- A message handled, with what the backend opens; the refusal is that of a message for one stream. -/
def handle (b : SubscriptionBroker) (opened : Opened) (answers : ControlAnswers) :
    TerminalQueueClientMessage → SubscriptionBroker × Option StreamRefusal
  | .replaceSubscriptions subscriptions => ((b.ReplaceSubscriptions subscriptions opened).1, none)
  | .setPriority address priority => b.SetPriority address priority
  | .paneControl address control => b.HandlePaneControl address control answers

end SubscriptionBroker

/-! ## The browser's side -/

def normalizePriority (value : Int) : Int := max 0 (min 3 value)

/-- An entry of `logicalStreams`; it leaves the map as soon as it is closed. -/
structure LogicalEntry where
  /-- Which call of `open` it is from, as the name of its socket. -/
  socket : Nat
  /-- The descriptor, with the trimmed identity put in. -/
  subscription : QueueSubscription
  readyState : SocketState
  lastSentPriority : Option Int := none
  /-- Its `open` event is dispatched. -/
  announced : Bool := false

def LogicalEntry.identity (entry : LogicalEntry) : LogicalIdentity where
  paneID := entry.subscription.paneID.toList
  streamID := entry.subscription.streamID.toList
  channelGeneration := entry.subscription.channelGeneration

def LogicalEntry.key (entry : LogicalEntry) : List Char := streamKey entry.identity

def LogicalEntry.address (entry : LogicalEntry) : PaneAddress where
  paneID := entry.subscription.paneID
  streamID := entry.subscription.streamID
  channelGeneration := entry.subscription.channelGeneration

inductive Microtask
  /-- The one of `scheduleSubscriptionUpdate`. -/
  | subscriptions
  /-- The one that dispatches a socket's `open` event. -/
  | opened (socket : Nat)
  deriving DecidableEq

/-- A connection with `keepAliveWhenEmpty` that is not disposed. -/
structure SubscribingConnection where
  logicalStreams : List LogicalEntry := []
  physicalReadyState : SocketState := .closed
  subscriptionUpdatePending : Bool := false
  microtasks : List Microtask := []
  sockets : Nat := 0
  /-- What the physical socket has sent and the broker has not handled. -/
  sent : List TerminalQueueClientMessage := []

/-- What `setPriority` is given: a pane, or an identity. -/
inductive PriorityTarget
  | pane (paneID : String)
  | identity (identity : LogicalIdentity)

/-- The descriptor with its identity trimmed, as `normalizeIdentity` has it. -/
def QueueSubscription.described (descriptor : QueueSubscription) : QueueSubscription :=
  { descriptor with
    paneID := String.ofList (Js.trim descriptor.paneID.toList)
    streamID := String.ofList (Js.trim descriptor.streamID.toList) }

namespace SubscribingConnection

def sendPhysical (c : SubscribingConnection) (message : TerminalQueueClientMessage) : SubscribingConnection × Bool :=
  if c.physicalReadyState ≠ .open then (c, false) else ({ c with sent := c.sent ++ [message] }, true)

def sendPriority (c : SubscribingConnection) (entry : LogicalEntry) (priority : Int) : SubscribingConnection × Bool :=
  c.sendPhysical (.setPriority entry.address priority)

/-- One round of the loop after the list is sent. -/
def settlePriority (c : SubscribingConnection) (entry : LogicalEntry) : SubscribingConnection × LogicalEntry :=
  let nextPriority := normalizePriority entry.subscription.priority
  match entry.lastSentPriority with
  | none => (c, { entry with lastSentPriority := some nextPriority })
  | some last =>
    if last = nextPriority then (c, entry)
    else
      match c.sendPriority entry nextPriority with
      | (c, true) => (c, { entry with lastSentPriority := some nextPriority })
      | (c, false) => (c, entry)

def settlePriorities (c : SubscribingConnection) : List LogicalEntry → SubscribingConnection × List LogicalEntry
  | [] => (c, [])
  | entry :: rest =>
    let (c, entry) := c.settlePriority entry
    let (c, rest) := c.settlePriorities rest
    (c, entry :: rest)

def sendSubscriptions (c : SubscribingConnection) : SubscribingConnection × Bool :=
  match ({ c with subscriptionUpdatePending := false }).sendPhysical
      (.replaceSubscriptions (c.logicalStreams.map LogicalEntry.subscription)) with
  | (c, false) => ({ c with subscriptionUpdatePending := true }, false)
  | (c, true) =>
    let (c, entries) := c.settlePriorities c.logicalStreams
    ({ c with logicalStreams := entries }, true)

def scheduleSubscriptionUpdate (c : SubscribingConnection) : SubscribingConnection :=
  if c.subscriptionUpdatePending then c
  else { c with subscriptionUpdatePending := true, microtasks := c.microtasks ++ [.subscriptions] }

def ensurePhysicalSocket (c : SubscribingConnection) : SubscribingConnection :=
  if c.physicalReadyState = .open ∨ c.physicalReadyState = .connecting then c
  else { c with physicalReadyState := .connecting }

def setEntry (c : SubscribingConnection) (entry : LogicalEntry) : SubscribingConnection :=
  { c with logicalStreams := c.logicalStreams.map fun e => if e.socket = entry.socket then entry else e }

def entry (c : SubscribingConnection) (socket : Nat) : Option LogicalEntry :=
  c.logicalStreams.find? fun e => e.socket = socket

/-- The `open` event of a socket, if it is still open. -/
def dispatchOpen (c : SubscribingConnection) (socket : Nat) : SubscribingConnection :=
  match c.entry socket with
  | some entry => if entry.readyState = .open then c.setEntry { entry with announced := true } else c
  | none => c

/-- `open`: the connection with the new stream, or what is thrown. -/
def openStream (c : SubscribingConnection) (descriptor : QueueSubscription) : Except String SubscribingConnection :=
  let entry : LogicalEntry := {
    socket := c.sockets, subscription := descriptor.described
    readyState := if c.physicalReadyState = .open then .open else .connecting }
  if entry.subscription.paneID = "" ∨ entry.subscription.streamID = "" ∨ entry.subscription.channelGeneration = 0 ∨
      Js.maxSafeInteger < entry.subscription.channelGeneration then
    .error "invalid terminal queue logical stream identity"
  else if c.logicalStreams.any fun e => e.key = entry.key then
    .error "terminal queue logical stream already exists"
  else if c.logicalStreams.any fun e => e.subscription.paneID = entry.subscription.paneID then
    .error "terminal queue pane already has a logical stream"
  else
    let c := ensurePhysicalSocket { c with logicalStreams := c.logicalStreams ++ [entry], sockets := c.sockets + 1 }
    if entry.readyState = .open then
      let c := c.scheduleSubscriptionUpdate
      .ok { c with microtasks := c.microtasks ++ [.opened entry.socket] }
    else .ok c

/-- `close` of a logical socket. -/
def closeStream (c : SubscribingConnection) (socket : Nat) : SubscribingConnection :=
  match c.entry socket with
  | none => c
  | some entry =>
    scheduleSubscriptionUpdate { c with logicalStreams := c.logicalStreams.filter fun e => e.key ≠ entry.key }

/-- `send` of a logical socket: what is thrown, if anything. -/
def sendControl (c : SubscribingConnection) (socket : Nat) (control : ControlPayload) :
    Except String SubscribingConnection :=
  match c.entry socket with
  | none => .error "terminal queue logical socket is not open"
  | some entry =>
    if entry.readyState ≠ .open then .error "terminal queue logical socket is not open"
    else
      match c.sendPhysical (.paneControl entry.address control) with
      | (c, true) => .ok c
      | (_, false) => .error "terminal queue physical socket is not open"

def targetEntry (c : SubscribingConnection) : PriorityTarget → Option LogicalEntry
  | .pane paneID => c.logicalStreams.find? fun e => e.subscription.paneID = paneID
  | .identity identity => c.logicalStreams.find? fun e => e.key = streamKey identity

def setPriority (c : SubscribingConnection) (target : PriorityTarget) (priority : Int) : SubscribingConnection × Bool :=
  match c.targetEntry target with
  | none => (c, false)
  | some found =>
    let nextPriority := normalizePriority priority
    let entry := { found with subscription := { found.subscription with priority := nextPriority } }
    let c := c.setEntry entry
    if entry.lastSentPriority = some nextPriority then (c, true)
    else if entry.lastSentPriority = none ∨ c.subscriptionUpdatePending = true then (c.scheduleSubscriptionUpdate, true)
    else
      match c.sendPriority entry nextPriority with
      | (c, true) => (c.setEntry { entry with lastSentPriority := some nextPriority }, true)
      | (c, false) => (c, false)

/-- The physical socket's `open` event. -/
def physicalOpen (c : SubscribingConnection) : SubscribingConnection :=
  let c := { c with physicalReadyState := .open }
  let c := if c.logicalStreams ≠ [] then c.sendSubscriptions.1 else { c with subscriptionUpdatePending := false }
  { c with logicalStreams := c.logicalStreams.map fun e =>
      if e.readyState = .connecting then { e with readyState := .open, announced := true } else e }

def runMicrotask (c : SubscribingConnection) : Microtask → SubscribingConnection
  | .subscriptions => if c.subscriptionUpdatePending then c.sendSubscriptions.1 else c
  | .opened socket => c.dispatchOpen socket

end SubscribingConnection

/-! ## Both sides -/

structure SubscribingPair where
  connection : SubscribingConnection := {}
  broker : SubscriptionBroker
  refusals : List StreamRefusal := []
  /-- The stream ids of the streams opened so far. -/
  used : List String := []

inductive SubscribingEvent
  | connect
  | openStream (descriptor : QueueSubscription)
  | closeStream (socket : Nat)
  | setPriority (target : PriorityTarget) (priority : Int)
  | sendControl (socket : Nat) (control : ControlPayload)
  | physicalOpen
  | microtask
  /-- The broker handles the next message; every `Open` of its backend succeeds. -/
  | handle (sizes : String → Nat × Nat) (answers : ControlAnswers)
  /-- What the broker's other goroutines make of a stream; none of them sets a priority. -/
  | stream (i : Nat) (becomes : QueuePaneStream) (stops : Bool)

def subscribingMachine : Machine SubscribingPair SubscribingEvent where
  step p
    | .connect => some { p with connection := p.connection.ensurePhysicalSocket }
    | .openStream descriptor =>
      match p.connection.openStream descriptor with
      | .error _ => some p
      | .ok c => some { p with connection := c, used := p.used ++ [descriptor.described.streamID] }
    | .closeStream socket => some { p with connection := p.connection.closeStream socket }
    | .setPriority target priority => some { p with connection := (p.connection.setPriority target priority).1 }
    | .sendControl socket control =>
      match p.connection.sendControl socket control with
      | .error _ => some p
      | .ok c => some { p with connection := c }
    | .physicalOpen =>
      if p.connection.physicalReadyState = .connecting then some { p with connection := p.connection.physicalOpen } else none
    | .microtask =>
      match p.connection.microtasks with
      | [] => none
      | task :: rest => some { p with connection := { p.connection with microtasks := rest }.runMicrotask task }
    | .handle sizes answers =>
      match p.connection.sent with
      | [] => none
      | message :: rest =>
        let (broker, refusal) := p.broker.handle (fun paneID => .ok (sizes paneID)) answers message
        some { p with
          connection := { p.connection with sent := rest }, broker := broker, refusals := p.refusals ++ refusal.toList }
    | .stream i becomes stops =>
      if p.broker.heap[i]?.map (fun s => s.stream.priority) = some becomes.priority then
        some { p with broker := subscriptionEvent p.broker (.stream i becomes stops) }
      else none

end Webshell
