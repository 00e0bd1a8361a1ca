import Webshell.Machine
import Webshell.QueueReceiver
import Mathlib

/-!
# The owner of the physical connection

The page has one physical connection at a time. Its owner drops a connection
because it is told to, because another target is asked for, or because the
connection is lost, and puts a fence behind it: until the fence is gone no
other connection is made. Connections, fences and the recovery's wait are
named by their places, and every promise callback is a step of its own.
-/

namespace Webshell

/-! ## Connections -/

/-- What a connection tells its owner. -/
inductive ConnectionEvent
  | stateChange (physicalReadyState : SocketState) (serverReady : Bool)
  | physicalError (message : String)
  | physicalClose (reason : String)

structure UnifiedConnection where
  /-- The `readyState` of the socket, while there is one. -/
  physicalSocket : Option SocketState := none
  physicalReadyState : SocketState := .closed
  serverReady : Bool := false
  physicalLastPongAt : Nat := 0
  physicalErrorDispatched : Bool := false
  logicalCount : Nat := 0
  disposed : Bool := false
  /-- Its `closed` promise is resolved. -/
  closed : Bool := false
  closeCalled : Bool := false
  socketClosed : Bool := false
  /-- The variables of the call of `ensure` that made it. -/
  observedPhysicalReadyState : SocketState := .closed
  observedServerReady : Bool := false

namespace UnifiedConnection

/-- One that is not connected yet. -/
def created : UnifiedConnection where

def emitState (c : UnifiedConnection) : ConnectionEvent := .stateChange c.physicalReadyState c.serverReady

/-- The connection, what it tells, and whether `new WebSocket` threw. -/
def ensurePhysicalSocket (c : UnifiedConnection) (constructs : Bool) : UnifiedConnection × List ConnectionEvent × Bool :=
  if c.disposed = true ∨ c.physicalSocket = some .open ∨ c.physicalSocket = some .connecting then (c, [], false)
  else
    let c := { c with physicalReadyState := .connecting, serverReady := false }
    if constructs = false then (c, [], true)
    else
      let c := { c with physicalSocket := some .connecting }
      (c, [c.emitState], false)

/-- `connect` of a connection that is not disposed. -/
def connect (c : UnifiedConnection) (constructs : Bool) : UnifiedConnection × List ConnectionEvent × Bool :=
  match c.ensurePhysicalSocket constructs with
  | (c, events, true) => (c, events, true)
  | (c, events, false) => (c, events ++ [c.emitState], false)

/-- `close`, with the logical streams it closes. -/
def close (c : UnifiedConnection) : UnifiedConnection × List ConnectionEvent :=
  let c := { c with closeCalled := true }
  if c.disposed = true then (c, [])
  else
    let c := { c with disposed := true, serverReady := false, logicalCount := 0 }
    match c.physicalSocket with
    | some .connecting | some .open | some .closing =>
      let c := { c with physicalReadyState := .closing, physicalSocket := some .closing }
      (c, [c.emitState])
    | some .closed | none =>
      let c := { c with physicalReadyState := .closed, physicalSocket := none, closed := true }
      (c, [c.emitState])

/-- The socket's `open` event. -/
def opened (c : UnifiedConnection) : UnifiedConnection × List ConnectionEvent :=
  let c := { c with physicalSocket := some .open, physicalReadyState := .open, physicalErrorDispatched := false }
  (c, [c.emitState])

/-- The message `queue-ready`. -/
def ready (c : UnifiedConnection) : UnifiedConnection × List ConnectionEvent :=
  let c := { c with serverReady := true }
  (c, [c.emitState])

/-- An `error` event of the socket or a `queue-error`. -/
def dispatchPhysicalError (c : UnifiedConnection) (message : String) : UnifiedConnection × List ConnectionEvent :=
  if c.disposed = true ∨ c.physicalErrorDispatched = true ∨ c.logicalCount = 0 then (c, [])
  else ({ c with physicalErrorDispatched := true }, [.physicalError message])

/-- The socket's `close` event: the owner is told first, then the streams are closed. -/
def socketClosing (c : UnifiedConnection) (reason : String) : UnifiedConnection × List ConnectionEvent :=
  let c := { c with
    physicalSocket := none, physicalReadyState := .closed, serverReady := false, disposed := true, logicalCount := 0
    closed := true, socketClosed := true }
  (c, [.physicalClose (if reason = "" then "terminal queue connection closed" else reason), c.emitState, c.emitState])

/-- `open` of a logical stream. -/
def openLogical (c : UnifiedConnection) (constructs : Bool) : UnifiedConnection × List ConnectionEvent :=
  match ensurePhysicalSocket { c with logicalCount := c.logicalCount + 1 } constructs with
  | (c, events, true) => (c, events)
  | (c, events, false) => (c, events ++ [c.emitState])

def closeLogical (c : UnifiedConnection) : UnifiedConnection × List ConnectionEvent :=
  let c := { c with logicalCount := c.logicalCount - 1 }
  (c, [c.emitState])

end UnifiedConnection

/-! ## The owner -/

inductive FenceStage
  | pending
  | settled
  /-- The callback that clears the expected reason has run. -/
  | cleared
  | done
  deriving DecidableEq

structure CloseFence where
  observedConnection : Nat
  /-- The reason of the `close` that made it; none if a lost connection did. -/
  reason : Option String
  /-- Its delay has elapsed. -/
  elapsed : Bool := false
  stage : FenceStage := .pending

structure HealthWatchdog where
  connection : Option Nat
  observedState : SocketState
  observedStateAt : Nat
  outstandingPingAt : Nat := 0
  running : Bool := false

structure HealthTimes where
  pongTimeout : Nat := 12000
  transitionTimeout : Nat := 12000
  serverPrepareTimeout : Nat := 45000

/-- What the injected callbacks say of the page. -/
structure PageState where
  getDisposed : Bool := false
  isOnline : Bool := true
  getActiveName : String := ""
  membershipPanes : Nat := 0

structure UnifiedTransport where
  connection : Option Nat := none
  targetName : String := ""
  healthWatchdog : Option HealthWatchdog := none
  closedConnections : List Nat := []
  closingPromise : Option Nat := none
  expectedCloseReason : String := ""
  recoveryScheduled : Bool := false
  recoveryRunning : Bool := false
  recoveryPendingReason : String := ""
  /-- The retry timer runs. -/
  recoveryRetryTimer : Bool := false
  disposed : Bool := false
  /-- A recovery waits: for a fence, or just for its next turn. -/
  awaiting : Option (Option Nat) := none
  now : Nat := 1
  connections : List UnifiedConnection := []
  fences : List CloseFence := []
  /-- How often `createConnection` was called. -/
  creations : Nat := 0
  /-- The connections that `handlePhysicalDisconnect` was called for. -/
  disconnects : List Nat := []

namespace UnifiedTransport

/-- Nothing to recover on this page. -/
def paused (t : UnifiedTransport) (page : PageState) : Bool := t.disposed || page.getDisposed || !page.isOnline

def physicalReadyState (t : UnifiedTransport) (c : Nat) : Option SocketState :=
  t.connections[c]?.map UnifiedConnection.physicalReadyState

def needsRecovery (t : UnifiedTransport) (page : PageState) : Bool :=
  match t.connection with
  | none => false
  | some c => t.physicalReadyState c = some .closed && 0 < page.membershipPanes

def scheduleRecovery (t : UnifiedTransport) (page : PageState) (reason : String) : UnifiedTransport :=
  if t.paused page = true then t
  else if t.recoveryScheduled = true ∨ t.recoveryRunning = true then
    { t with recoveryPendingReason := if reason = "" then "transport_failure" else reason }
  else { t with recoveryScheduled := true }

/-- A new fence for a connection, as the closing promise. -/
def registerClosingFence (t : UnifiedTransport) (c : Nat) (reason : Option String) : UnifiedTransport :=
  { t with
    closingPromise := some t.fences.length
    fences := t.fences ++ [{ observedConnection := c, reason := reason }] }

/-- `close` of a connection. It is no longer the owner's, so its state events are not attended to. -/
def shut (t : UnifiedTransport) (c : Nat) : UnifiedTransport :=
  { t with connections := t.connections.modify c fun connection => connection.close.1 }

def close (t : UnifiedTransport) (reason : String) : UnifiedTransport :=
  let normalizedReason := if reason = "" then "context_changed" else reason
  match t.connection with
  | none => t
  | some current =>
    let t := { t with expectedCloseReason := normalizedReason, connection := none, targetName := "", healthWatchdog := none }
    let t := t.registerClosingFence current (some normalizedReason)
    shut { t with closedConnections := t.closedConnections ++ [current] } current

def handlePhysicalDisconnect (t : UnifiedTransport) (page : PageState) (c : Nat) (reason : String)
    (closeConnection : Bool) : UnifiedTransport :=
  let t := { t with disconnects := t.disconnects ++ [c] }
  if c ∈ t.closedConnections then t
  else
    let t : UnifiedTransport := { t with
      closedConnections := t.closedConnections ++ [c]
      healthWatchdog := t.healthWatchdog.map fun w =>
        { w with connection := none, observedState := .closed, observedStateAt := t.now, outstandingPingAt := 0 } }
    let t := if t.closingPromise = none then t.registerClosingFence c none else t
    let t := if t.connection = some c then { t with connection := none, targetName := "" } else t
    let t := if closeConnection then t.shut c else t
    t.scheduleRecovery page (if reason = "" then "unified_transport_closed" else reason)

/-! ### The watchdog -/

def startHealthWatchdog (t : UnifiedTransport) (c : Nat) : UnifiedTransport :=
  { t with healthWatchdog := some {
      connection := some c, observedState := (t.physicalReadyState c).getD .closed, observedStateAt := t.now } }

def onDisconnected (t : UnifiedTransport) (page : PageState) (reason : String) (observed : Option Nat) : UnifiedTransport :=
  if observed ≠ none ∧ t.connection ≠ observed then t else t.scheduleRecovery page reason

def closeUnhealthy (t : UnifiedTransport) (page : PageState) (reason : String) (c : Nat) : UnifiedTransport :=
  (t.handlePhysicalDisconnect page c reason false).shut c

def observeState (w : HealthWatchdog) (state : SocketState) (checkedAt : Nat) : HealthWatchdog :=
  if state = w.observedState then w
  else { w with
    observedState := state, observedStateAt := checkedAt
    outstandingPingAt := if state = .open then w.outstandingPingAt else 0 }

/-- `check` on a socket that is open. -/
def checkOpen (t : UnifiedTransport) (times : HealthTimes) (page : PageState) (w : HealthWatchdog) (c : Nat)
    (connection : UnifiedConnection) : UnifiedTransport :=
  if connection.serverReady = false then
    let t := { t with healthWatchdog := some { w with outstandingPingAt := 0 } }
    if w.observedStateAt + times.serverPrepareTimeout ≤ t.now then t.closeUnhealthy page "unified_agent_prepare_timeout" c
    else t
  else
    let outstanding := if w.outstandingPingAt ≤ connection.physicalLastPongAt then 0 else w.outstandingPingAt
    let t := { t with healthWatchdog := some { w with outstandingPingAt := outstanding } }
    if 0 < outstanding then
      if outstanding + times.pongTimeout ≤ t.now then t.closeUnhealthy page "unified_pong_timeout" c else t
    else if connection.physicalSocket ≠ some .open then t.closeUnhealthy page "unified_ping_failed" c
    else { t with healthWatchdog := some { w with outstandingPingAt := t.now } }

def check (t : UnifiedTransport) (times : HealthTimes) (page : PageState) (reason : String) : UnifiedTransport :=
  match t.healthWatchdog with
  | none => t
  | some w =>
    if t.paused page = true then t
    else
      match w.connection with
      | none => t.onDisconnected page ("unified_" ++ reason ++ "_missing") none
      | some c =>
        match t.connections[c]? with
        | none => t
        | some connection =>
          let w := observeState w connection.physicalReadyState t.now
          let t := { t with healthWatchdog := some w }
          match connection.physicalReadyState with
          | .open => t.checkOpen times page w c connection
          | .closed => t.onDisconnected page ("unified_" ++ reason ++ "_closed") (some c)
          | .connecting =>
            if w.observedStateAt + times.transitionTimeout ≤ t.now then t.closeUnhealthy page "unified_connect_timeout" c
            else t
          | .closing =>
            if w.observedStateAt + times.transitionTimeout ≤ t.now then t.closeUnhealthy page "unified_close_timeout" c
            else t

def probeWatchdog (t : UnifiedTransport) (times : HealthTimes) (page : PageState) (reason : String) : UnifiedTransport :=
  check { t with healthWatchdog := t.healthWatchdog.map fun w => { w with outstandingPingAt := 0 } } times page reason

/-! ### What a connection tells -/

/-- The callbacks of a call of `ensure`. The connection that an event carries is the one the owner
has only if `named`: the unified connection wraps a queue connection, whose events carry that one. -/
def onStateChange (t : UnifiedTransport) (times : HealthTimes) (page : PageState) (c : Nat) (state : SocketState)
    (serverReady : Bool) : UnifiedTransport :=
  if t.connection ≠ some c then t
  else
    let becameOpen : Bool := state = .open &&
      (t.connections[c]?.map UnifiedConnection.observedPhysicalReadyState).getD .closed ≠ .open
    let becameReady : Bool := serverReady && !(t.connections[c]?.map UnifiedConnection.observedServerReady).getD false
    let t : UnifiedTransport := { t with connections := t.connections.modify c fun connection =>
      { connection with observedPhysicalReadyState := state, observedServerReady := serverReady } }
    let t : UnifiedTransport := if state = .connecting ∨ state = .open then
        { t with healthWatchdog := t.healthWatchdog.map fun w => { w with running := true } }
      else t
    let t := if becameOpen then t.probeWatchdog times page "transport_open" else t
    let t := if becameReady then t.probeWatchdog times page "agent_ready" else t
    if state = .closed ∧ t.expectedCloseReason = "" ∧ c ∉ t.closedConnections then
      t.handlePhysicalDisconnect page c "unified_transport_closed" false
    else t

def onPhysicalError (t : UnifiedTransport) (named : Bool) (page : PageState) (c : Nat) : UnifiedTransport :=
  if named = true ∧ t.connection = some c then t.handlePhysicalDisconnect page c "unified_websocket_error" true else t

def onPhysicalClose (t : UnifiedTransport) (named : Bool) (page : PageState) (c : Nat) (reason : String) : UnifiedTransport :=
  if named = true ∧ t.connection = some c ∧ t.expectedCloseReason = "" then
    t.handlePhysicalDisconnect page c (if reason = "" then "unified_websocket_closed" else reason) false
  else t

def onEvent (named : Bool) (times : HealthTimes) (page : PageState) (c : Nat) (t : UnifiedTransport) :
    ConnectionEvent → UnifiedTransport
  | .stateChange state serverReady => t.onStateChange times page c state serverReady
  | .physicalError _ => t.onPhysicalError named page c
  | .physicalClose reason => t.onPhysicalClose named page c reason

def tell (t : UnifiedTransport) (named : Bool) (times : HealthTimes) (page : PageState) (c : Nat)
    (connection : UnifiedConnection) (events : List ConnectionEvent) : UnifiedTransport :=
  events.foldl (onEvent named times page c) { t with connections := t.connections.set c connection }

/-! ### Making a connection -/

inductive CreateOutcome
  | throws
  /-- It is made, but `new WebSocket` throws when it is to connect. -/
  | connectThrows
  | connects
  deriving DecidableEq

inductive EnsureResult
  | null
  | connection (c : Nat)
  | thrown
  deriving DecidableEq

def ensure (t : UnifiedTransport) (named : Bool) (times : HealthTimes) (page : PageState) (requestedTargetName url : String)
    (outcome : CreateOutcome) : UnifiedTransport × EnsureResult :=
  let normalizedTarget := String.ofList (Js.trim requestedTargetName.toList)
  if t.disposed = true ∨ normalizedTarget = "" ∨ t.closingPromise ≠ none then (t, .null)
  else
    match t.connection with
    | some c =>
      if t.targetName = normalizedTarget ∧ t.physicalReadyState c ≠ some .closing ∧ t.physicalReadyState c ≠ some .closed then
        (t, .connection c)
      else (t.close "unified_target_changed", .null)
    | none =>
      if url = "" then (t, .null)
      else
        let t := { t with creations := t.creations + 1 }
        if outcome = .throws then (t, .thrown)
        else
          let c := t.connections.length
          let t : UnifiedTransport := { t with
            connections := t.connections ++ [.created], connection := some c, targetName := normalizedTarget }
          let t := t.startHealthWatchdog c
          let (connection, events, thrown) := UnifiedConnection.created.connect (outcome = .connects)
          (t.tell named times page c connection events, if thrown then .thrown else .connection c)

/-- `prepare`, with the connection that its cancel callback is about. -/
def prepare (t : UnifiedTransport) (named : Bool) (times : HealthTimes) (page : PageState) (requestedTargetName url : String)
    (outcome : CreateOutcome) : UnifiedTransport × Option Nat :=
  let name := String.ofList (Js.trim requestedTargetName.toList)
  if t.paused page = true ∨ name = "" ∨ name ≠ page.getActiveName ∨ t.connection ≠ none ∨ t.closingPromise ≠ none then
    (t, none)
  else
    match t.ensure named times page name url outcome with
    | (t, .thrown) => (t.close "transport_preparation_failed", none)
    | (t, .connection c) => (t, some c)
    | (t, .null) => (t, none)

def cancelPrepared (t : UnifiedTransport) (prepared : Nat) (reason : String) : UnifiedTransport :=
  if t.connection = some prepared ∧ t.connections[prepared]?.map UnifiedConnection.logicalCount = some 0 then t.close reason
  else t

/-- The callback on a connection's `closed` promise. -/
def closedFinally (t : UnifiedTransport) (page : PageState) (c : Nat) : UnifiedTransport :=
  if t.connection = some c ∧ t.expectedCloseReason = "" then
    t.handlePhysicalDisconnect page c "unified_transport_closed_finally" false
  else t

/-! ### Recovery -/

/-- The microtask of `scheduleRecovery`, up to its wait. -/
def startRecovery (t : UnifiedTransport) (page : PageState) : UnifiedTransport :=
  let t := { t with recoveryScheduled := false }
  if t.paused page = true ∨ t.recoveryRunning = true then t
  else
    let t := close { t with recoveryRunning := true } "transport_recovery"
    { t with awaiting := some t.closingPromise }

/-- What follows the wait; `fails` if an injected callback throws. -/
def resumeRecovery (t : UnifiedTransport) (page : PageState) (fails : Bool) : UnifiedTransport :=
  let t := { t with awaiting := none, expectedCloseReason := "" }
  let t := if t.paused page = false ∧ fails = true ∧ page.getActiveName ≠ "" ∧ t.recoveryRetryTimer = false then
      { t with recoveryRetryTimer := true }
    else t
  let pendingReason := t.recoveryPendingReason
  let t := { t with recoveryRunning := false, recoveryPendingReason := "" }
  if pendingReason ≠ "" ∧ t.paused page = false ∧ t.needsRecovery page = true then t.scheduleRecovery page pendingReason else t

def retryUnavailable (t : UnifiedTransport) (page : PageState) (reason : String) : UnifiedTransport :=
  let available := match t.connection with
    | none => false
    | some c => t.physicalReadyState c ≠ some .closed
  if t.paused page = true ∨ available = true ∨ page.membershipPanes = 0 then t else t.scheduleRecovery page reason

def probe (t : UnifiedTransport) (times : HealthTimes) (page : PageState) (reason : String) : UnifiedTransport :=
  if t.connection = none then t else t.probeWatchdog times page reason

def dispose (t : UnifiedTransport) (reason : String) : UnifiedTransport :=
  if t.disposed = true then t else { close { t with recoveryRetryTimer := false } reason with disposed := true }

/-! ### Fences -/

def setStage (t : UnifiedTransport) (f : Nat) (stage : FenceStage) : UnifiedTransport :=
  { t with fences := t.fences.modify f fun fence => { fence with stage := stage } }

/-- The first callback on a fence that `close` made. -/
def clearReason (t : UnifiedTransport) (f : Nat) (reason : String) : UnifiedTransport :=
  let t := t.setStage f .cleared
  if t.expectedCloseReason = reason then { t with expectedCloseReason := "" } else t

/-- The callback of `registerClosingFence`. -/
def releaseFence (t : UnifiedTransport) (f : Nat) : UnifiedTransport :=
  let t := t.setStage f .done
  if t.closingPromise = some f then { t with closingPromise := none } else t

end UnifiedTransport

/-! ## Steps -/

inductive TransportEvent
  | ensure (page : PageState) (requestedTargetName url : String) (outcome : UnifiedTransport.CreateOutcome)
  | prepare (page : PageState) (requestedTargetName url : String) (outcome : UnifiedTransport.CreateOutcome)
  | cancelPrepared (prepared : Nat) (reason : String)
  | close (reason : String)
  | dispose (reason : String)
  | scheduleRecovery (page : PageState) (reason : String)
  | startRecovery (page : PageState)
  | resumeRecovery (page : PageState) (fails : Bool)
  | retryTimer (page : PageState)
  | retryUnavailable (page : PageState) (reason : String)
  | clearExpectedCloseReason
  | tick (now : Nat)
  /-- The watchdog's interval. -/
  | interval (page : PageState)
  | probe (page : PageState) (reason : String)
  | socketOpened (page : PageState) (c : Nat)
  | serverReady (page : PageState) (c : Nat)
  | pong (c : Nat)
  | physicalError (page : PageState) (c : Nat) (message : String)
  /-- The socket starts to close, which no event tells. -/
  | socketCloses (c : Nat)
  | socketClosed (page : PageState) (c : Nat) (reason : String)
  | logicalOpened (page : PageState) (c : Nat) (constructs : Bool)
  | logicalClosed (page : PageState) (c : Nat)
  | closedFinally (page : PageState) (c : Nat)
  | fenceTimer (f : Nat)
  | fenceSettles (f : Nat)
  | clearReason (f : Nat)
  | releaseFence (f : Nat)

namespace UnifiedTransport

/-- A connection's own step, if its socket is as it must be. -/
def connectionStep (t : UnifiedTransport) (named : Bool) (times : HealthTimes) (page : PageState) (c : Nat)
    (enabled : UnifiedConnection → Bool) (f : UnifiedConnection → UnifiedConnection × List ConnectionEvent) :
    Option UnifiedTransport :=
  match t.connections[c]? with
  | none => none
  | some connection =>
    if enabled connection then some (t.tell named times page c (f connection).1 (f connection).2) else none

def fenceStep (t : UnifiedTransport) (f : Nat) (enabled : CloseFence → Bool)
    (change : CloseFence → UnifiedTransport) : Option UnifiedTransport :=
  match t.fences[f]? with
  | none => none
  | some fence => if enabled fence then some (change fence) else none

end UnifiedTransport

open UnifiedTransport in
def transportMachine (named : Bool) (times : HealthTimes) : Machine UnifiedTransport TransportEvent where
  step t
    | .ensure page requestedTargetName url outcome => some (t.ensure named times page requestedTargetName url outcome).1
    | .prepare page requestedTargetName url outcome => some (t.prepare named times page requestedTargetName url outcome).1
    | .cancelPrepared prepared reason => some (t.cancelPrepared prepared reason)
    | .close reason => some (t.close reason)
    | .dispose reason => some (t.dispose reason)
    | .scheduleRecovery page reason => some (t.scheduleRecovery page reason)
    | .startRecovery page => if t.recoveryScheduled = true then some (t.startRecovery page) else none
    | .resumeRecovery page fails =>
      match t.awaiting with
      | none => none
      | some none => some (t.resumeRecovery page fails)
      | some (some f) =>
        if t.fences[f]?.map CloseFence.stage = some .done then some (t.resumeRecovery page fails) else none
    | .retryTimer page =>
      if t.recoveryRetryTimer = true then
        some (scheduleRecovery { t with recoveryRetryTimer := false } page "transport_recovery_retry")
      else none
    | .retryUnavailable page reason => some (t.retryUnavailable page reason)
    | .clearExpectedCloseReason => some { t with expectedCloseReason := "" }
    | .tick now => if t.now ≤ now then some { t with now := now } else none
    | .interval page =>
      if (t.healthWatchdog.map HealthWatchdog.running).getD false = true then some (t.check times page "interval") else none
    | .probe page reason => some (t.probe times page reason)
    | .socketOpened page c =>
      t.connectionStep named times page c (fun x => x.physicalSocket = some .connecting && !x.disposed) UnifiedConnection.opened
    | .serverReady page c =>
      t.connectionStep named times page c (fun x => x.physicalSocket = some .open && !x.disposed) UnifiedConnection.ready
    | .pong c =>
      t.connectionStep named times {} c (fun x => x.physicalSocket = some .open && !x.disposed) fun x =>
        ({ x with physicalLastPongAt := t.now }, [])
    | .physicalError page c message =>
      t.connectionStep named times page c (fun x => x.physicalSocket.isSome) fun x => x.dispatchPhysicalError message
    | .socketCloses c =>
      t.connectionStep named times {} c (fun x => x.physicalSocket.isSome) fun x =>
        ({ x with physicalSocket := some .closing }, [])
    | .socketClosed page c reason =>
      t.connectionStep named times page c (fun x => x.physicalSocket.isSome) fun x => x.socketClosing reason
    | .logicalOpened page c constructs =>
      t.connectionStep named times page c (fun x => !x.disposed) fun x => x.openLogical constructs
    | .logicalClosed page c =>
      t.connectionStep named times page c (fun x => !x.disposed && 0 < x.logicalCount) UnifiedConnection.closeLogical
    | .closedFinally page c =>
      if (t.connections[c]?.map UnifiedConnection.closed).getD false = true then some (t.closedFinally page c) else none
    | .fenceTimer f =>
      t.fenceStep f (fun fence => fence.stage = .pending) fun _ =>
        { t with fences := t.fences.modify f fun fence => { fence with elapsed := true } }
    | .fenceSettles f =>
      t.fenceStep f (fun fence => fence.stage = .pending &&
          (fence.elapsed || (t.connections[fence.observedConnection]?.map UnifiedConnection.closed).getD false)) fun _ =>
        t.setStage f .settled
    | .clearReason f =>
      t.fenceStep f (fun fence => fence.stage = .settled && fence.reason.isSome) fun fence =>
        t.clearReason f (fence.reason.getD "")
    | .releaseFence f =>
      t.fenceStep f (fun fence => fence.stage = .cleared || (fence.stage = .settled && fence.reason.isNone)) fun _ =>
        t.releaseFence f

end Webshell
