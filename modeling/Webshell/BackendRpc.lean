import Webshell.RemoteTerminal

/-!
# The terminal in its worker

The page sends commands to a worker and keeps a promise for each. The worker
takes them one at a time, in order, and posts one reply for each. A backend that
fails or is restarted settles what is pending; a restart makes a new worker, and
what the old one still says is no longer listened to.
-/

namespace Webshell

/-! ## Commands and replies -/

inductive BackendCommand
  | init
  | write
  | resize
  | snapshot
  | restore
  | diagnose
  | read
  | text
  | search
  | link
  deriving DecidableEq

/-- The commands after whose failure the worker has to be restarted. -/
def BackendCommand.mutates : BackendCommand → Bool
  | .init | .write | .resize | .snapshot | .restore => true
  | _ => false

structure BackendMessage where
  id : Nat
  type : BackendCommand
  deriving DecidableEq

/-- What `progress` reports, as far as the page attends to it. -/
structure TerminalProgress where
  revision : Nat
  historyEpoch : Nat
  cols : Nat
  rows : Nat
  responses : List String

/-- What a frame adds to it. -/
structure FrameCells where
  alternate : Bool
  colors : String
  viewport : CellPacket

def TerminalProgress.frame (state : TerminalProgress) (cells : FrameCells) : TerminalFrame where
  revision := state.revision
  cols := state.cols
  rows := state.rows
  historyEpoch := state.historyEpoch
  alternate := cells.alternate
  colors := cells.colors
  viewport := some cells.viewport

inductive BackendResult
  | terminalState (state : TerminalProgress) (cells : FrameCells)
  | terminalProgress (state : TerminalProgress)
  /-- Rows, texts, matches and diagnostics. -/
  | other

def BackendResult.progress : BackendResult → Option TerminalProgress
  | .terminalState state _ | .terminalProgress state => some state
  | .other => none

structure WorkerError where
  message : String
  fatal : Bool

structure WorkerReply where
  message : BackendMessage
  result : Except WorkerError BackendResult

def WorkerReply.progress (reply : WorkerReply) : Option TerminalProgress := reply.result.toOption.bind BackendResult.progress

def WorkerReply.responses (reply : WorkerReply) : List String := reply.progress.elim [] TerminalProgress.responses

/-! ## The worker -/

structure WorkerRuntime where
  failed : Bool := false
  /-- `native` is not null. -/
  native : Bool := false
  revision : Nat := 0
  historyEpoch : Nat := 0

/-- What the native terminal does at one command. -/
structure NativeOutcome where
  /-- It throws before the command is counted. -/
  refuses : Option String := none
  /-- `progress` or the viewport throws. -/
  breaks : Option String := none
  responses : List String := []
  cols : Nat := 80
  rows : Nat := 24
  /-- Synchronized output holds the frame back. -/
  held : Bool := false
  cells : FrameCells

namespace WorkerRuntime

def progress (w : WorkerRuntime) (o : NativeOutcome) : TerminalProgress :=
  { revision := w.revision, historyEpoch := w.historyEpoch, cols := o.cols, rows := o.rows, responses := o.responses }

def snapshot (w : WorkerRuntime) (o : NativeOutcome) : Except String BackendResult :=
  match o.breaks with
  | some message => .error message
  | none => .ok (if o.held then .terminalProgress (w.progress o) else .terminalState (w.progress o) o.cells)

/-- A method of `native` before `init`; the text is the language's own. -/
def nullMessage : String := "Cannot read properties of null"

/-- The engine's part of a command. -/
def engine (w : WorkerRuntime) (type : BackendCommand) (o : NativeOutcome) : WorkerRuntime × Except String BackendResult :=
  match o.refuses with
  | some message => (w, .error message)
  | none =>
    match type with
    | .init =>
      let w := { w with native := true, historyEpoch := w.historyEpoch + 1, revision := w.revision + 1 }
      (w, w.snapshot o)
    | .write =>
      if w.native = false then (w, .error "Terminal backend is not initialized")
      else
        let w := { w with revision := w.revision + 1 }
        (w, match o.breaks with
          | some message => .error message
          | none => .ok (.terminalProgress (w.progress o)))
    | .resize | .restore =>
      if w.native = false then (w, .error nullMessage)
      else
        let w := { w with historyEpoch := w.historyEpoch + 1, revision := w.revision + 1 }
        (w, w.snapshot o)
    | .snapshot => if w.native = false then (w, .error nullMessage) else (w, w.snapshot o)
    | .diagnose | .read | .text | .search | .link =>
      (w, match o.breaks with
        | some message => .error message
        | none => .ok .other)

/-- A worker that has failed does nothing any more. -/
def serve (w : WorkerRuntime) (type : BackendCommand) (o : NativeOutcome) : WorkerRuntime × Except String BackendResult :=
  if w.failed then (w, .error "Terminal backend requires restart") else w.engine type o

def handle (w : WorkerRuntime) (message : BackendMessage) (o : NativeOutcome) : WorkerRuntime × WorkerReply :=
  match w.serve message.type o with
  | (w, .ok result) => (w, { message := message, result := .ok result })
  | (w, .error text) =>
    let w := { w with failed := w.failed || message.type.mutates }
    (w, { message := message, result := .error { message := text, fatal := w.failed } })

end WorkerRuntime

/-! ## The page -/

structure PendingRequest where
  message : BackendMessage
  bytes : Nat

structure RemoteRpc where
  generation : Nat := 0
  nextID : Nat := 1
  pending : List PendingRequest := []
  pendingBytes : Int := 0
  disposed : Bool := false
  failed : Bool := false
  progress : Option TerminalProgress := none
  screen : RemoteTerminal := {}
  responses : List String := []
  /-- The settled promises: the number of the request, and whether it was resolved. -/
  settled : List (Nat × Bool) := []

namespace RemoteRpc

def maxPendingBytes : Nat := 4 * 1024 * 1024

def maxPending : Nat := 64

/-- The promises of all that is pending are rejected. -/
def rejectPending (p : RemoteRpc) : RemoteRpc :=
  { p with settled := p.settled ++ p.pending.map fun request => (request.message.id, false), pending := [], pendingBytes := 0 }

def fail (p : RemoteRpc) : RemoteRpc :=
  if p.failed || p.disposed then p else { p.rejectPending with failed := true }

/-- One pending promise is settled. -/
def settle (p : RemoteRpc) (request : PendingRequest) (resolved : Bool) : RemoteRpc :=
  { p with
    pending := p.pending.filter fun other => other.message.id ≠ request.message.id
    pendingBytes := p.pendingBytes - request.bytes
    settled := p.settled ++ [(request.message.id, resolved)] }

def observed (p : RemoteRpc) : List PendingRequest := p.pending.filter fun request => request.message.type ≠ .diagnose

def queueFull (p : RemoteRpc) (type : BackendCommand) : Bool :=
  maxPending ≤ p.pending.length && (type = .diagnose || maxPending ≤ p.observed.length)

/-- `request`, with the message that it posts, if `postMessage` does not throw. -/
def request (p : RemoteRpc) (type : BackendCommand) (bytes : Nat) (posts : Bool) : RemoteRpc × Option BackendMessage :=
  if p.disposed || p.failed then (p, none)
  else if p.queueFull type || maxPendingBytes < p.pendingBytes + bytes then (if type = .diagnose then p else p.fail, none)
  else
    let request : PendingRequest := { message := { id := p.nextID, type := type }, bytes := bytes }
    let p := { p with
      nextID := p.nextID + 1, pending := p.pending ++ [request], pendingBytes := p.pendingBytes + bytes }
    if posts then (p, some request.message)
    else (if type = .diagnose then p.settle request false else p.fail, none)

def acceptProgress (p : RemoteRpc) (state : TerminalProgress) : RemoteRpc :=
  if p.progress.any (fun held => state.revision < held.revision) then p
  else { p with progress := some state, responses := p.responses ++ state.responses }

/-- `acceptFrame`, and whether it threw. -/
def acceptFrame (p : RemoteRpc) (state : TerminalProgress) (cells : FrameCells) : RemoteRpc × Bool :=
  if p.screen.frame.any (fun held => state.revision < held.revision) then (p, false)
  else if cells.viewport.columns ≠ state.cols ∨ cells.viewport.rows ≠ state.rows then (p, true)
  else
    let p := p.acceptProgress state
    match p.screen.acceptFrame (state.frame cells) with
    | .ok screen => ({ p with screen := screen }, false)
    | .error _ => (p, true)

def accept (p : RemoteRpc) : BackendResult → RemoteRpc × Bool
  | .terminalState state cells => p.acceptFrame state cells
  | .terminalProgress state => (p.acceptProgress state, false)
  | .other => (p, false)

/-- A reply of the worker that the page listens to. -/
def onmessage (p : RemoteRpc) (reply : WorkerReply) : RemoteRpc :=
  if p.disposed then p
  else
    match p.pending.find? fun request => request.message.id = reply.message.id with
    | none => p
    | some request =>
      match reply.result with
      | .error err =>
        let p := p.settle request false
        if err.fatal then p.fail else p
      | .ok result =>
        match p.accept result with
        | (p, false) => p.settle request true
        | (p, true) => (p.settle request false).fail

/-- A request's timer; a hidden or a suspended page observes for another while. -/
def checkTimeout (p : RemoteRpc) (id : Nat) (late : Bool) : RemoteRpc :=
  match p.pending.find? fun request => request.message.id = id with
  | none => p
  | some request =>
    if request.message.type = .diagnose then p.settle request false
    else if late then p
    else p.fail

def free (p : RemoteRpc) : RemoteRpc :=
  if p.disposed then p
  else { p.rejectPending with
    disposed := true, progress := none, screen := {}, responses := [], pendingBytes := p.pendingBytes }

/-- `restart` of a terminal that is not disposed, up to the new worker. -/
def restart (p : RemoteRpc) : RemoteRpc :=
  { p.rejectPending with
    generation := p.generation + 1, failed := false, progress := none, screen := {}, responses := [] }

end RemoteRpc

/-! ## Runs -/

structure BackendRun where
  page : RemoteRpc := {}
  /-- None if it was terminated. -/
  worker : Option WorkerRuntime := none
  /-- What was posted to the worker and not taken yet. -/
  lane : List BackendMessage := []
  /-- What the worker of this generation has posted and the page has not heard yet. -/
  flying : List WorkerReply := []
  /-- The responses that this worker has posted, and those that were read of them. -/
  posted : List String := []
  consumed : List String := []

inductive BackendEvent
  | request (type : BackendCommand) (bytes : Nat) (posts : Bool)
  | handle (outcome : NativeOutcome)
  | deliver
  /-- A reply of a worker of an earlier generation. -/
  | stale (reply : WorkerReply)
  | timeout (id : Nat) (late : Bool)
  /-- `onerror` and `onmessageerror`. -/
  | workerError
  | readResponse
  | restart (constructs posts : Bool)
  | free

namespace BackendRun

/-- The worker of a page that has failed or was freed is terminated. -/
def withPage (s : BackendRun) (p : RemoteRpc) : BackendRun :=
  if p.failed || p.disposed then { s with page := p, worker := none, lane := [] } else { s with page := p }

def request (s : BackendRun) (type : BackendCommand) (bytes : Nat) (posts : Bool) : BackendRun :=
  let (p, message) := s.page.request type bytes posts
  withPage { s with lane := s.lane ++ message.toList } p

def restart (s : BackendRun) (constructs posts : Bool) : BackendRun :=
  let fresh : BackendRun := { page := s.page.restart, worker := some {} }
  if constructs then fresh.request .init 0 posts else fresh.withPage { fresh.page with failed := true }

end BackendRun

open BackendRun in
def backendMachine : Machine BackendRun BackendEvent where
  step s
    | .request type bytes posts => some (s.request type bytes posts)
    | .handle outcome =>
      match s.worker, s.lane with
      | some worker, message :: lane =>
        let (worker, reply) := worker.handle message outcome
        some { s with
          worker := some worker, lane := lane, flying := s.flying ++ [reply], posted := s.posted ++ reply.responses }
      | _, _ => none
    | .deliver =>
      match s.flying with
      | [] => none
      | reply :: flying => some (withPage { s with flying := flying } (s.page.onmessage reply))
    | .stale _ => some s
    | .timeout id late => some (s.withPage (s.page.checkTimeout id late))
    | .workerError => some (s.withPage s.page.fail)
    | .readResponse =>
      match s.page.responses with
      | [] => none
      | response :: rest => some { s with page := { s.page with responses := rest }, consumed := s.consumed ++ [response] }
    | .restart constructs posts => if s.page.disposed then none else some (s.restart constructs posts)
    | .free => some (s.withPage s.page.free)

/-- The terminal as its constructor leaves it. -/
def BackendRun.constructed (constructs posts : Bool) : BackendRun := BackendRun.restart {} constructs posts

end Webshell
