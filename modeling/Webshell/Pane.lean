import Webshell.Machine
import Webshell.Text
import Webshell.Layout
import Webshell.Subscriber

/-!
# The terminal pane

Output, attaches, resizes and the end of one pane, as far as its clients see
them. Clients are named by the order of their attaches. What the environment
answers (the PTY, the parser, the length of a JSON text) is in each event.
-/

namespace Webshell

open GoText

structure PaneAnswers where
  /-- The error of `platform.ResizePTY`, if it is called. -/
  pty : Option String := none
  parser : ParserAnswers := {}
  generation : Except String String := .error ""
  textSize : PaneControl → Nat := fun _ => 0

def TerminalMemoryCheckpointProtocol : String := "ghostty-memory-v1"

structure HistorySyncRequest where
  CheckpointProtocol : String := ""
  Generation : String := ""
  LocalEnd : Nat := 0
  HasRange : Bool := false
  ForceSnapshot : Bool := false

inductive ControlType
  | input
  | resize
  | theme
  | inputLock
  | ping
  | detach
  | other (name : String)
  deriving DecidableEq

structure TerminalControlMessage where
  type : ControlType
  Cols : Int := 0
  Rows : Int := 0
  PixelWidth : Int := 0
  PixelHeight : Int := 0
  ResizeEpoch : String := ""
  Claim : Bool := false
  Data : String := ""
  Generated : Bool := false

/-- What the first failure of the checkpoint engine is remembered by. -/
structure CheckpointFailure where
  operation : String
  error : String
  batchFrom : Nat
  batchTo : Nat
  pendingBefore : Nat
  pendingAfter : Nat
  deriving DecidableEq

/-- A client with the history its attach was answered with. -/
structure Subscriber where
  client : PaneClient
  snapshot : PaneHistorySnapshot
  deriving DecidableEq

structure PaneExitSnapshot where
  exited : Bool
  exitCode : Int
  message : String
  retained : Bool
  deriving DecidableEq

structure TerminalPane where
  clients : List Nat
  /-- Every client that ever attached. -/
  subscribers : List Subscriber
  history : PaneHistory
  checkpoint : Option CheckpointEngine
  checkpointFailure : Option CheckpointFailure
  historyGeneration : String
  historyLimitBytes : Int
  geometry : Geometry
  resizeEpoch : Nat
  resizeOwner : Option Nat
  hasAttached : Bool
  closing : Bool
  exited : Bool
  exitCode : Int
  exitText : String
  exitRetained : Bool
  /-- The geometry last handed to `platform.ResizePTY` with success. -/
  ptyGeometry : Geometry
  /-- All bytes appended so far. -/
  out : Bytes
  /-- The chunks that the append in progress has still to enqueue. -/
  inflight : List (Nat × Bytes)
  /-- The clients still to be told of the exit. -/
  exiting : List Nat

structure Attachment where
  history : PaneHistorySnapshot
  client : Nat
  allowGeneratedInput : Bool
  exit : PaneExitSnapshot

def parseTerminalResizeEpoch (value : String) : Option Nat :=
  match parseUint (trimSpace value) with
  | none => none
  | some epoch => if epoch = 0 then none else some epoch

/-- Bounds applied, and a missing pixel size taken from `current`. -/
def normalizeGeometry (current : Geometry) (cols rows pixelWidth pixelHeight : Int) : Geometry where
  cols := NormalizeCols cols
  rows := NormalizeRows rows
  pixelWidth :=
    if normalizeTerminalPixelDimension pixelWidth = 0 then current.pixelWidth
    else normalizeTerminalPixelDimension pixelWidth
  pixelHeight :=
    if normalizeTerminalPixelDimension pixelHeight = 0 then current.pixelHeight
    else normalizeTerminalPixelDimension pixelHeight

namespace TerminalPane

/-- A pane whose PTY has taken its first geometry. -/
def start (generation : String) (cols rows limit : Int) (localPTY : Bool) : TerminalPane :=
  let limit := if limit ≤ 0 then historyLimitBytesForTerminalScrollback defaultTerminalScrollback else limit
  let geometry : Geometry := { cols := NormalizeCols cols, rows := NormalizeRows rows, pixelWidth := 0, pixelHeight := 0 }
  let engine := CheckpointEngine.new geometry.cols geometry.rows (limit / averageHistoryBytesPerLine)
  { clients := [], subscribers := [], history := .empty, checkpoint := if localPTY then some engine else none
    checkpointFailure := none, historyGeneration := generation, historyLimitBytes := limit, geometry := geometry
    resizeEpoch := 0, resizeOwner := none, hasAttached := false, closing := false, exited := false, exitCode := 0
    exitText := "", exitRetained := false, ptyGeometry := geometry, out := [], inflight := [], exiting := [] }

/-! ## Messages to clients -/

def modifyClient (p : TerminalPane) (client : Nat) (f : PaneClient → PaneClient) : TerminalPane :=
  { p with subscribers := p.subscribers.modify client fun s => { s with client := f s.client } }

def enqueueTo (p : TerminalPane) (client : Nat) (outbound : PaneOutbound) : TerminalPane :=
  p.modifyClient client fun c => (c.enqueue outbound).1

def enqueueText (p : TerminalPane) (answers : PaneAnswers) (control : PaneControl) (closeAfter : Bool)
    (clients : List Nat) : TerminalPane :=
  clients.foldl (fun p client => p.enqueueTo client ⟨.text control (answers.textSize control), closeAfter⟩) p

/-! ## Output -/

def recordCheckpointFailureLocked (p : TerminalPane) (operation : String) (batchFrom batchTo pendingBefore : Nat)
    (answers : PaneAnswers) : TerminalPane :=
  match p.checkpoint with
  | none => p
  | some e =>
    match e.err with
    | none => p
    | some err =>
      if p.checkpointFailure.isSome then p
      else
        { p with
          checkpointFailure := some {
            operation := operation, error := err, batchFrom := batchFrom, batchTo := batchTo
            pendingBefore := pendingBefore, pendingAfter := e.pending.length } }.enqueueText
          answers .checkpointDiagnostic false p.clients

def resizeCheckpointLocked (p : TerminalPane) (cols rows lines : Int) (answers : PaneAnswers) : TerminalPane :=
  match p.checkpoint with
  | none => p
  | some e =>
    { p with checkpoint := some (e.resize cols rows lines answers.parser) }.recordCheckpointFailureLocked
      "resize" p.history.stop p.history.stop e.pending.length answers

def trimHistoryLocked (p : TerminalPane) : TerminalPane :=
  let limit :=
    if p.historyLimitBytes ≤ 0 then historyLimitBytesForTerminalScrollback defaultTerminalScrollback
    else p.historyLimitBytes
  { p with historyLimitBytes := limit, history := p.history.trim limit }

/-- The part of `appendOutput` under the pane's lock, from the filtered bytes on. -/
def appendOutput (p : TerminalPane) (filtered : Bytes) (answers : PaneAnswers) : TerminalPane :=
  if p.closing = true ∨ p.exited = true then p
  else
    let chunks := makeHistoryChunks filtered
    let outputFrom := p.history.stop
    let pendingBefore := (p.checkpoint.map fun e : CheckpointEngine => e.pending.length).getD 0
    let p := { p with
      checkpoint := p.checkpoint.map fun e : CheckpointEngine => e.write filtered answers.parser
      history := chunks.foldl PaneHistory.append p.history
      out := p.out ++ filtered }
    let p := p.trimHistoryLocked
    let p := p.recordCheckpointFailureLocked "write" outputFrom p.history.stop pendingBefore answers
    { p with inflight := p.clients.flatMap fun client => chunks.map fun chunk => (client, chunk) }

/-- The client's next chunk, and what is left to enqueue. -/
def takeFlight (client : Nat) : List (Nat × Bytes) → Option (Bytes × List (Nat × Bytes))
  | [] => none
  | (other, chunk) :: rest =>
    if other = client then some (chunk, rest)
    else (takeFlight client rest).map fun r => (r.1, (other, chunk) :: r.2)

/-- The fan-out of `appendOutput`, one chunk to one client. -/
def deliver (p : TerminalPane) (client : Nat) : Option TerminalPane :=
  match takeFlight client p.inflight with
  | none => none
  | some (chunk, rest) => some ({ p with inflight := rest }.enqueueTo client ⟨.binary chunk, false⟩)

def setHistoryLimitBytes (p : TerminalPane) (limit : Int) (answers : PaneAnswers) : TerminalPane :=
  let limit := if limit ≤ 0 then historyLimitBytesForTerminalScrollback defaultTerminalScrollback else limit
  if p.closing then p
  else
    let p := { p with historyLimitBytes := limit }.trimHistoryLocked
    p.resizeCheckpointLocked p.geometry.cols p.geometry.rows (limit / averageHistoryBytesPerLine) answers

/-! ## Attach and detach -/

def describe (p : TerminalPane) (syncMode : String) (history : PaneHistorySnapshot) : PaneHistorySnapshot :=
  { history with
    generation := p.historyGeneration, syncMode := syncMode, resizeEpoch := p.resizeEpoch
    cols := p.geometry.cols, rows := p.geometry.rows
    pixelWidth := p.geometry.pixelWidth, pixelHeight := p.geometry.pixelHeight }

/-- The checkpoint and the bytes after it in place of the history. -/
def withCheckpoint (p : TerminalPane) (history : PaneHistorySnapshot) (e : CheckpointEngine)
    (checkpoint : TerminalMemoryCheckpoint) : PaneHistorySnapshot :=
  let deltaFrom := p.history.stop - e.pending.length
  { history with
    checkpoint := some checkpoint, deltaFrom := deltaFrom, serverBase := min history.serverBase deltaFrom
    chunks := if e.pending = [] then [] else [e.pending] }

def checkpointFallback (p : TerminalPane) : Bool :=
  match p.checkpoint with
  | none => false
  | some e => e.err.isSome

/-- The whole history, or the checkpoint where one is asked for and can be taken. -/
def checkpointHistory (p : TerminalPane) (request : HistorySyncRequest) (answers : PaneAnswers) :
    Except String PaneHistorySnapshot :=
  let full := { p.describe "snapshot" p.history.snapshot with checkpointFallback := p.checkpointFallback }
  match p.checkpoint with
  | none => .ok full
  | some e =>
    if !p.checkpointFallback && request.CheckpointProtocol = TerminalMemoryCheckpointProtocol then
      match e.snapshot p.history.stop answers.parser with
      | .error err => .error ("terminal recovery checkpoint unavailable: " ++ err)
      | .ok none => .ok full
      | .ok (some checkpoint) => .ok (p.withCheckpoint full e checkpoint)
    else .ok full

/-- The snapshot `attachClient` answers. -/
def attachHistory (p : TerminalPane) (request : HistorySyncRequest) (answers : PaneAnswers) :
    Except String PaneHistorySnapshot :=
  match p.checkpointHistory request answers with
  | .error err => .error err
  | .ok history =>
    if p.checkpointFallback = false ∧ history.checkpoint = none ∧ request.ForceSnapshot = false ∧
        request.HasRange = true ∧ request.Generation = p.historyGeneration ∧ p.history.base ≤ request.LocalEnd ∧
          request.LocalEnd ≤ p.history.stop then
      .ok (p.describe (if request.LocalEnd = p.history.stop then "current" else "delta")
        (p.history.snapshotFrom request.LocalEnd))
    else .ok history

def attachClient (p : TerminalPane) (request : HistorySyncRequest) (answers : PaneAnswers) :
    TerminalPane × Except String Attachment :=
  if p.closing then (p, .error "pane is closing")
  else
    match (if p.historyGeneration = "" then answers.generation else .ok p.historyGeneration) with
    | .error err => (p, .error ("create history generation: " ++ err))
    | .ok generation =>
      let p := { p with historyGeneration := generation }
      match p.attachHistory request answers with
      | .error err => (p, .error err)
      | .ok history =>
        let client := p.subscribers.length
        ({ p with
            hasAttached := true
            subscribers := p.subscribers ++ [{ client := .new, snapshot := history }]
            clients := p.clients ++ [client] },
          .ok {
            history := history, client := client
            allowGeneratedInput := history.syncMode = "snapshot" && !p.hasAttached
            exit := { exited := p.exited, exitCode := p.exitCode, message := p.exitText, retained := p.exitRetained } })

def detachClient (p : TerminalPane) (client : Nat) (answers : PaneAnswers) : TerminalPane :=
  let clients := p.clients.filter (· ≠ client)
  if p.resizeOwner = some client then
    { p with clients := clients, resizeOwner := none }.enqueueText answers
      (.resizeOwnerReleased p.resizeEpoch p.geometry) false clients
  else { p with clients := clients }

/-! ## Resizing -/

/-- What a resize request leaves behind: the error it returns, whether it took the
output lock, and the geometry and epoch it broadcast. -/
structure ResizeResult where
  pane : TerminalPane
  error : Option String
  outputMu : Bool
  applied : Option (Nat × Geometry)

def resizeWithPixelsUnlocked (p : TerminalPane) (cols rows pixelWidth pixelHeight : Int) (answers : PaneAnswers) :
    TerminalPane × Option String :=
  if p.closing then (p, some "pane is closing")
  else
    let geometry := normalizeGeometry p.geometry cols rows pixelWidth pixelHeight
    if p.geometry = geometry then (p, none)
    else
      -- the geometry is stored before the PTY is asked
      let p := { p with geometry := geometry }.resizeCheckpointLocked geometry.cols geometry.rows
        (p.historyLimitBytes / averageHistoryBytesPerLine) answers
      if p.exited then (p, none)
      else
        match answers.pty with
        | some err => (p, some err)
        | none => ({ p with ptyGeometry := geometry }, none)

def enqueueResizeError (p : TerminalPane) (client epoch : Nat) (reason : String) (answers : PaneAnswers) : TerminalPane :=
  p.enqueueText answers (.resizeError epoch p.resizeEpoch p.geometry reason) false [client]

/-- The request refused, with `reason` for its sender. -/
def refuse (p : TerminalPane) (source epoch : Nat) (reason err : String) (answers : PaneAnswers) : ResizeResult where
  pane := p.enqueueResizeError source epoch reason answers
  error := some err
  outputMu := true
  applied := none

/-- The resize of a request without an epoch that is let through. -/
def resizeAndOwn (p : TerminalPane) (cols rows pixelWidth pixelHeight : Int) (source : Nat) (answers : PaneAnswers) :
    ResizeResult :=
  match p.resizeWithPixelsUnlocked cols rows pixelWidth pixelHeight answers with
  | (p, some err) => { pane := p, error := some err, outputMu := false, applied := none }
  | (p, none) => { pane := { p with resizeOwner := some source }, error := none, outputMu := false, applied := none }

def applyLegacyInputResize (p : TerminalPane) (cols rows pixelWidth pixelHeight : Int) (source : Nat)
    (answers : PaneAnswers) : ResizeResult :=
  if cols ≤ 0 ∨ rows ≤ 0 then { pane := p, error := none, outputMu := false, applied := none }
  else if p.resizeEpoch ≠ 0 ∧ p.resizeOwner ≠ some source ∧
      (NormalizeCols cols ≠ p.geometry.cols ∨ NormalizeRows rows ≠ p.geometry.rows ∨
        0 < pixelWidth ∧ normalizeTerminalPixelDimension pixelWidth ≠ p.geometry.pixelWidth ∨
        0 < pixelHeight ∧ normalizeTerminalPixelDimension pixelHeight ≠ p.geometry.pixelHeight) then
    p.refuse source p.resizeEpoch "resize_owner_active" "resize owner is active" answers
  else p.resizeAndOwn cols rows pixelWidth pixelHeight source answers

def applyResize (p : TerminalPane) (message : TerminalControlMessage) (source : Nat) (answers : PaneAnswers) :
    ResizeResult :=
  match parseTerminalResizeEpoch message.ResizeEpoch with
  | none =>
    if trimSpace message.ResizeEpoch ≠ "" then
      p.refuse source 0 "invalid_resize_epoch" "invalid resize epoch" answers
    else if p.resizeEpoch = 0 ∨ p.resizeOwner = some source then
      p.resizeAndOwn message.Cols message.Rows message.PixelWidth message.PixelHeight source answers
    else p.refuse source p.resizeEpoch "resize_owner_active" "resize owner is active" answers
  | some epoch =>
    let g := normalizeGeometry p.geometry message.Cols message.Rows message.PixelWidth message.PixelHeight
    if epoch < p.resizeEpoch then p.refuse source epoch "stale_resize_epoch" "stale resize epoch" answers
    else if epoch = p.resizeEpoch ∧ g ≠ p.geometry then
      p.refuse source epoch "resize_epoch_conflict" "resize epoch conflict" answers
    else if p.resizeOwner ≠ none ∧ message.Claim = false ∧ epoch ≠ p.resizeEpoch ∧ p.resizeOwner ≠ some source then
      p.refuse source epoch "resize_owner_active" "resize owner is active" answers
    else
      match p.resizeWithPixelsUnlocked g.cols g.rows g.pixelWidth g.pixelHeight answers with
      | (p, some err) => p.refuse source epoch "pty_resize_failed" err answers
      | (p, none) =>
        let p := { p with resizeEpoch := epoch, resizeOwner := some source }
        { pane := p.enqueueText answers (.resizeApplied epoch p.geometry) false p.clients
          error := none, outputMu := true, applied := some (epoch, p.geometry) }

/-- `handleTerminalControlMessage`, for what it does to the pane's size and clients; false
when the client is to be detached. Writing the input itself is left out. -/
def handleTerminalControlMessage (p : TerminalPane) (message : TerminalControlMessage) (client : Nat)
    (answers : PaneAnswers) : ResizeResult × Bool :=
  let same : ResizeResult := { pane := p, error := none, outputMu := false, applied := none }
  match message.type with
  | .input =>
    if message.Data = "" ∨ message.Generated = true then (same, true)
    else if message.ResizeEpoch ≠ "" then (p.applyResize message client answers, true)
    else
      (p.applyLegacyInputResize message.Cols message.Rows message.PixelWidth message.PixelHeight client answers, true)
  | .resize =>
    if 0 < message.Cols ∧ 0 < message.Rows then (p.applyResize message client answers, true) else (same, true)
  | .theme | .inputLock | .other _ => (same, true)
  | .ping => ({ same with pane := p.enqueueText answers .pong false [client] }, true)
  | .detach => (same, false)

/-- A resize frame read by the attach loop. -/
def handleResizeFrame (p : TerminalPane) (message : TerminalControlMessage) (client : Nat) (answers : PaneAnswers) :
    ResizeResult :=
  let same : ResizeResult := { pane := p, error := none, outputMu := false, applied := none }
  if message.type = .resize ∧ 0 < message.Cols ∧ 0 < message.Rows then
    if message.ResizeEpoch = "" then
      p.applyLegacyInputResize message.Cols message.Rows message.PixelWidth message.PixelHeight client answers
    else p.applyResize message client answers
  else same

/-! ## The end of the pane -/

/-- The first part of `markExited`. -/
def markExited (p : TerminalPane) (exitCode : Int) (exitText : String) : TerminalPane :=
  if p.exited then p
  else { p with exited := true, exitCode := exitCode, exitText := exitText, exiting := p.clients }

/-- One of the clients found by `markExited` is told. -/
def notifyExit (p : TerminalPane) (client : Nat) (retained : Bool) (answers : PaneAnswers) : Option TerminalPane :=
  if client ∈ p.exiting then
    some ({ p with exiting := p.exiting.erase client }.enqueueText answers
      (.processExit p.exitCode p.exitText retained) true [client])
  else none

def close (p : TerminalPane) : TerminalPane :=
  if p.closing then p else { p with closing := true, checkpoint := p.checkpoint.map CheckpointEngine.close }

end TerminalPane

/-! ## All interleavings -/

inductive PaneEvent
  | attach (request : HistorySyncRequest) (answers : PaneAnswers)
  | detach (client : Nat) (answers : PaneAnswers)
  | output (filtered : Bytes) (answers : PaneAnswers)
  | deliver (client : Nat)
  | limit (bytes : Int) (answers : PaneAnswers)
  | control (client : Nat) (message : TerminalControlMessage) (answers : PaneAnswers)
  | resizeFrame (client : Nat) (message : TerminalControlMessage) (answers : PaneAnswers)
  | receive (client : Nat)
  | dequeued (client : Nat) (size : Int)
  | exit (exitCode : Int) (exitText : String)
  | retain
  | notifyExit (client : Nat) (retained : Bool) (answers : PaneAnswers)
  | close
  | closeClient (client : Nat)

/-- A message is read from an attached client; one that needs the output lock waits for
the append in progress. -/
def TerminalPane.accept (p : TerminalPane) (client : Nat) (result : TerminalPane.ResizeResult) : Option TerminalPane :=
  if client ∈ p.clients ∧ (result.outputMu = true → p.inflight = []) then some result.pane else none

def paneMachine : Machine TerminalPane PaneEvent where
  step p
    | .attach request answers => some (p.attachClient request answers).1
    | .detach client answers => if client ∈ p.clients then some (p.detachClient client answers) else none
    | .output filtered answers =>
      if filtered = [] then some p
      else if p.inflight = [] then some (p.appendOutput filtered answers)
      else none
    | .deliver client => p.deliver client
    | .limit bytes answers => some (p.setHistoryLimitBytes bytes answers)
    | .control client message answers => p.accept client (p.handleTerminalControlMessage message client answers).1
    | .resizeFrame client message answers => p.accept client (p.handleResizeFrame message client answers)
    | .receive client =>
      match p.subscribers[client]? with
      | none => none
      | some s => s.client.receive.map fun c => p.modifyClient client fun _ => c
    | .dequeued client size => some (p.modifyClient client fun c => c.dequeued size)
    | .exit exitCode exitText => some (p.markExited exitCode exitText)
    | .retain => some { p with exitRetained := true }
    | .notifyExit client retained answers => p.notifyExit client retained answers
    | .close => some p.close
    | .closeClient client => some (p.modifyClient client PaneClient.close)

end Webshell
