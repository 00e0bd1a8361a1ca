import Webshell.Checkpoint
import Webshell.Machine
import Mathlib

/-!
# The output queue of a page

Output waits in a session's queue until a turn hands it to the terminal, in
batches of entries that belong together. A turn waits for each batch to be
parsed; meanwhile more is written, the queue may be discarded, and the session
may turn into another.
-/

namespace Webshell

inductive OutputKind
  | text
  | bytes
  deriving DecidableEq

/-- A string, by its UTF-16 code units, or a `Uint8Array`. -/
inductive OutputData
  | text (units : List UInt16)
  | bytes (data : Bytes)
  deriving DecidableEq

def terminalOutputKind : OutputData → OutputKind
  | .text _ => .text
  | .bytes _ => .bytes

/-! ## Sizes and pieces -/

def isHighSurrogate (unit : UInt16) : Bool := 0xd800 ≤ unit && unit ≤ 0xdbff

def isLowSurrogate (unit : UInt16) : Bool := 0xdc00 ≤ unit && unit ≤ 0xdfff

/-- The units of the first code point of a text, and those after it. -/
def firstCodePoint : List UInt16 → List UInt16 × List UInt16
  | [] => ([], [])
  | [unit] => ([unit], [])
  | high :: low :: rest =>
    if isHighSurrogate high = true ∧ isLowSurrogate low = true then ([high, low], rest) else ([high], low :: rest)

/-- The units of a code point of two units are above U+FFFF; `encodeInto` writes U+FFFD for a lone surrogate. -/
def utf8ByteLengthForCodePoint : List UInt16 → Nat
  | [unit] => if unit ≤ 0x7f then 1 else if unit ≤ 0x7ff then 2 else 3
  | _ => 4

/-- `encodeInto(text, buffer).written`; the buffer is large enough. -/
def encodedLength : Nat → List UInt16 → Nat
  | 0, _ => 0
  | _ + 1, [] => 0
  | fuel + 1, unit :: units =>
    utf8ByteLengthForCodePoint (firstCodePoint (unit :: units)).1 + encodedLength fuel (firstCodePoint (unit :: units)).2

def TERMINAL_OUTPUT_MEASURE_CHUNK_CHARS : Nat := 32 * 1024

/-- The end of the first piece of a text; it parts no surrogate pair. -/
def measureEnd (units : List UInt16) : Nat :=
  let stop := min units.length TERMINAL_OUTPUT_MEASURE_CHUNK_CHARS
  let stop := if stop < units.length ∧ (units[stop - 1]?.any isHighSurrogate) = true then stop - 1 else stop
  if stop = 0 then min units.length 1 else stop

/-- The loop over the pieces of a text. -/
def measureText : Nat → List UInt16 → Nat
  | 0, _ => 0
  | fuel + 1, units =>
    if units = [] then 0
    else encodedLength (measureEnd units) (units.take (measureEnd units)) + measureText fuel (units.drop (measureEnd units))

def terminalOutputByteLength : OutputData → Nat
  | .text units => measureText units.length units
  | .bytes data => data.length

/-- The end of the piece at `start`, from `stop` down. -/
def chunkEndFrom (data : Bytes) (start : Nat) : Nat → Nat
  | 0 => 0
  | stop + 1 =>
    if start < stop + 1 ∧ (data[stop + 1]?.any isContinuation) = true then chunkEndFrom data start stop else stop + 1

def terminalOutputByteChunkEnd (data : Bytes) (start maxBytes : Nat) : Nat :=
  let hardEnd := min data.length (start + maxBytes)
  if data.length ≤ hardEnd then hardEnd
  else
    let stop := chunkEndFrom data start hardEnd
    if start < stop then stop else hardEnd

/-- The loop over the pieces of the bytes from `offset` on. -/
def byteChunks (data : Bytes) (maxBytes : Nat) : Nat → Nat → List Bytes
  | 0, _ => []
  | fuel + 1, offset =>
    if offset < data.length then
      let stop := terminalOutputByteChunkEnd data offset maxBytes
      ((data.take stop).drop offset) :: byteChunks data maxBytes fuel stop
    else []

def splitTextFrom (maxBytes : Nat) : Nat → List UInt16 → List UInt16 → Nat → List (List UInt16)
  | 0, _, chunk, _ => if chunk = [] then [] else [chunk]
  | fuel + 1, units, chunk, chunkBytes =>
    if units = [] then (if chunk = [] then [] else [chunk])
    else
      let (text, rest) := firstCodePoint units
      let byteLength := utf8ByteLengthForCodePoint text
      if chunk ≠ [] ∧ maxBytes < chunkBytes + byteLength then
        chunk :: splitTextFrom maxBytes fuel rest text byteLength
      else splitTextFrom maxBytes fuel rest (chunk ++ text) (chunkBytes + byteLength)

def splitTerminalOutputText (units : List UInt16) (maxBytes : Nat) : List (List UInt16) :=
  splitTextFrom maxBytes units.length units [] 0

/-! ## Entries and sessions -/

/-- The fields of a session that tell where output belongs. -/
structure OutputIdentity where
  name : String := ""
  id : String := ""
  connectionEpoch : Nat := 0
  connectionChannelGeneration : Nat := 0
  historyGeneration : String := ""
  deriving DecidableEq

/-- What others set on a session and its page. -/
structure OutputPage where
  identity : OutputIdentity := {}
  /-- The session has a terminal; it is a remote one. -/
  term : Bool := true
  isRemote : Bool := false
  closed : Bool := false
  activeName : String := ""
  historyProtocolActive : Bool := false
  replayCommitted : Bool := true
  deriving DecidableEq

/-- A batch of replayed output is told apart by its number; entries refer to it. -/
structure ReplayBatch where
  number : Nat
  bytes : Nat
  start : Int
  stop : Int
  waiting : Bool := true
  aggregate : Bool := true
  generation : Nat
  connectionEpoch : Nat
  deriving DecidableEq

structure QueuedEntry where
  data : OutputData
  kind : OutputKind
  byteLength : Nat
  replayOutput : Bool
  suppressRender : Bool
  allowGeneratedInput : Bool
  queueGeneration : Nat
  identity : OutputIdentity
  serverHistoryRange : Bool
  historyStartCursor : Option Int
  historyEndCursor : Option Int
  replayBatch : Option Nat
  deriving DecidableEq

/-- A batch that was handed to `writeBatch`. -/
structure PassedBatch where
  entries : List QueuedEntry
  data : OutputData
  byteLength : Nat
  historyEndCursor : Option Int
  replayOutput : Bool
  /-- The generation of its first entry, and of the queue when it was handed over. -/
  queueGeneration : Nat
  generation : Nat
  previousAllowGeneratedInput : Bool
  /-- The array it was taken from, where that is not the session's queue any more. -/
  pending : Option (List QueuedEntry) := none
  deriving DecidableEq

inductive DrainStage
  /-- Before the next round of the loop. -/
  | looping
  | awaiting (batch : PassedBatch)
  /-- `writeBatch` has returned. -/
  | returned (batch : PassedBatch) (written : Bool)
  | ended
  deriving DecidableEq

/-- A turn that runs, with the variables of `drain`. -/
structure DrainTurn where
  force : Bool := false
  generation : Nat
  budgetBytes : Nat := 0
  entryLimit : Nat := 0
  batchLimit : Nat := 0
  timeBudgetMs : Nat := 0
  /-- The batch that is written in one piece, with its bytes. -/
  aggregateReplay : Option (Nat × Nat) := none
  consumed : Nat := 0
  flushedBytes : Nat := 0
  flushedBatches : Nat := 0
  stage : DrainStage
  deriving DecidableEq

structure OutputState where
  page : OutputPage := {}
  outputQueue : List QueuedEntry := []
  outputQueueSize : Nat := 0
  outputQueueGeneration : Nat := 0
  outputOverloadPending : Bool := false
  receivedHistoryCursor : Int := 0
  appliedHistoryCursor : Int := 0
  allowGeneratedInputDuringReplay : Bool := false
  replayOutputDepth : Nat := 0
  replayCompletionPending : Bool := false
  resetOnNextReplay : Bool := false
  parsedBytes : Nat := 0
  appliedEntries : Nat := 0
  failed : Bool := false
  disposedSession : Bool := false
  disposed : Bool := false
  replayBatch : Option ReplayBatch := none
  nextBatch : Nat := 0
  inFlight : Option DrainTurn := none
  deriving DecidableEq

def TERMINAL_OUTPUT_FLUSH_BUDGET_BYTES : Nat := 128 * 1024
def TERMINAL_OUTPUT_FLUSH_MAX_BATCHES : Nat := 8
def TERMINAL_OUTPUT_FLUSH_TIME_BUDGET_MS : Nat := 12
def TERMINAL_REPLAY_WRITE_BATCH_BYTES : Nat := 512 * 1024
def TERMINAL_OUTPUT_WRITE_SLICE_BYTES : Nat := 64 * 1024
def MAX_QUEUED_TERMINAL_OUTPUT_ENTRIES : Nat := 8192
def MAX_QUEUED_TERMINAL_OUTPUT_BYTES : Nat := 4 * 1024 * 1024

namespace OutputState

/-! ## Replay batches -/

/-- `replayBatch.get`, which forgets a batch of another queue or connection. -/
def getBatch (s : OutputState) : Option ReplayBatch × OutputState :=
  match s.replayBatch with
  | none => (none, s)
  | some batch =>
    if batch.generation ≠ s.outputQueueGeneration ∨ batch.connectionEpoch ≠ s.page.identity.connectionEpoch then
      (none, { s with replayBatch := none })
    else (some batch, s)

def replayBatchLimit (s : OutputState) : Nat :=
  if s.page.term = true ∧ s.page.isRemote = true then min 3500000 (MAX_QUEUED_TERMINAL_OUTPUT_BYTES - 512 * 1024) else 0

/-- `begin`, on a message whose numbers have been read; none where they are no numbers. -/
def beginReplayBatch (s : OutputState) (bytes : Nat) (snapshot : Bool) (start stop : Option Int) : OutputState :=
  let s := { s with replayBatch := none }
  match start, stop with
  | some start, some stop =>
    if bytes = 0 ∨ s.replayBatchLimit < bytes ∨ snapshot = false ∨ stop - start ≠ bytes then s
    else
      { s with
        nextBatch := s.nextBatch + 1
        replayBatch := some {
          number := s.nextBatch, bytes := bytes, start := start, stop := stop, generation := s.outputQueueGeneration
          connectionEpoch := s.page.identity.connectionEpoch } }
  | _, _ => s

def completeReplayBatch (s : OutputState) : OutputState :=
  match s.getBatch with
  | (none, s) => s
  | (some batch, s) => { s with replayBatch := some { batch with waiting := false } }

def interruptBatch (s : OutputState) : OutputState :=
  match s.getBatch with
  | (none, s) => s
  | (some batch, s) =>
    if batch.aggregate = true then { s with replayBatch := some { batch with waiting := false, aggregate := false } } else s

def batchApplied (s : OutputState) : OutputState :=
  match s.getBatch with
  | (none, s) => s
  | (some batch, s) => if s.appliedHistoryCursor < batch.stop then s else { s with replayBatch := none }

/-! ## Writing -/

def handleOverload (s : OutputState) : OutputState :=
  if s.page.closed = true ∨ s.outputOverloadPending = true then s
  else { s with outputOverloadPending := true, failed := true }

end OutputState

structure OutputOptions where
  /-- `historySource` is `server`. -/
  server : Bool := true
  startCursor : Option Int := none
  endCursor : Option Int := none
  deferRender : Bool := false
  localOutput : Bool := false

/-- What `write` sets on every entry. -/
structure EntryFlags where
  kind : OutputKind
  replayOutput : Bool
  suppressRender : Bool
  allowGeneratedInput : Bool
  server : Bool
  replayBatch : Option ReplayBatch

inductive WriteResult
  | refused
  | accepted
  /-- "Terminal history output range does not match payload length." -/
  | thrown
  deriving DecidableEq

namespace OutputState

def enqueueEntry (s : OutputState) (flags : EntryFlags) (next : Option Int) (data : OutputData) :
    Bool × OutputState × Option Int :=
  let byteLength := terminalOutputByteLength data
  if byteLength = 0 then (true, s, next)
  else if MAX_QUEUED_TERMINAL_OUTPUT_BYTES < s.outputQueueSize + byteLength ∨
      MAX_QUEUED_TERMINAL_OUTPUT_ENTRIES ≤ s.outputQueue.length then (false, s.handleOverload, next)
  else
    let stop : Option Int := next.map fun start => start + (byteLength : Int)
    (true, { s with
      receivedHistoryCursor := stop.getD s.receivedHistoryCursor
      outputQueue := s.outputQueue ++ [{
        data := data, kind := flags.kind, byteLength := byteLength, replayOutput := flags.replayOutput
        suppressRender := flags.suppressRender, allowGeneratedInput := flags.allowGeneratedInput
        queueGeneration := s.outputQueueGeneration, identity := s.page.identity
        serverHistoryRange := flags.server && stop.isSome, historyStartCursor := next, historyEndCursor := stop
        replayBatch := flags.replayBatch.bind fun batch =>
          match next, stop with
          | some start, some stop =>
            if flags.server = true ∧ batch.start ≤ start ∧ stop ≤ batch.stop then some batch.number else none
          | _, _ => none }]
      outputQueueSize := s.outputQueueSize + byteLength }, stop)

def enqueueEntries (s : OutputState) (flags : EntryFlags) (next : Option Int) : List OutputData → Bool × OutputState × Option Int
  | [] => (true, s, next)
  | data :: rest =>
    match s.enqueueEntry flags next data with
    | (false, s, next) => (false, s, next)
    | (true, s, next) => s.enqueueEntries flags next rest

/-- The entries a write is cut into. -/
def outputPieces (data : OutputData) (chunkBytes : Nat) : List OutputData :=
  match data with
  | .bytes bytes =>
    if chunkBytes < bytes.length then (byteChunks bytes chunkBytes bytes.length 0).map .bytes else [data]
  | .text units =>
    if chunkBytes < terminalOutputByteLength data then (splitTerminalOutputText units chunkBytes).map .text else [data]

/-- `write`; other data than a string or bytes is none. `resizing` is the active resize transition. -/
def write (s : OutputState) (data : Option OutputData) (options : OutputOptions) (resizing : Bool) : WriteResult × OutputState :=
  if s.disposed = true ∨ s.page.term = false ∨ s.page.closed = true ∨ s.failed = true ∨ s.disposedSession = true ∨
      s.page.identity.name ≠ s.page.activeName then (.refused, s)
  else
    match data with
    | none => (.refused, s)
    | some data =>
      if MAX_QUEUED_TERMINAL_OUTPUT_BYTES ≤ s.outputQueueSize then (.refused, s.handleOverload)
      else
        let replayOutput := !options.localOutput && !s.page.replayCommitted
        let trackHistory := terminalOutputKind data = .bytes && s.page.historyProtocolActive
        let next := if trackHistory then some (options.startCursor.getD s.receivedHistoryCursor) else none
        let (batch, s) := s.getBatch
        let flags : EntryFlags := {
          kind := terminalOutputKind data, replayOutput := replayOutput
          suppressRender := (options.deferRender || resizing) && !replayOutput
          allowGeneratedInput := replayOutput && s.allowGeneratedInputDuringReplay
          server := options.server, replayBatch := batch }
        let chunkBytes := min TERMINAL_OUTPUT_WRITE_SLICE_BYTES
          (if replayOutput then TERMINAL_REPLAY_WRITE_BATCH_BYTES else TERMINAL_OUTPUT_FLUSH_BUDGET_BYTES)
        match s.enqueueEntries flags next (outputPieces data chunkBytes) with
        | (false, s, _) => (.refused, s)
        | (true, s, next) =>
          if trackHistory = true ∧ options.endCursor.isSome = true ∧ next ≠ options.endCursor then (.thrown, s)
          else if MAX_QUEUED_TERMINAL_OUTPUT_BYTES ≤ s.outputQueueSize then (.accepted, s.handleOverload)
          else (.accepted, s)

/-! ## Turns -/

end OutputState

/-- The options of `flush`; a limit of 0 asks for the default. -/
structure FlushOptions where
  force : Bool := false
  maxBytes : Nat := 0
  maxEntries : Nat := 0
  maxTimeMs : Nat := 0

/-- What the page answers when a turn is asked for. -/
structure FlushAnswers where
  /-- A resize blocks the output. -/
  blockOutput : Bool := false
  /-- The scheduler's time is used up, before `drain` and in it. -/
  noTime : Bool := false
  noTimeLeft : Bool := false
  remainingMs : Nat := 12

/-- What the page answers in one round of the loop. -/
structure RoundAnswers where
  blockOutput : Bool := false
  /-- The time since the turn began: at the round's start, and at each entry of it. -/
  elapsedMs : Nat := 0
  entryElapsedMs : Nat → Nat := fun _ => 0

/-- `batch` while it is collected. -/
structure CollectedBatch where
  entries : List QueuedEntry := []
  byteLength : Nat := 0
  historyEndCursor : Option Int

namespace DrainTurn

def timeIsOver (t : DrainTurn) (elapsedMs : Nat) : Bool := 0 < t.timeBudgetMs && t.timeBudgetMs ≤ elapsedMs

/-- The turn ends before this entry. -/
def stopsBefore (t : DrainTurn) (entry : QueuedEntry) (elapsedMs : Nat) : Bool :=
  0 < t.consumed && ((0 < t.entryLimit && t.entryLimit ≤ t.consumed) ||
    (0 < t.batchLimit && t.batchLimit ≤ t.flushedBatches) || t.budgetBytes < t.flushedBytes + entry.byteLength ||
    t.timeIsOver elapsedMs)

def isBulk (t : DrainTurn) (first : QueuedEntry) : Bool :=
  t.aggregateReplay.any fun batch => first.replayBatch = some batch.1

def sliceBytes (t : DrainTurn) (first : QueuedEntry) : Nat :=
  match t.aggregateReplay.filter fun batch => first.replayBatch = some batch.1 with
  | some batch => batch.2
  | none => min TERMINAL_OUTPUT_WRITE_SLICE_BYTES
      (if first.replayOutput then TERMINAL_REPLAY_WRITE_BATCH_BYTES else TERMINAL_OUTPUT_FLUSH_BUDGET_BYTES)

/-- The batch ends before this entry. -/
def cutsBefore (t : DrainTurn) (first : QueuedEntry) (batch : CollectedBatch) (entry : QueuedEntry) (elapsedMs : Nat) : Bool :=
  first.kind ≠ entry.kind || first.replayBatch ≠ entry.replayBatch || first.replayOutput ≠ entry.replayOutput ||
    first.suppressRender ≠ entry.suppressRender || first.allowGeneratedInput ≠ entry.allowGeneratedInput ||
    first.serverHistoryRange ≠ entry.serverHistoryRange ||
    (batch.historyEndCursor.isSome && entry.historyStartCursor ≠ batch.historyEndCursor) ||
    t.sliceBytes first < batch.byteLength + entry.byteLength ||
    (0 < t.entryLimit && t.entryLimit ≤ t.consumed + batch.entries.length) ||
    t.budgetBytes < t.flushedBytes + batch.byteLength + entry.byteLength ||
    (!t.isBulk first && t.timeIsOver elapsedMs)

/-- The inner loop, over what is left of the queue. -/
def collect (t : DrainTurn) (first : QueuedEntry) (elapsedMs : Nat → Nat) (batch : CollectedBatch) :
    List QueuedEntry → CollectedBatch
  | [] => batch
  | entry :: rest =>
    if batch.entries ≠ [] ∧ t.cutsBefore first batch entry (elapsedMs batch.entries.length) = true then batch
    else
      t.collect first elapsedMs {
        entries := batch.entries ++ [entry], byteLength := batch.byteLength + entry.byteLength
        historyEndCursor := entry.historyEndCursor } rest

end DrainTurn

def isEmptyOutput : OutputData → Bool
  | .text units => units = []
  | .bytes data => data = []

def dataUnits : OutputData → List UInt16
  | .text units => units
  | .bytes _ => []

def dataBytes : OutputData → Bytes
  | .text _ => []
  | .bytes data => data

/-- The bytes are copied into an array of `byteLength` bytes, one chunk after the other. -/
def coalesceTerminalOutputBatch (chunks : List OutputData) (kind : OutputKind) (byteLength : Nat) : OutputData :=
  match chunks, kind with
  | [chunk], _ => chunk
  | chunks, .text => .text (chunks.flatMap dataUnits)
  | chunks, .bytes =>
    let joined := chunks.flatMap dataBytes
    .bytes ((joined ++ List.replicate (byteLength - joined.length) 0).take byteLength)

namespace OutputState

/-- The output does not belong to the session any more. -/
def identityMismatch (s : OutputState) : Bool :=
  s.outputQueue.any fun entry => entry.queueGeneration ≠ s.outputQueueGeneration || entry.identity ≠ s.page.identity

/-- The session is not shown. -/
def inactive (s : OutputState) (force : Bool) : Bool :=
  !s.page.term || (!force && (s.page.closed || s.page.identity.name ≠ s.page.activeName))

/-- `drain`, up to its loop. -/
def drain (s : OutputState) (options : FlushOptions) (answers : FlushAnswers) : OutputState :=
  let ended : DrainTurn := { force := options.force, generation := s.outputQueueGeneration, stage := .ended }
  match s.outputQueue with
  | [] => { s with inFlight := some ended }
  | first :: _ =>
    if s.identityMismatch = true then
      { s with
        outputQueue := [], outputQueueSize := 0, replayCompletionPending := false, resetOnNextReplay := true
        inFlight := some ended }
    else if s.inactive options.force = true then
      { s with outputQueue := [], outputQueueSize := 0, replayCompletionPending := false, inFlight := some ended }
    else if answers.noTimeLeft = true then { s with inFlight := some ended }
    else
      let (snapshotBatch, s) := s.getBatch
      let aggregateReplay := snapshotBatch.bind fun batch =>
        if batch.aggregate = true ∧ batch.waiting = false ∧ first.replayBatch = some batch.number then
          some (batch.number, batch.bytes)
        else none
      let replayBudget := match aggregateReplay with
        | some batch => batch.2
        | none => TERMINAL_REPLAY_WRITE_BATCH_BYTES
      { s with inFlight := some {
          force := options.force, generation := s.outputQueueGeneration
          budgetBytes :=
            if options.maxBytes ≠ 0 then options.maxBytes
            else if first.replayOutput then replayBudget
            else TERMINAL_OUTPUT_FLUSH_BUDGET_BYTES
          entryLimit := options.maxEntries
          batchLimit := if first.replayOutput then 0 else TERMINAL_OUTPUT_FLUSH_MAX_BATCHES
          timeBudgetMs := min
            (if options.maxTimeMs ≠ 0 then options.maxTimeMs else TERMINAL_OUTPUT_FLUSH_TIME_BUDGET_MS) answers.remainingMs
          aggregateReplay := aggregateReplay
          stage := .looping } }

def flush (s : OutputState) (options : FlushOptions) (answers : FlushAnswers) : OutputState :=
  if s.disposed = true ∨ s.page.closed = true ∨ s.failed = true ∨ s.inFlight.isSome = true then s
  else
    let s := if options.force then s.interruptBatch else s
    let (batch, s) := s.getBatch
    if (batch.any fun batch => batch.waiting) = true then s
    else if options.force = false ∧ answers.blockOutput = true then s
    else if answers.noTime = true then s
    else s.drain options answers

/-- The batch handed to `writeBatch`, which begins to write it; it writes no empty data. -/
def passBatch (s : OutputState) (t : DrainTurn) (batch : PassedBatch) : OutputState :=
  let t := { t with
    consumed := t.consumed + batch.entries.length, flushedBytes := t.flushedBytes + batch.byteLength
    flushedBatches := t.flushedBatches + 1 }
  if isEmptyOutput batch.data = true then { s with inFlight := some { t with stage := .returned batch false } }
  else
    let s := { s with inFlight := some { t with stage := .awaiting batch } }
    if batch.replayOutput then
      { s with
        allowGeneratedInputDuringReplay := batch.entries.head?.any fun first => first.allowGeneratedInput
        replayOutputDepth := s.replayOutputDepth + 1 }
    else s

/-- A round of the loop, up to its `await`. -/
def round (s : OutputState) (t : DrainTurn) (answers : RoundAnswers) : OutputState :=
  match s.outputQueue with
  | [] => { s with inFlight := some { t with stage := .ended } }
  | first :: _ =>
    if (t.force = false ∧ answers.blockOutput = true) ∨ t.stopsBefore first answers.elapsedMs = true then
      { s with inFlight := some { t with stage := .ended } }
    else
      let batch := t.collect first answers.entryElapsedMs { historyEndCursor := first.historyEndCursor } s.outputQueue
      s.passBatch t {
        entries := batch.entries
        data := coalesceTerminalOutputBatch (batch.entries.map QueuedEntry.data) first.kind batch.byteLength
        byteLength := batch.byteLength, historyEndCursor := batch.historyEndCursor, replayOutput := first.replayOutput
        queueGeneration := first.queueGeneration, generation := s.outputQueueGeneration
        previousAllowGeneratedInput := s.allowGeneratedInputDuringReplay }

/-- What `writeBatch` does at last. -/
def finishWrite (s : OutputState) (batch : PassedBatch) : OutputState :=
  if batch.replayOutput = true ∧ s.outputQueueGeneration = batch.generation then
    { s with
      replayOutputDepth := s.replayOutputDepth - 1
      allowGeneratedInputDuringReplay := batch.previousAllowGeneratedInput }
  else s

/-- The terminal has parsed a batch: `writeBatch` returns. -/
def parsed (s : OutputState) (t : DrainTurn) (batch : PassedBatch) : OutputState :=
  let written := !s.page.closed && s.outputQueueGeneration = batch.generation
  { s.finishWrite batch with inFlight := some { t with stage := .returned batch written } }

/-- The batch that `drain` takes from the queue when it goes on. -/
def confirming (s : OutputState) : Option PassedBatch :=
  match s.inFlight with
  | some { stage := .returned batch true, .. } =>
    if s.page.closed = true ∨ s.outputQueueGeneration ≠ batch.queueGeneration then none else some batch
  | _ => none

/-- `drain` goes on when `writeBatch` has returned. -/
def resumed (s : OutputState) (t : DrainTurn) : OutputState :=
  match s.confirming with
  | none => { s with inFlight := some { t with stage := .ended } }
  | some batch =>
    let s := { s with
      outputQueue := (batch.pending.getD s.outputQueue).drop batch.entries.length
      outputQueueSize := s.outputQueueSize - batch.byteLength
      parsedBytes := s.parsedBytes + batch.byteLength
      appliedEntries := s.appliedEntries + batch.entries.length
      appliedHistoryCursor := batch.historyEndCursor.getD s.appliedHistoryCursor
      inFlight := some { t with stage := .looping } }
    if batch.historyEndCursor.isSome = true then s.batchApplied else s

/-- Something in the turn throws. -/
def threw (s : OutputState) (t : DrainTurn) (cancelled : Bool) : OutputState :=
  let s := match t.stage with
    | .awaiting batch => s.finishWrite batch
    | _ => s
  let s := { s with inFlight := some { t with stage := .ended } }
  if s.page.closed = true ∨ s.outputQueueGeneration ≠ t.generation ∨ cancelled = true then s else { s with failed := true }

/-- The session gets another array; a batch under way still has the one it was taken from. -/
def detach (s : OutputState) : Option DrainTurn :=
  s.inFlight.map fun t =>
    match t.stage with
    | .awaiting batch => { t with stage := .awaiting { batch with pending := some (batch.pending.getD s.outputQueue) } }
    | .returned batch written =>
      { t with stage := .returned { batch with pending := some (batch.pending.getD s.outputQueue) } written }
    | _ => t

def discard (s : OutputState) : OutputState :=
  { s with
    inFlight := s.detach, failed := false, parsedBytes := 0, appliedEntries := 0, replayBatch := none
    outputOverloadPending := false, replayOutputDepth := 0, outputQueueGeneration := s.outputQueueGeneration + 1
    outputQueue := [], outputQueueSize := 0 }

def disposeSession (s : OutputState) : OutputState :=
  if s.disposedSession = true then s else { s.discard with disposedSession := true }

def dispose (s : OutputState) : OutputState :=
  if s.disposed = true then s
  else if s.disposedSession = true then { s with disposed := true }
  else { s.discard with disposed := true, disposedSession := true }

end OutputState

/-! ## All interleavings -/

/-- What the page and its session do, and when a batch is parsed. -/
inductive OutputEvent
  | write (data : Option OutputData) (options : OutputOptions) (resizing : Bool)
  | flush (options : FlushOptions) (answers : FlushAnswers)
  | round (answers : RoundAnswers)
  | parsed
  | resumed
  | threw (cancelled : Bool)
  | settled
  | discard
  | disposeSession
  | dispose
  | beginReplayBatch (bytes : Nat) (snapshot : Bool) (start stop : Option Int)
  | completeReplayBatch
  | clearOverload
  | changed (page : OutputPage) (receivedHistoryCursor : Int) (allowGeneratedInputDuringReplay : Bool)

namespace OutputState

def next (s : OutputState) : OutputEvent → Option OutputState
  | .write data options resizing => some (s.write data options resizing).2
  | .flush options answers => some (s.flush options answers)
  | .round answers =>
    match s.inFlight with
    | some t => if t.stage = .looping then some (s.round t answers) else none
    | none => none
  | .parsed =>
    match s.inFlight with
    | some t =>
      match t.stage with
      | .awaiting batch => some (s.parsed t batch)
      | _ => none
    | none => none
  | .resumed =>
    match s.inFlight with
    | some t =>
      match t.stage with
      | .returned _ _ => some (s.resumed t)
      | _ => none
    | none => none
  | .threw cancelled =>
    match s.inFlight with
    | some t => if t.stage = .ended then none else some (s.threw t cancelled)
    | none => none
  | .settled =>
    match s.inFlight with
    | some t => if t.stage = .ended then some { s with inFlight := none } else none
    | none => none
  | .discard => some s.discard
  | .disposeSession => some s.disposeSession
  | .dispose => some s.dispose
  | .beginReplayBatch bytes snapshot start stop => some (s.beginReplayBatch bytes snapshot start stop)
  | .completeReplayBatch => some s.completeReplayBatch
  | .clearOverload => some { s with outputOverloadPending := false }
  | .changed page receivedHistoryCursor allowGeneratedInputDuringReplay =>
    some { s with
      page := page, receivedHistoryCursor := receivedHistoryCursor
      allowGeneratedInputDuringReplay := allowGeneratedInputDuringReplay }

end OutputState

def outputMachine : Machine OutputState OutputEvent where
  step s e := s.next e

end Webshell
