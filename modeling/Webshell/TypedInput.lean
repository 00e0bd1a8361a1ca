import Webshell.Machine
import Webshell.Utf16
import Mathlib.Algebra.GroupWithZero.Nat

/-!
# Typed input

What is typed goes out at once where it can. Else it waits, small input in a
buffer, large input in a queue of chunks, and all of it in front of a closed gate.
Two timers take it up again.
-/

namespace Webshell

open Utf16

def inputChunkChars : Nat := 16 * 1024

def interactiveImmediateMaxBytes : Nat := 256

def pumpChunkBudget : Nat := 4

def backpressureBytes : Nat := 512 * 1024

def maxBufferedBytes : Nat := 64 * 1024

def maxPendingBytes : Nat := 8 * 1024 * 1024

def maxParkedPendingBytes : Nat := 256 * 1024

def maxQueuedBytes : Nat := 16 * 1024 * 1024

/-! ## Chunks -/

/-- Where the first chunk of a value ends: not between the units of a pair, if it can. -/
def chunkEnd (size : Nat) (value : Units) : Nat :=
  let stop := min value.length size
  let stop := if stop < value.length && value[stop - 1]?.any isHigh then stop - 1 else stop
  if stop = 0 then min value.length 1 else stop

/-- The loop, on what is left of the value; no more chunks are left than `fuel`. -/
def splitFrom (size : Nat) : Nat → Units → List Units
  | 0, _ => []
  | fuel + 1, value =>
    if value = [] then []
    else value.take (chunkEnd size value) :: splitFrom size fuel (value.drop (chunkEnd size value))

def splitTerminalInputChunks (data : Units) (chunkChars : Nat) : List Units :=
  splitFrom (max 1 chunkChars) data.length data

structure InputItem where
  data : Units
  generated : Bool
  byteLength : Nat
  deriving DecidableEq

structure QueueItems where
  items : List InputItem := []
  byteLength : Nat := 0
  exceeded : Bool := false

/-- The loop over the chunks; no `maxBytes` is `Infinity`. -/
def buildItems (generated : Bool) (maxBytes : Option Nat) : List Units → QueueItems → QueueItems
  | [], built => built
  | chunk :: rest, built =>
    let byteLength := built.byteLength + utf8Length chunk
    if maxBytes.any (· < byteLength) then { items := [], byteLength, exceeded := true }
    else buildItems generated maxBytes rest
      { built with items := built.items ++ [⟨chunk, generated, utf8Length chunk⟩], byteLength }

def buildTerminalInputQueueItems (data : Units) (generated : Bool) (maxBytes : Option Nat) : QueueItems :=
  buildItems generated maxBytes (splitTerminalInputChunks data inputChunkChars) {}

/-! ## Sessions -/

inductive InputChannel
  | fast
  | unified
  | other
  deriving DecidableEq

/-- The connection's fields of a session, as the other parts of the page leave them. -/
structure InputConnection where
  channel : InputChannel
  channelGeneration : Nat
  /-- `getCurrentLease(session)?.leaseID`. -/
  currentLeaseID : Option Nat
  leaseID : Nat
  leaseClosing : Bool

/-- `Number(lease?.leaseID || session.connectionLeaseID || 0)`. -/
def InputConnection.lease (c : InputConnection) : Nat :=
  match c.currentLeaseID with
  | some id => if id = 0 then c.leaseID else id
  | none => c.leaseID

/-- What the callbacks answer, each question at its own moment. -/
structure InputEnv where
  ready : Nat → Bool
  /-- `checkConnectionHealth`. -/
  healthy : Nat → Bool
  bufferedAmount : Nat → Nat
  /-- Whether `sendPayload` sends: it neither returns false nor throws. -/
  transmits : Nat → Bool
  /-- `isConnectionParked`. -/
  parked : Nat → Bool
  socketOpen : Nat → Bool
  /-- A replay is being put out, or the time in which generated responses are held back has not passed. -/
  suppressing : Nat → Bool
  connection : Nat → InputConnection
  /-- A text looks like a generated response, or the tail of one. -/
  generated : Units → Bool

/-- What an `input` message carries of what was typed. -/
structure InputMessage where
  data : Units
  generated : Bool
  deriving DecidableEq

/-- The fields of an open session, and what it has sent. -/
structure InputSession where
  inputBuffer : Units := []
  inputBufferSize : Nat := 0
  inputQueue : List InputItem := []
  inputQueueSize : Nat := 0
  inputPumpActive : Bool := false
  pendingInput : List Units := []
  pendingInputSize : Nat := 0
  /-- Whether a timer is armed. -/
  inputFlushTimer : Bool := false
  inputPumpTimer : Bool := false
  /-- The token of the callback. -/
  pendingInputExpiryTimer : Option Nat := none
  pendingInputExpiryToken : Nat := 0
  pendingInputExpiryLeaseID : Nat := 0
  pendingInputExpiryGeneration : Nat := 0
  pendingInputExpiryPaused : Bool := false
  sent : List InputMessage := []
  /-- A size has been held at 0 by `Math.max`. -/
  clamped : Bool := false
  /-- The questions asked so far. -/
  asked : Nat := 0
  deriving DecidableEq

namespace InputSession

def ask (s : InputSession) : InputSession := { s with asked := s.asked + 1 }

variable (env : InputEnv)

/-- `isReady(session) && checkConnectionHealth(session, ..)`. -/
def gate (s : InputSession) : InputSession × Bool :=
  if env.ready s.asked then (s.ask.ask, env.healthy s.ask.asked) else (s.ask, false)

def shouldSuppressGenerated (s : InputSession) (data : Units) : InputSession × Bool :=
  (s.ask, env.suppressing s.asked && env.generated data)

/-- `sendPayload`, for a message with what was typed. -/
def transmit (s : InputSession) (message : InputMessage) : InputSession × Bool :=
  if env.transmits s.asked then ({ s.ask with sent := s.sent ++ [message] }, true) else (s.ask, false)

def sendInputChunk (s : InputSession) (data : Units) (generated : Bool) : InputSession × Bool :=
  if data = [] then (s, false)
  else if env.ready s.asked then s.ask.transmit env ⟨data, generated⟩
  else (s.ask, false)

/-! ## Timers -/

/-- The active pump schedules its next turn itself, when it is done. -/
def scheduleQueuedInputPump (s : InputSession) : InputSession :=
  if s.inputBuffer = [] ∧ s.inputQueue = [] ∧ s.pendingInput = [] then { s with inputPumpTimer := false }
  else if s.inputPumpActive then s
  else { s with inputPumpTimer := true }

def scheduleInputFlush (s : InputSession) : InputSession := { s with inputFlushTimer := true }

def clearPendingInputExpiry (s : InputSession) : InputSession :=
  { s with
    pendingInputExpiryTimer := none
    pendingInputExpiryToken := s.pendingInputExpiryToken + 1
    pendingInputExpiryLeaseID := 0
    pendingInputExpiryGeneration := 0
    pendingInputExpiryPaused := false }

def schedulePendingInputExpiry (s : InputSession) : InputSession :=
  if s.pendingInputExpiryTimer.isSome ∨ s.pendingInputSize = 0 ∨ s.pendingInputExpiryPaused then s
  else
    let c := env.connection s.asked
    let unifiedGeneration := if c.channel = .unified then c.channelGeneration else 0
    let leaseID := if unifiedGeneration = 0 then c.lease else unifiedGeneration
    if leaseID = 0 ∨ c.leaseClosing ∨ c.channel = .other then { s.ask with pendingInputExpiryPaused := true }
    else
      { s.ask with
        pendingInputExpiryToken := s.pendingInputExpiryToken + 1
        pendingInputExpiryLeaseID := leaseID
        pendingInputExpiryGeneration := c.channelGeneration
        pendingInputExpiryTimer := some (s.pendingInputExpiryToken + 1) }

/-! ## Sending -/

def flushInputBuffer (s : InputSession) : InputSession :=
  let s := { s with inputFlushTimer := false }
  if s.inputBuffer = [] then s.scheduleQueuedInputPump
  else
    match s.gate env with
    | (s, false) => s.scheduleQueuedInputPump
    | (s, true) =>
      let data := s.inputBuffer
      match { s with inputBuffer := [], inputBufferSize := 0 }.sendInputChunk env data false with
      | (s, true) => s
      | (s, false) =>
        { s.ask with
          inputBuffer := data ++ s.inputBuffer
          inputBufferSize := s.inputBufferSize + utf8Length data }.scheduleQueuedInputPump

def enqueueSessionInput (s : InputSession) (data : Units) (generated front : Bool) : InputSession × Bool :=
  if data = [] then (s, false)
  else
    let built := buildTerminalInputQueueItems data generated
      (if generated then none else some (maxQueuedBytes - s.inputQueueSize))
    if built.exceeded then (s, false)
    else if built.items = [] then (s, true)
    else
      ({ s with
          inputQueue := if front then built.items ++ s.inputQueue else s.inputQueue ++ built.items
          inputQueueSize := s.inputQueueSize + built.byteLength }.scheduleQueuedInputPump, true)

def send (s : InputSession) (data : Units) (immediate generated : Bool) : InputSession × Bool :=
  if data = [] then (s, false)
  else
    match s.gate env with
    | (s, false) => (s, false)
    | (s, true) =>
      match (if generated then (s, false) else s.shouldSuppressGenerated env data) with
      | (s, true) => (s, false)
      | (s, false) =>
        if generated then s.sendInputChunk env data true
        else if inputChunkChars < data.length ∨ s.inputQueue ≠ [] then s.enqueueSessionInput data false false
        else
          let byteLength := utf8Length data
          let s := if maxBufferedBytes < s.inputBufferSize + byteLength then s.flushInputBuffer env else s
          if maxBufferedBytes < byteLength then s.enqueueSessionInput data false false
          else
            let s := { s with inputBuffer := s.inputBuffer ++ data, inputBufferSize := s.inputBufferSize + byteLength }
            if immediate ∨ byteLength ≤ interactiveImmediateMaxBytes ∨ 4096 ≤ s.inputBufferSize then
              (s.flushInputBuffer env, true)
            else (s.scheduleInputFlush, true)

/-- The loop over the entries that are pending. -/
def flushEach (s : InputSession) : List Units → InputSession × Bool
  | [] => ((s.clearPendingInputExpiry.flushInputBuffer env).scheduleQueuedInputPump, true)
  | data :: rest =>
    match s.send env data false false with
    | (s, false) => (s.scheduleQueuedInputPump, false)
    | (s, true) =>
      { s with
        pendingInput := s.pendingInput.tail
        pendingInputSize := s.pendingInputSize - utf8Length data
        clamped := s.clamped || s.pendingInputSize < utf8Length data }.flushEach rest

def flushPending (s : InputSession) : InputSession × Bool :=
  match s.gate env with
  | (s, false) => (s.scheduleQueuedInputPump, false)
  | (s, true) => s.flushEach env s.pendingInput

/-- The loop over the queue. -/
def pumpEach (s : InputSession) (sent : Nat) : List InputItem → InputSession
  | [] => s
  | item :: rest =>
    match s.gate env with
    | (s, false) => s
    | (s, true) =>
      if backpressureBytes < env.bufferedAmount s.asked then s.ask
      else
        match { s.ask with
          inputQueue := s.inputQueue.tail
          inputQueueSize := s.inputQueueSize - item.byteLength
          clamped := s.clamped || s.inputQueueSize < item.byteLength }.sendInputChunk env item.data item.generated with
        | (s, false) => { s with inputQueue := item :: s.inputQueue, inputQueueSize := s.inputQueueSize + item.byteLength }
        | (s, true) => if pumpChunkBudget ≤ sent + 1 then s else s.pumpEach (sent + 1) rest

/-- What an active pump does. -/
def pumpTurn (s : InputSession) : InputSession :=
  let s := if s.pendingInput = [] then s else (s.flushPending env).1
  let s := if s.inputBuffer = [] then s else s.flushInputBuffer env
  if s.inputBuffer = [] then s.pumpEach env 0 s.inputQueue else s

def pumpQueuedInput (s : InputSession) : InputSession :=
  if s.inputPumpActive then s
  else
    let s := { s with inputPumpTimer := false, inputPumpActive := true }.pumpTurn env
    { s with inputPumpActive := false }.scheduleQueuedInputPump

/-- `parked` chooses the limit. -/
def enqueuePending (s : InputSession) (data : Units) (parked : Bool) : InputSession × Bool :=
  if data = [] then (s, false)
  else
    let pendingLimit := if parked then min maxPendingBytes maxParkedPendingBytes else maxPendingBytes
    let built := buildTerminalInputQueueItems data false (some (pendingLimit - s.pendingInputSize))
    if built.exceeded ∨ pendingLimit < s.pendingInputSize + built.byteLength then (s, false)
    else
      (({ s with
          pendingInput := s.pendingInput ++ [data]
          pendingInputSize := s.pendingInputSize + built.byteLength }.schedulePendingInputExpiry env).scheduleQueuedInputPump, true)

/-- What becomes of input. -/
inductive SendResult
  | refused
  | queued
  | sent
  deriving DecidableEq

/-- What the caller is told. -/
def SendResult.returned (acceptQueued : Bool) : SendResult → Bool
  | .refused => false
  | .queued => acceptQueued
  | .sent => true

/-- What is pending goes first. -/
def sendBehindPending (s : InputSession) (data : Units) : InputSession × Bool :=
  let s := if s.pendingInput = [] then s else (s.flushPending env).1
  if s.pendingInput = [] then s.send env data (data.any fun u => [0x0a, 0x0d, 0x03, 0x04].contains u) false
  else (s, false)

def sendOrQueue (s : InputSession) (data : Units) (userInput : Bool) : InputSession × SendResult :=
  match s.shouldSuppressGenerated env data with
  | (s, true) => (s, .refused)
  | (s, false) =>
    if !userInput && data ≠ [] && (env.connection s.asked).channel = .unified && env.socketOpen s.asked then
      -- A failure recycles the session; the caller is told that the response is sent.
      ((s.ask.transmit env ⟨data, true⟩).1, .sent)
    else
      let connectionWasParked := env.parked s.asked
      let (s, tried) := match s.ask.gate env with
        | (s, false) => (s, false)
        | (s, true) => s.sendBehindPending env data
      if tried then (s, .sent)
      else
        let (s, queued) := s.enqueuePending env data connectionWasParked
        (s.ask, if queued then .queued else .refused)

def leaseStillCurrent (s : InputSession) (c : InputConnection) : Bool :=
  (if c.channel = .unified then c.channelGeneration else c.lease) = s.pendingInputExpiryLeaseID &&
    c.channelGeneration = s.pendingInputExpiryGeneration && !c.leaseClosing &&
    (c.channel = .unified || c.channel = .fast && c.leaseID = s.pendingInputExpiryLeaseID)

/-- The callback of the timer that is set while input is pending. -/
def pendingInputExpired (s : InputSession) (expiryToken : Nat) : InputSession :=
  let s := { s with pendingInputExpiryTimer := none }
  if s.pendingInputExpiryToken ≠ expiryToken ∨ s.pendingInputSize = 0 then s
  else if !s.leaseStillCurrent (env.connection s.asked) then
    { s.ask with pendingInputExpiryLeaseID := 0, pendingInputExpiryGeneration := 0, pendingInputExpiryPaused := true }
  else if env.ready s.ask.asked then (s.ask.ask.flushPending env).1
  else
    { s.ask.ask.ask with
      pendingInputExpiryLeaseID := 0
      pendingInputExpiryGeneration := 0
      -- `resumePendingExpiry`.
      pendingInputExpiryPaused := false }.schedulePendingInputExpiry env

def pausePendingExpiry (s : InputSession) : InputSession :=
  if s.pendingInputSize = 0 then s
  else
    { s with
      pendingInputExpiryTimer := none
      pendingInputExpiryToken := s.pendingInputExpiryToken + 1
      pendingInputExpiryLeaseID := 0
      pendingInputExpiryGeneration := 0
      pendingInputExpiryPaused := true }

def resumePendingExpiry (s : InputSession) : InputSession :=
  if s.pendingInputSize = 0 then s else { s with pendingInputExpiryPaused := false }.schedulePendingInputExpiry env

end InputSession

/-! ## Runs -/

/-- What a user types. -/
structure TypedText where
  data : Units
  wellFormed : isWellFormed data = true

inductive InputEvent
  | sendOrQueue (text : TypedText)
  | pump
  | flushPending
  | pausePendingExpiry
  | resumePendingExpiry
  | pumpTimer
  | flushTimer
  | expiryTimer

/-- An open session, and what it has not refused, in order. -/
structure InputRun where
  session : InputSession := {}
  accepted : List Units := []

def inputStep (env : InputEnv) (r : InputRun) : InputEvent → Option InputRun
  | .sendOrQueue text =>
    let (session, result) := r.session.sendOrQueue env text.data true
    some { session, accepted := if result = .refused then r.accepted else r.accepted ++ [text.data] }
  | .pump => some { r with session := r.session.pumpQueuedInput env }
  | .flushPending => some { r with session := (r.session.flushPending env).1 }
  | .pausePendingExpiry => some { r with session := r.session.pausePendingExpiry }
  | .resumePendingExpiry => some { r with session := r.session.resumePendingExpiry env }
  | .pumpTimer =>
    if r.session.inputPumpTimer then some { r with session := { r.session with inputPumpTimer := false }.pumpQueuedInput env }
    else none
  | .flushTimer =>
    if r.session.inputFlushTimer then some { r with session := { r.session with inputFlushTimer := false }.flushInputBuffer env }
    else none
  | .expiryTimer =>
    match r.session.pendingInputExpiryTimer with
    | some token => some { r with session := r.session.pendingInputExpired env token }
    | none => none

def inputMachine (env : InputEnv) : Machine InputRun InputEvent := ⟨inputStep env⟩

/-! ## Chunks are whole -/

theorem chunkEnd_pos {size : Nat} {value : Units} (hs : 2 ≤ size) (hv : value ≠ []) :
    0 < chunkEnd size value ∧ chunkEnd size value ≤ value.length := by
  have hpos := List.length_pos_of_ne_nil hv
  unfold chunkEnd
  simp only [Bool.and_eq_true, decide_eq_true_eq]
  repeat' split
  all_goals omega

/-- A chunk does not end between the units of a pair. -/
theorem chunkEnd_cut {size : Nat} {value : Units} (hs : 2 ≤ size) (hv : value ≠ []) (hw : isWellFormed value = true) :
    ∀ u ∈ value[chunkEnd size value]?, isLow u = false := by
  have hpos := List.length_pos_of_ne_nil hv
  unfold chunkEnd
  dsimp only
  by_cases hcut : (min value.length size < value.length && value[min value.length size - 1]?.any isHigh) = true
  · rw [if_pos hcut]
    simp only [Bool.and_eq_true, decide_eq_true_eq] at hcut
    obtain ⟨hlt, hany⟩ := hcut
    rw [if_neg (by omega)]
    intro u hu
    rw [Option.mem_def.mp hu] at hany
    exact high_not_low hany
  · rw [if_neg hcut, if_neg (by omega)]
    intro u hu
    have hlt := (List.getElem?_eq_some_iff.mp hu).1
    have hlast : value[min value.length size - 1]? = some value[min value.length size - 1] := List.getElem?_eq_getElem _
    rw [hlast] at hcut
    simp only [hlt, decide_true, Bool.true_and, Option.any_some, Bool.not_eq_true] at hcut
    refine next_not_low hw hlast hcut u ?_
    rw [Nat.sub_add_cancel (by omega)]
    exact hu

theorem splitFrom_spec {size : Nat} (hs : 2 ≤ size) : ∀ {fuel : Nat} {value : Units}, value.length ≤ fuel →
    isWellFormed value = true → (splitFrom size fuel value).flatten = value ∧ ∀ chunk ∈ splitFrom size fuel value,
      isWellFormed chunk = true
  | 0, value, hl, _ => by
    rw [List.eq_nil_of_length_eq_zero (Nat.le_zero.mp hl)]
    exact ⟨rfl, fun _ h => by cases h⟩
  | fuel + 1, value, hl, hw => by
    rw [splitFrom]
    split
    · rename_i hv
      rw [hv]
      exact ⟨rfl, fun _ h => by cases h⟩
    · rename_i hv
      have hend := chunkEnd_pos hs hv
      obtain ⟨htake, hdrop⟩ := cut_wellFormed hw (chunkEnd_cut hs hv hw)
      have hrest : (value.drop (chunkEnd size value)).length ≤ fuel := by
        rw [List.length_drop]
        omega
      obtain ⟨hflat, hwhole⟩ := splitFrom_spec hs hrest hdrop
      rw [List.flatten_cons, hflat, List.take_append_drop]
      exact ⟨rfl, List.forall_mem_cons.mpr ⟨htake, hwhole⟩⟩

theorem buildItems_spec (generated : Bool) (maxBytes : Option Nat) : ∀ (chunks : List Units) (built : QueueItems),
    (buildItems generated maxBytes chunks built).exceeded = false →
    (buildItems generated maxBytes chunks built).items =
        built.items ++ chunks.map (fun chunk => ⟨chunk, generated, utf8Length chunk⟩) ∧
      (buildItems generated maxBytes chunks built).byteLength = built.byteLength + (chunks.map utf8Length).sum
  | [], built, _ => by simp [buildItems]
  | chunk :: rest, built, h => by
    rw [buildItems] at h ⊢
    split at h
    · cases h
    · rename_i hmax
      rw [if_neg hmax]
      obtain ⟨hi, hb⟩ := buildItems_spec generated maxBytes rest _ h
      rw [hi, hb]
      simp [Nat.add_assoc]

/-- An item is whole and knows its length. -/
def InputItem.Ok (item : InputItem) : Prop := isWellFormed item.data = true ∧ item.byteLength = utf8Length item.data

/-- The items of a value hold the value. -/
theorem build_spec {data : Units} (hw : isWellFormed data = true) {generated : Bool} {maxBytes : Option Nat}
    (h : (buildTerminalInputQueueItems data generated maxBytes).exceeded = false) :
    ((buildTerminalInputQueueItems data generated maxBytes).items.map InputItem.data).flatten = data ∧
      (∀ item ∈ (buildTerminalInputQueueItems data generated maxBytes).items, item.Ok) ∧
      ((buildTerminalInputQueueItems data generated maxBytes).items.map InputItem.byteLength).sum = utf8Length data ∧
      (buildTerminalInputQueueItems data generated maxBytes).byteLength = utf8Length data := by
  unfold buildTerminalInputQueueItems at h ⊢
  obtain ⟨hi, hb⟩ := buildItems_spec generated maxBytes _ _ h
  rw [hi, hb]
  obtain ⟨hflat, hwhole⟩ := splitFrom_spec (show 2 ≤ max 1 inputChunkChars by decide) (Nat.le_refl _) hw
  have hlen := (flatten_wellFormed hwhole).2
  unfold splitTerminalInputChunks
  rw [hflat] at hlen
  have hdata : (splitFrom (max 1 inputChunkChars) data.length data).map
      (InputItem.data ∘ fun chunk => ⟨chunk, generated, utf8Length chunk⟩) = splitFrom (max 1 inputChunkChars) data.length data :=
    List.map_id _
  have hbytes : (splitFrom (max 1 inputChunkChars) data.length data).map
      (InputItem.byteLength ∘ fun chunk => ⟨chunk, generated, utf8Length chunk⟩) =
        (splitFrom (max 1 inputChunkChars) data.length data).map utf8Length := rfl
  rw [List.nil_append, List.map_map, List.map_map, hdata, hbytes, hflat, ← hlen, Nat.zero_add]
  refine ⟨rfl, fun item hm => ?_, rfl, rfl⟩
  obtain ⟨chunk, hc, rfl⟩ := List.mem_map.mp hm
  exact ⟨hwhole chunk hc, rfl⟩

/-! ## Nothing is lost -/

namespace InputSession

/-- What has gone out or waits behind an open gate, in order. -/
def passed (s : InputSession) : Units :=
  (s.sent.map InputMessage.data).flatten ++ s.inputBuffer ++ (s.inputQueue.map InputItem.data).flatten

/-- The fields that hold input. -/
def held (s : InputSession) :=
  (s.inputBuffer, s.inputBufferSize, s.inputQueue, s.inputQueueSize, s.pendingInput, s.pendingInputSize, s.sent, s.clamped)

/-- What is held is whole, and its size is known. -/
structure Stored (s : InputSession) : Prop where
  buffer : isWellFormed s.inputBuffer = true
  bufferSize : s.inputBufferSize = utf8Length s.inputBuffer
  items : ∀ item ∈ s.inputQueue, item.Ok
  queueSize : s.inputQueueSize = (s.inputQueue.map InputItem.byteLength).sum
  pending : ∀ data ∈ s.pendingInput, isWellFormed data = true
  pendingSize : s.pendingInputSize = (s.pendingInput.map utf8Length).sum
  sent : ∀ message ∈ s.sent, isWellFormed message.data = true
  unclamped : s.clamped = false

/-- The queue and what is pending will be looked at. -/
def QueueWatched (s : InputSession) : Prop :=
  s.inputQueue ≠ [] ∨ s.pendingInput ≠ [] → s.inputPumpActive = true ∨ s.inputPumpTimer = true

structure Watched (s : InputSession) : Prop where
  queue : s.QueueWatched
  buffer : s.inputBuffer ≠ [] → s.inputPumpActive = true ∨ s.inputPumpTimer = true ∨ s.inputFlushTimer = true

theorem Stored.frame {s s' : InputSession} (h : Stored s) (hh : s'.held = s.held) : Stored s' := by
  unfold held at hh
  simp only [Prod.mk.injEq] at hh
  obtain ⟨h1, h2, h3, h4, h5, h6, h7, h8⟩ := hh
  constructor
  · rw [h1]; exact h.buffer
  · rw [h1, h2]; exact h.bufferSize
  · rw [h3]; exact h.items
  · rw [h3, h4]; exact h.queueSize
  · rw [h5]; exact h.pending
  · rw [h5, h6]; exact h.pendingSize
  · rw [h7]; exact h.sent
  · rw [h8]; exact h.unclamped

/-- A call has passed on `added`; what is pending it has left alone. -/
structure Passes (s s' : InputSession) (added : Units) : Prop where
  stored : Stored s'
  watched : Watched s'
  pending : s'.pendingInput = s.pendingInput
  active : s'.inputPumpActive = s.inputPumpActive
  passed : s'.passed = s.passed ++ added

section
variable {s : InputSession} {data : Units}

/-- Whatever the gate answers, only the count of questions changes. -/
theorem gate_cases (env : InputEnv) (s : InputSession) : ∃ n ok, s.gate env = ({ s with asked := n }, ok) := by
  unfold gate
  split
  · exact ⟨_, _, rfl⟩
  · exact ⟨_, _, rfl⟩

theorem sendInputChunk_cases (env : InputEnv) (s : InputSession) (data : Units) (generated : Bool) :
    (∃ n, s.sendInputChunk env data generated = ({ s with asked := n }, false)) ∨
      ∃ n, s.sendInputChunk env data generated = ({ s with asked := n, sent := s.sent ++ [⟨data, generated⟩] }, true) := by
  unfold sendInputChunk transmit
  split
  · exact .inl ⟨s.asked, rfl⟩
  · split
    · split
      · exact .inr ⟨_, rfl⟩
      · exact .inl ⟨_, rfl⟩
    · exact .inl ⟨_, rfl⟩

/-- After it, all that waits is watched. -/
theorem schedule_watched (s : InputSession) : Watched s.scheduleQueuedInputPump := by
  unfold scheduleQueuedInputPump
  split
  · rename_i hnone
    refine ⟨fun h => ?_, fun h => absurd hnone.1 h⟩
    rcases h with h | h
    · exact absurd hnone.2.1 h
    · exact absurd hnone.2.2 h
  · split
    · rename_i hactive
      exact ⟨fun _ => .inl hactive, fun _ => .inl hactive⟩
    · exact ⟨fun _ => .inr rfl, fun _ => .inr (.inl rfl)⟩

theorem schedule_held (s : InputSession) : s.scheduleQueuedInputPump.held = s.held ∧
    s.scheduleQueuedInputPump.inputPumpActive = s.inputPumpActive ∧ s.scheduleQueuedInputPump.passed = s.passed ∧
    s.scheduleQueuedInputPump.pendingInput = s.pendingInput ∧ s.scheduleQueuedInputPump.inputQueue = s.inputQueue := by
  unfold scheduleQueuedInputPump
  split
  · exact ⟨rfl, rfl, rfl, rfl, rfl⟩
  · split <;> exact ⟨rfl, rfl, rfl, rfl, rfl⟩

/-- To schedule the pump is enough, once the fields are right. -/
theorem Passes.schedule {s' : InputSession} {added : Units} (hs : Stored s') (hp : s'.pendingInput = s.pendingInput)
    (ha : s'.inputPumpActive = s.inputPumpActive) (hb : s'.passed = s.passed ++ added) :
    Passes s s'.scheduleQueuedInputPump added := by
  obtain ⟨hheld, hactive, hpassed, hpending, -⟩ := schedule_held s'
  exact ⟨hs.frame hheld, schedule_watched s', hpending.trans hp, hactive.trans ha, hpassed.trans hb⟩

theorem flushInputBuffer_passes (env : InputEnv) (hs : Stored s) (hq : QueueWatched s) :
    Passes s (s.flushInputBuffer env) [] ∧ (s.flushInputBuffer env).inputQueue = s.inputQueue := by
  unfold flushInputBuffer
  dsimp only
  have hkept (s' : InputSession) (hh : s'.held = s.held) (ha : s'.inputPumpActive = s.inputPumpActive)
      (hb : s'.passed = s.passed) : Passes s s'.scheduleQueuedInputPump [] ∧
        s'.scheduleQueuedInputPump.inputQueue = s.inputQueue := by
    simp only [held, Prod.mk.injEq] at hh
    refine ⟨Passes.schedule (hs.frame (by simp only [held, Prod.mk.injEq]; exact hh)) hh.2.2.2.2.1 ha ?_, ?_⟩
    · rw [hb, List.append_nil]
    · rw [(schedule_held s').2.2.2.2, hh.2.2.1]
  split
  · exact hkept _ rfl rfl rfl
  · obtain ⟨n, ok, hgate⟩ := gate_cases env { s with inputFlushTimer := false }
    rw [hgate]
    cases ok with
    | false => exact hkept _ rfl rfl rfl
    | true =>
      dsimp only
      rcases sendInputChunk_cases env
        { s with inputFlushTimer := false, asked := n, inputBuffer := [], inputBufferSize := 0 } s.inputBuffer false with
        ⟨m, hchunk⟩ | ⟨m, hchunk⟩
      · rw [hchunk]
        refine hkept _ ?_ rfl ?_
        · simp [held, ask, hs.bufferSize]
        · simp [passed, ask]
      · rw [hchunk]
        refine ⟨⟨⟨rfl, rfl, hs.items, hs.queueSize, hs.pending, hs.pendingSize, ?_, hs.unclamped⟩,
          ⟨hq, fun hb => absurd rfl hb⟩, rfl, rfl, ?_⟩, rfl⟩
        · intro message hm
          rcases List.mem_append.mp hm with hm | hm
          · exact hs.sent message hm
          · rw [List.mem_singleton.mp hm]
            exact hs.buffer
        · simp [passed]

theorem enqueueSessionInput_passes (hs : Stored s) (hw : Watched s) (hd : isWellFormed data = true) :
    Passes s (s.enqueueSessionInput data false false).1 (if (s.enqueueSessionInput data false false).2 then data else []) := by
  have hsame : Passes s s [] := ⟨hs, hw, rfl, rfl, (List.append_nil _).symm⟩
  unfold enqueueSessionInput
  simp only [Bool.false_eq_true, if_false]
  split
  · exact hsame
  · split
    · exact hsame
    · rename_i hexceeded
      obtain ⟨hflat, hok, hsum, hbytes⟩ := build_spec hd (by simpa using hexceeded)
      split
      · rename_i hnone
        rw [hnone] at hflat
        rw [if_pos rfl, ← hflat]
        exact hsame
      · rw [if_pos rfl]
        refine Passes.schedule ⟨hs.buffer, hs.bufferSize, ?_, ?_, hs.pending, hs.pendingSize, hs.sent, hs.unclamped⟩ rfl rfl ?_
        · intro item hm
          rcases List.mem_append.mp hm with hm | hm
          · exact hs.items item hm
          · exact hok item hm
        · show s.inputQueueSize + _ = _
          rw [List.map_append, List.sum_append, hsum, hbytes, hs.queueSize]
        · unfold passed
          rw [List.map_append, List.flatten_append, hflat, ← List.append_assoc]

theorem Passes.trans {s' s'' : InputSession} {added more : Units} (h : Passes s s' added) (h' : Passes s' s'' more) :
    Passes s s'' (added ++ more) :=
  ⟨h'.stored, h'.watched, h'.pending.trans h.pending, h'.active.trans h.active, by
    rw [h'.passed, h.passed, List.append_assoc]⟩

theorem Passes.refl (hs : Stored s) (hw : Watched s) : Passes s s [] := ⟨hs, hw, rfl, rfl, (List.append_nil _).symm⟩

theorem send_passes (env : InputEnv) (hs : Stored s) (hw : Watched s) (hd : isWellFormed data = true) (immediate : Bool) :
    Passes s (s.send env data immediate false).1 (if (s.send env data immediate false).2 then data else []) := by
  unfold send
  split
  · exact .refl hs hw
  · obtain ⟨n, ok, hgate⟩ := gate_cases env s
    rw [hgate]
    have hs₁ (m : Nat) : Stored { s with asked := m } := hs.frame rfl
    have hw₁ (m : Nat) : Watched { s with asked := m } := ⟨hw.queue, hw.buffer⟩
    cases ok with
    | false => exact ⟨hs₁ n, hw₁ n, rfl, rfl, (List.append_nil _).symm⟩
    | true =>
      have hstart : Passes s { s with asked := n + 1 } [] := ⟨hs₁ _, hw₁ _, rfl, rfl, (List.append_nil _).symm⟩
      simp only [Bool.false_eq_true, if_false, shouldSuppressGenerated]
      rw [show ({ s with asked := n } : InputSession).ask = { s with asked := n + 1 } from rfl]
      generalize ({ s with asked := n + 1 } : InputSession) = s₂ at hstart ⊢
      cases env.suppressing n && env.generated data with
      | true => exact hstart
      | false =>
      dsimp only
      split
      · exact hstart.trans (enqueueSessionInput_passes hstart.stored hstart.watched hd)
      · rename_i hsmall
        have hqueue : s₂.inputQueue = [] := by
          by_contra hne
          exact hsmall (.inr hne)
        have hflush : ∃ s₃, (if maxBufferedBytes < s₂.inputBufferSize + utf8Length data then s₂.flushInputBuffer env else s₂) = s₃ ∧
            Passes s s₃ [] ∧ s₃.inputQueue = [] := by
          split
          · obtain ⟨hflushed, hq⟩ := flushInputBuffer_passes env hstart.stored hstart.watched.queue
            exact ⟨_, rfl, hstart.trans hflushed, hq.trans hqueue⟩
          · exact ⟨_, rfl, hstart, hqueue⟩
        obtain ⟨s₃, heq, h₃, hq₃⟩ := hflush
        rw [heq]
        split
        · exact h₃.trans (enqueueSessionInput_passes h₃.stored h₃.watched hd)
        · obtain ⟨hwell, hbytes⟩ := append_wellFormed data h₃.stored.buffer
          have hs₄ : Stored { s₃ with
              inputBuffer := s₃.inputBuffer ++ data
              inputBufferSize := s₃.inputBufferSize + utf8Length data } := by
            refine ⟨hwell.trans hd, ?_, h₃.stored.items, h₃.stored.queueSize, h₃.stored.pending, h₃.stored.pendingSize,
              h₃.stored.sent, h₃.stored.unclamped⟩
            rw [hbytes, h₃.stored.bufferSize]
          have hpassed : ({ s₃ with
              inputBuffer := s₃.inputBuffer ++ data
              inputBufferSize := s₃.inputBufferSize + utf8Length data } : InputSession).passed = s.passed ++ data := by
            have h := h₃.passed
            unfold passed at h ⊢
            simp only [hq₃, List.map_nil, List.flatten_nil, List.append_nil] at h ⊢
            rw [← List.append_assoc, h]
          split
          · have hout := (flushInputBuffer_passes env hs₄ h₃.watched.queue).1
            refine ⟨hout.stored, hout.watched, hout.pending.trans h₃.pending, hout.active.trans h₃.active, ?_⟩
            rw [hout.passed, hpassed, List.append_nil]
            rfl
          · exact ⟨hs₄.frame rfl, ⟨h₃.watched.queue, fun _ => .inr (.inr rfl)⟩, h₃.pending, h₃.active, hpassed⟩

/-! ## What is pending -/

/-- All that has been accepted. -/
def content (s : InputSession) : Units := s.passed ++ s.pendingInput.flatten

/-- A call has taken up `added`. -/
structure Keeps (s s' : InputSession) (added : Units) : Prop where
  stored : Stored s'
  watched : Watched s'
  active : s'.inputPumpActive = s.inputPumpActive
  content : s'.content = s.content ++ added

theorem Keeps.refl (hs : Stored s) (hw : Watched s) : Keeps s s [] := ⟨hs, hw, rfl, (List.append_nil _).symm⟩

theorem Keeps.trans {s' s'' : InputSession} {added more : Units} (h : Keeps s s' added) (h' : Keeps s' s'' more) :
    Keeps s s'' (added ++ more) :=
  ⟨h'.stored, h'.watched, h'.active.trans h.active, by rw [h'.content, h.content, List.append_assoc]⟩

/-- Where fields that hold no input change, and no timer is cleared. -/
theorem Keeps.frame {s' : InputSession} (hs : Stored s) (hw : Watched s') (hh : s'.held = s.held)
    (ha : s'.inputPumpActive = s.inputPumpActive) : Keeps s s' [] := by
  refine ⟨hs.frame hh, hw, ha, ?_⟩
  simp only [held, Prod.mk.injEq] at hh
  obtain ⟨h1, -, h3, -, h5, -, h7, -⟩ := hh
  unfold InputSession.content passed
  rw [h1, h3, h5, h7, List.append_nil]

/-- Where nothing is pending, what is passed on comes last. -/
theorem Passes.keeps {s' : InputSession} {added : Units} (h : Passes s s' added)
    (hn : s.pendingInput = [] ∨ added = []) : Keeps s s' added := by
  refine ⟨h.stored, h.watched, h.active, ?_⟩
  unfold InputSession.content
  rw [h.passed, h.pending]
  rcases hn with hn | hn
  · rw [hn, List.flatten_nil, List.append_nil, List.append_nil]
  · rw [hn, List.append_nil, List.append_nil]

theorem schedule_keeps (hs : Stored s) : Keeps s s.scheduleQueuedInputPump [] :=
  .frame hs (schedule_watched s) (schedule_held s).1 (schedule_held s).2.1

theorem flushEach_keeps (env : InputEnv) : ∀ {rest : List Units} {s : InputSession}, s.pendingInput = rest → Stored s → Watched s →
    Keeps s (s.flushEach env rest).1 []
  | [], s, hp, hs, hw => by
    have hclear : Stored s.clearPendingInputExpiry := hs.frame rfl
    have hflush := (flushInputBuffer_passes env hclear hw.queue).1
    have hkeeps : Keeps s (s.clearPendingInputExpiry.flushInputBuffer env) [] := by
      have h := hflush.keeps (.inr rfl)
      exact ⟨h.stored, h.watched, h.active, h.content⟩
    exact hkeeps.trans (schedule_keeps hkeeps.stored)
  | data :: rest, s, hp, hs, hw => by
    have hd : isWellFormed data = true := hs.pending data (by rw [hp]; exact List.mem_cons_self ..)
    have hsend := send_passes env hs hw hd false
    unfold flushEach
    cases hres : s.send env data false false with
    | mk s₁ ok =>
      rw [hres] at hsend
      cases ok with
      | false =>
        have h := hsend.keeps (.inr rfl)
        exact h.trans (schedule_keeps h.stored)
      | true =>
        simp only [if_true] at hsend
        have hp₁ : s₁.pendingInput = data :: rest := hsend.pending.trans hp
        have hsize : s₁.pendingInputSize = utf8Length data + (rest.map utf8Length).sum := by
          rw [hsend.stored.pendingSize, hp₁, List.map_cons, List.sum_cons]
        have hshift : Keeps s { s₁ with
            pendingInput := s₁.pendingInput.tail
            pendingInputSize := s₁.pendingInputSize - utf8Length data
            clamped := s₁.clamped || s₁.pendingInputSize < utf8Length data } [] := by
          refine ⟨⟨hsend.stored.buffer, hsend.stored.bufferSize, hsend.stored.items, hsend.stored.queueSize, ?_, ?_,
            hsend.stored.sent, ?_⟩, ⟨?_, hsend.watched.buffer⟩, hsend.active, ?_⟩
          · exact fun d hd => hsend.stored.pending d (List.mem_of_mem_tail hd)
          · show s₁.pendingInputSize - utf8Length data = (s₁.pendingInput.tail.map utf8Length).sum
            rw [hsize, hp₁, List.tail_cons]
            omega
          · show (s₁.clamped || decide (s₁.pendingInputSize < utf8Length data)) = false
            rw [hsend.stored.unclamped, hsize]
            simp
          · exact fun _ => hsend.watched.queue (.inr (by rw [hp₁]; exact List.cons_ne_nil _ _))
          · show s₁.passed ++ s₁.pendingInput.tail.flatten = s.passed ++ s.pendingInput.flatten ++ []
            rw [hsend.passed, hp₁, hp, List.tail_cons, List.flatten_cons, List.append_nil, List.append_assoc]
        have hrest := flushEach_keeps env (show s₁.pendingInput.tail = rest by rw [hp₁, List.tail_cons]) hshift.stored hshift.watched
        exact hshift.trans hrest

theorem flushPending_keeps (env : InputEnv) (hs : Stored s) (hw : Watched s) : Keeps s (s.flushPending env).1 [] := by
  unfold flushPending
  obtain ⟨n, ok, hgate⟩ := gate_cases env s
  rw [hgate]
  have hstart : Keeps s { s with asked := n } [] := .frame hs ⟨hw.queue, hw.buffer⟩ rfl rfl
  cases ok with
  | false => exact hstart.trans (schedule_keeps hstart.stored)
  | true => exact hstart.trans (flushEach_keeps env rfl hstart.stored hstart.watched)

/-- A chunk of the queue goes out behind all that went before it, and nothing is in the buffer. -/
theorem pumpEach_keeps (env : InputEnv) : ∀ {rest : List InputItem} {s : InputSession} {sent : Nat}, s.inputQueue = rest →
    s.inputBuffer = [] → s.inputPumpActive = true → Stored s → Keeps s (s.pumpEach env sent rest) []
  | [], s, sent, _, _, ha, hs => .refl hs ⟨fun _ => .inl ha, fun _ => .inl ha⟩
  | item :: rest, s, sent, hq, hb, ha, hs => by
    have hw {s' : InputSession} (ha' : s'.inputPumpActive = true) : Watched s' := ⟨fun _ => .inl ha', fun _ => .inl ha'⟩
    unfold pumpEach
    obtain ⟨n, ok, hgate⟩ := gate_cases env s
    rw [hgate]
    cases ok with
    | false => exact .frame hs (hw ha) rfl rfl
    | true =>
      dsimp only
      split
      · exact .frame hs (hw ha) rfl rfl
      · have hsum : s.inputQueueSize = item.byteLength + (rest.map InputItem.byteLength).sum := by
          rw [hs.queueSize, hq, List.map_cons, List.sum_cons]
        have hlarge : ¬s.inputQueueSize < item.byteLength := by omega
        have hclamp : (s.clamped || decide (s.inputQueueSize < item.byteLength)) = false := by
          rw [hs.unclamped, decide_eq_false hlarge]
          rfl
        have hitem : item.Ok := hs.items item (by rw [hq]; exact List.mem_cons_self ..)
        have hsub : s.inputQueueSize - item.byteLength + item.byteLength = s.inputQueueSize := by omega
        have htail : s.inputQueue.tail = rest := by rw [hq, List.tail_cons]
        rcases sendInputChunk_cases env
          { ({ s with asked := n } : InputSession).ask with
            inputQueue := s.inputQueue.tail
            inputQueueSize := s.inputQueueSize - item.byteLength
            clamped := s.clamped || s.inputQueueSize < item.byteLength } item.data item.generated with ⟨m, hchunk⟩ | ⟨m, hchunk⟩
        · rw [hchunk]
          refine .frame hs (hw ha) ?_ rfl
          simp only [held, ask, hs.unclamped, hlarge, decide_false, Bool.or_false, hsub, hq, List.tail_cons]
        · rw [hchunk]
          dsimp only
          have hsent : Keeps s { s with
              asked := m
              inputQueue := s.inputQueue.tail
              inputQueueSize := s.inputQueueSize - item.byteLength
              clamped := s.clamped || s.inputQueueSize < item.byteLength
              sent := s.sent ++ [⟨item.data, item.generated⟩] } [] := by
            refine ⟨⟨hs.buffer, hs.bufferSize, ?_, ?_, hs.pending, hs.pendingSize, ?_, hclamp⟩, hw ha, rfl, ?_⟩
            · exact fun i hi => hs.items i (List.mem_of_mem_tail hi)
            · show s.inputQueueSize - item.byteLength = (s.inputQueue.tail.map InputItem.byteLength).sum
              rw [hsum, htail]
              omega
            · intro message hm
              rcases List.mem_append.mp hm with hm | hm
              · exact hs.sent message hm
              · rw [List.mem_singleton.mp hm]
                exact hitem.1
            · simp only [InputSession.content, passed, hq, hb, List.tail_cons, List.map_append, List.flatten_append, List.map_cons,
                List.flatten_cons, List.map_nil, List.flatten_nil, List.append_nil, List.append_assoc]
          split
          · exact hsent
          · exact hsent.trans (pumpEach_keeps env htail hb ha hsent.stored)

theorem pumpTurn_keeps (env : InputEnv) (ha : s.inputPumpActive = true) (hs : Stored s) : Keeps s (s.pumpTurn env) [] := by
  have hw : Watched s := ⟨fun _ => .inl ha, fun _ => .inl ha⟩
  unfold pumpTurn
  dsimp only
  obtain ⟨s₁, heq₁, h₁⟩ : ∃ s₁, (if s.pendingInput = [] then s else (s.flushPending env).1) = s₁ ∧ Keeps s s₁ [] := by
    split
    · exact ⟨_, rfl, .refl hs hw⟩
    · exact ⟨_, rfl, flushPending_keeps env hs hw⟩
  rw [heq₁]
  obtain ⟨s₂, heq₂, h₂⟩ : ∃ s₂, (if s₁.inputBuffer = [] then s₁ else s₁.flushInputBuffer env) = s₂ ∧ Keeps s s₂ [] := by
    split
    · exact ⟨_, rfl, h₁⟩
    · exact ⟨_, rfl, h₁.trans ((flushInputBuffer_passes env h₁.stored h₁.watched.queue).1.keeps (.inr rfl))⟩
  rw [heq₂]
  split
  · rename_i hempty
    exact h₂.trans (pumpEach_keeps env rfl hempty (h₂.active.trans ha) h₂.stored)
  · exact h₂

theorem pumpQueuedInput_keeps (env : InputEnv) (hs : Stored s) (hidle : s.inputPumpActive = false) :
    Keeps s (s.pumpQueuedInput env) [] := by
  unfold pumpQueuedInput
  rw [hidle]
  have hturn := pumpTurn_keeps env (s := { s with inputPumpTimer := false, inputPumpActive := true }) rfl (hs.frame rfl)
  have hstored : Stored { pumpTurn env { s with inputPumpTimer := false, inputPumpActive := true } with
    inputPumpActive := false } := hturn.stored.frame rfl
  have hdone := schedule_keeps hstored
  exact ⟨hdone.stored, hdone.watched, hdone.active.trans hidle.symm,
    (hdone.content.trans (List.append_nil _)).trans hturn.content⟩

/-! ## What is typed -/

theorem schedulePendingInputExpiry_held (env : InputEnv) (s : InputSession) :
    (s.schedulePendingInputExpiry env).held = s.held ∧
      (s.schedulePendingInputExpiry env).inputPumpActive = s.inputPumpActive ∧
      (Watched s → Watched (s.schedulePendingInputExpiry env)) := by
  unfold schedulePendingInputExpiry
  split
  · exact ⟨rfl, rfl, id⟩
  · dsimp only
    repeat' split
    all_goals exact ⟨rfl, rfl, fun h => ⟨h.queue, h.buffer⟩⟩

theorem enqueuePending_keeps (env : InputEnv) (hs : Stored s) (hw : Watched s) (hd : isWellFormed data = true) (parked : Bool) :
    Keeps s (s.enqueuePending env data parked).1 (if (s.enqueuePending env data parked).2 then data else []) := by
  unfold enqueuePending
  dsimp only
  generalize (if parked = true then min maxPendingBytes maxParkedPendingBytes else maxPendingBytes) = pendingLimit
  split
  · exact .refl hs hw
  · split
    · exact .refl hs hw
    · rename_i hfits
      rw [not_or] at hfits
      obtain ⟨-, -, -, hbytes⟩ := build_spec hd (by simpa using hfits.1)
      rw [if_pos rfl, hbytes]
      have hpush : Stored { s with
          pendingInput := s.pendingInput ++ [data]
          pendingInputSize := s.pendingInputSize + utf8Length data } := by
        refine ⟨hs.buffer, hs.bufferSize, hs.items, hs.queueSize, ?_, ?_, hs.sent, hs.unclamped⟩
        · intro d hm
          rcases List.mem_append.mp hm with hm | hm
          · exact hs.pending d hm
          · rw [List.mem_singleton.mp hm]
            exact hd
        · show s.pendingInputSize + utf8Length data = ((s.pendingInput ++ [data]).map utf8Length).sum
          rw [hs.pendingSize, List.map_append, List.sum_append, List.map_singleton, List.sum_singleton]
      obtain ⟨hheld, hactive, -⟩ := schedulePendingInputExpiry_held env { s with
        pendingInput := s.pendingInput ++ [data]
        pendingInputSize := s.pendingInputSize + utf8Length data }
      generalize schedulePendingInputExpiry env { s with
        pendingInput := s.pendingInput ++ [data]
        pendingInputSize := s.pendingInputSize + utf8Length data } = s' at hheld hactive ⊢
      have hk := schedule_keeps (hpush.frame hheld)
      refine ⟨hk.stored, hk.watched, hk.active.trans hactive, ?_⟩
      simp only [held, Prod.mk.injEq] at hheld
      obtain ⟨h1, -, h3, -, h5, -, h7, -⟩ := hheld
      rw [hk.content, List.append_nil]
      unfold InputSession.content passed
      rw [h1, h3, h5, h7, List.flatten_append, List.flatten_singleton]
      simp only [List.append_assoc]

theorem sendBehindPending_keeps (env : InputEnv) (hs : Stored s) (hw : Watched s) (hd : isWellFormed data = true) :
    Keeps s (s.sendBehindPending env data).1 (if (s.sendBehindPending env data).2 then data else []) := by
  unfold sendBehindPending
  dsimp only
  obtain ⟨s₁, heq, h₁⟩ : ∃ s₁, (if s.pendingInput = [] then s else (s.flushPending env).1) = s₁ ∧ Keeps s s₁ [] := by
    split
    · exact ⟨_, rfl, .refl hs hw⟩
    · exact ⟨_, rfl, flushPending_keeps env hs hw⟩
  rw [heq]
  split
  · rename_i hnone
    exact h₁.trans ((send_passes env h₁.stored h₁.watched hd _).keeps (.inl hnone))
  · exact h₁

/-- What cannot be sent at once is sent behind what is pending, or is pending itself. -/
theorem sendOrQueue_keeps (env : InputEnv) (hs : Stored s) (hw : Watched s) (hd : isWellFormed data = true) :
    Keeps s (s.sendOrQueue env data true).1 (if (s.sendOrQueue env data true).2 = .refused then [] else data) := by
  have hasked (s : InputSession) (n : Nat) (hs : Stored s) (hw : Watched s) : Keeps s { s with asked := n } [] :=
    .frame hs ⟨hw.queue, hw.buffer⟩ rfl rfl
  unfold sendOrQueue shouldSuppressGenerated
  cases env.suppressing s.asked && env.generated data with
  | true => exact hasked s _ hs hw
  | false =>
    simp only [Bool.not_true, Bool.false_and, Bool.false_eq_true, if_false]
    generalize env.parked s.ask.asked = parked
    have hstart := hasked s (s.asked + 1 + 1) hs hw
    rw [show s.ask.ask = { s with asked := s.asked + 1 + 1 } from rfl]
    generalize ({ s with asked := s.asked + 1 + 1 } : InputSession) = s₁ at hstart ⊢
    obtain ⟨n, ok, hgate⟩ := gate_cases env s₁
    rw [hgate]
    have hopen := hstart.trans (hasked s₁ n hstart.stored hstart.watched)
    -- What is tried first, and whether it was sent.
    obtain ⟨s₂, tried, heq, h₂⟩ : ∃ s₂ tried, (match (({ s₁ with asked := n } : InputSession), ok) with
        | (s, false) => (s, false)
        | (s, true) => s.sendBehindPending env data) = (s₂, tried) ∧ Keeps s s₂ (if tried then data else []) := by
      cases ok with
      | false => exact ⟨_, _, rfl, hopen⟩
      | true => exact ⟨_, _, rfl, hopen.trans (sendBehindPending_keeps env hopen.stored hopen.watched hd)⟩
    rw [heq]
    cases tried with
    | true => exact h₂
    | false =>
      dsimp only
      have hqueue := enqueuePending_keeps env h₂.stored h₂.watched hd parked
      have hdone := h₂.trans (hqueue.trans (hasked _ ((s₂.enqueuePending env data parked).1.asked + 1) hqueue.stored hqueue.watched))
      rw [List.append_nil] at hdone
      cases hb : (s₂.enqueuePending env data parked).2 with
      | true =>
        rw [hb] at hdone
        exact hdone
      | false =>
        rw [hb] at hdone
        exact hdone

theorem expired_keeps (env : InputEnv) (hs : Stored s) (hw : Watched s) (expiryToken : Nat) :
    Keeps s (s.pendingInputExpired env expiryToken) [] := by
  unfold pendingInputExpired
  dsimp only
  split
  · exact .frame hs ⟨hw.queue, hw.buffer⟩ rfl rfl
  · split
    · exact .frame hs ⟨hw.queue, hw.buffer⟩ rfl rfl
    · split
      · have hstart : Keeps s ({ s with pendingInputExpiryTimer := none } : InputSession).ask.ask [] :=
          .frame hs ⟨hw.queue, hw.buffer⟩ rfl rfl
        exact hstart.trans (flushPending_keeps env hstart.stored hstart.watched)
      · obtain ⟨hheld, hactive, hwatched⟩ := schedulePendingInputExpiry_held env
          { ({ s with pendingInputExpiryTimer := none } : InputSession).ask.ask.ask with
            pendingInputExpiryLeaseID := 0
            pendingInputExpiryGeneration := 0
            pendingInputExpiryPaused := false }
        exact .frame hs (hwatched ⟨hw.queue, hw.buffer⟩) hheld hactive

theorem pause_keeps (hs : Stored s) (hw : Watched s) : Keeps s s.pausePendingExpiry [] := by
  unfold pausePendingExpiry
  split
  · exact .refl hs hw
  · exact .frame hs ⟨hw.queue, hw.buffer⟩ rfl rfl

theorem resume_keeps (env : InputEnv) (hs : Stored s) (hw : Watched s) : Keeps s (s.resumePendingExpiry env) [] := by
  unfold resumePendingExpiry
  split
  · exact .refl hs hw
  · obtain ⟨hheld, hactive, hwatched⟩ := schedulePendingInputExpiry_held env { s with pendingInputExpiryPaused := false }
    exact .frame hs (hwatched ⟨hw.queue, hw.buffer⟩) hheld hactive

end

end InputSession

/-! ## Every run -/

/-- Between steps: what is held is what was accepted, and no pump is active. -/
structure InputInv (r : InputRun) : Prop where
  stored : r.session.Stored
  watched : r.session.Watched
  idle : r.session.inputPumpActive = false
  content : r.session.content = r.accepted.flatten

theorem InputInv.keeps {r : InputRun} {s : InputSession} (h : InputInv r) (hk : r.session.Keeps s []) :
    InputInv { r with session := s } :=
  ⟨hk.stored, hk.watched, hk.active.trans h.idle, by rw [hk.content, List.append_nil, h.content]⟩

theorem InputInv.step {env : InputEnv} {r r' : InputRun} (h : InputInv r) {e : InputEvent}
    (hs : (inputMachine env).step r e = some r') : InputInv r' := by
  cases e with
  | sendOrQueue text =>
    have hk := InputSession.sendOrQueue_keeps env h.stored h.watched text.wellFormed
    simp only [inputMachine, inputStep, Option.some.injEq] at hs
    subst hs
    refine ⟨hk.stored, hk.watched, hk.active.trans h.idle, ?_⟩
    rw [hk.content, h.content]
    split
    · exact List.append_nil _
    · rw [List.flatten_append, List.flatten_singleton]
  | pump =>
    cases hs
    exact h.keeps (InputSession.pumpQueuedInput_keeps env h.stored h.idle)
  | flushPending =>
    cases hs
    exact h.keeps (InputSession.flushPending_keeps env h.stored h.watched)
  | pausePendingExpiry =>
    cases hs
    exact h.keeps (InputSession.pause_keeps h.stored h.watched)
  | resumePendingExpiry =>
    cases hs
    exact h.keeps (InputSession.resume_keeps env h.stored h.watched)
  | pumpTimer =>
    simp only [inputMachine, inputStep] at hs
    split at hs
    · cases hs
      have hfired : ({ r.session with inputPumpTimer := false } : InputSession).Stored := h.stored.frame rfl
      have hidle : ({ r.session with inputPumpTimer := false } : InputSession).inputPumpActive = false := h.idle
      have hk := InputSession.pumpQueuedInput_keeps env hfired hidle
      exact h.keeps ⟨hk.stored, hk.watched, hk.active, hk.content⟩
    · cases hs
  | flushTimer =>
    simp only [inputMachine, inputStep] at hs
    split at hs
    · cases hs
      have hfired : ({ r.session with inputFlushTimer := false } : InputSession).Stored := h.stored.frame rfl
      have hk := (InputSession.flushInputBuffer_passes env hfired h.watched.queue).1.keeps (.inr rfl)
      exact h.keeps ⟨hk.stored, hk.watched, hk.active, hk.content⟩
    · cases hs
  | expiryTimer =>
    simp only [inputMachine, inputStep] at hs
    split at hs
    · cases hs
      exact h.keeps (InputSession.expired_keeps env h.stored h.watched _)
    · cases hs

theorem InputInv.start : InputInv {} where
  stored := ⟨rfl, rfl, nofun, rfl, nofun, rfl, nofun, rfl⟩
  watched := ⟨fun h => by simp at h, fun h => absurd rfl h⟩
  idle := rfl
  content := rfl

/-- What holds of typed input between steps. -/
structure InputKept (r : InputRun) : Prop where
  order : (r.session.sent.map InputMessage.data).flatten ++ r.session.inputBuffer ++
    (r.session.inputQueue.map InputItem.data).flatten ++ r.session.pendingInput.flatten = r.accepted.flatten
  bufferSize : r.session.inputBufferSize = utf8Length r.session.inputBuffer
  queueSize : r.session.inputQueueSize = utf8Length (r.session.inputQueue.map InputItem.data).flatten
  pendingSize : r.session.pendingInputSize = utf8Length r.session.pendingInput.flatten
  unclamped : r.session.clamped = false
  /-- So a message neither begins nor ends inside a pair. -/
  whole : ∀ message ∈ r.session.sent, isWellFormed message.data = true
  armed : r.session.inputBuffer ≠ [] ∨ r.session.inputQueue ≠ [] ∨ r.session.pendingInput ≠ [] →
    r.session.inputPumpTimer = true ∨ r.session.inputFlushTimer = true

theorem queue_length {items : List InputItem} (h : ∀ item ∈ items, item.Ok) :
    (items.map InputItem.byteLength).sum = utf8Length (items.map InputItem.data).flatten := by
  have hwhole : ∀ data ∈ items.map InputItem.data, isWellFormed data = true := by
    intro data hd
    obtain ⟨item, hi, rfl⟩ := List.mem_map.mp hd
    exact (h item hi).1
  rw [(flatten_wellFormed hwhole).2, List.map_map]
  exact congrArg List.sum (List.map_congr_left fun item hi => (h item hi).2)

theorem InputInv.kept {r : InputRun} (h : InputInv r) : InputKept r where
  order := h.content
  bufferSize := h.stored.bufferSize
  queueSize := h.stored.queueSize.trans (queue_length h.stored.items)
  pendingSize := h.stored.pendingSize.trans (flatten_wellFormed h.stored.pending).2.symm
  unclamped := h.stored.unclamped
  whole := h.stored.sent
  armed := by
    intro hunsent
    have hidle : ¬r.session.inputPumpActive = true := by rw [h.idle]; exact Bool.false_ne_true
    rcases hunsent with hb | hq | hp
    · exact (h.watched.buffer hb).resolve_left hidle
    · exact .inl ((h.watched.queue (.inl hq)).resolve_left hidle)
    · exact .inl ((h.watched.queue (.inr hp)).resolve_left hidle)

theorem typed_input_kept (env : InputEnv) {es : List InputEvent} {r : InputRun} (h : (inputMachine env).run {} es = some r) :
    InputKept r :=
  ((inputMachine env).run_inv (fun _ _ _ hi hs => InputInv.step hi hs) h InputInv.start).kept

/-- The gate opens after the first three questions; the second message is not sent at once. -/
def openingGate : InputEnv where
  ready n := 3 ≤ n
  healthy _ := true
  bufferedAmount _ := 0
  transmits n := n ≠ 24
  parked _ := false
  socketOpen _ := true
  suppressing _ := false
  connection _ := ⟨.unified, 1, none, 0, false⟩
  generated _ := false

/-- An `a` before the gate is open, then a pair. -/
def typedPair : List InputEvent := [.sendOrQueue ⟨[0x61], rfl⟩, .pumpTimer, .sendOrQueue ⟨[0xd83d, 0xde00], rfl⟩]

theorem typed_input_kept_pair : ∃ r, (inputMachine openingGate).run {} typedPair = some r ∧
    r.session.sent = [⟨[0x61], false⟩] ∧ r.session.inputBuffer = [0xd83d, 0xde00] ∧ r.session.inputPumpTimer = true ∧
      InputKept r := by
  obtain ⟨r, hr, hsent, hbuffer, htimer⟩ : ∃ r, (inputMachine openingGate).run {} typedPair = some r ∧
      r.session.sent = [⟨[0x61], false⟩] ∧ r.session.inputBuffer = [0xd83d, 0xde00] ∧ r.session.inputPumpTimer = true :=
    ⟨_, rfl, rfl, rfl, rfl⟩
  exact ⟨r, hr, hsent, hbuffer, htimer, typed_input_kept openingGate hr⟩

end Webshell
