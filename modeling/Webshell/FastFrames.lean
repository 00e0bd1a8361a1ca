import Webshell.AgentFrames
import Webshell.QueueDelivered
import Webshell.ReplayAccepted

/-!
# Frames of the fast integrity protocol

An attach with the protocol `fast-v1` puts a header before every binary payload:
a sequence number and the cursors the bytes go from and to. Replay and live output
share one sequence. The browser takes a frame only where it continues the last one.
Cursors count the bytes a pane has put out; they are not taken modulo `2 ^ 64`.
-/

namespace Webshell

open GoText Slice

/-! ## Writing a frame -/

structure FastBinaryHeader where
  protocolVersion : Nat
  selector : String
  paneID : String
  historyGeneration : String
  sequence : Nat
  startCursor : String
  endCursor : String
  length : Nat
  checksum : String

def fastBinaryProtocolVersion : Nat := 1

def fastBinaryMagic : Bytes := "LCF1".toList.map fun c => UInt8.ofNat c.toNat

def FastBinaryHeader.json (h : FastBinaryHeader) : Json :=
  .obj ([
    ("protocol_version".toList, jsonUint h.protocolVersion),
    ("selector".toList, jsonString h.selector),
    ("pane_id".toList, jsonString h.paneID)] ++
    (if h.historyGeneration = "" then [] else [("history_generation".toList, jsonString h.historyGeneration)]) ++ [
    ("sequence".toList, jsonUint h.sequence),
    ("start_cursor".toList, jsonString h.startCursor),
    ("end_cursor".toList, jsonString h.endCursor),
    ("length".toList, jsonUint h.length),
    ("checksum".toList, jsonString h.checksum)])

/-- The header of a payload. -/
def fastBinaryHeader (selector paneID historyGeneration : String) (sequence startCursor : Nat) (payload : Bytes) :
    FastBinaryHeader where
  protocolVersion := fastBinaryProtocolVersion
  selector := selector
  paneID := paneID
  historyGeneration := historyGeneration
  sequence := sequence
  startCursor := formatUint startCursor
  endCursor := formatUint (startCursor + payload.length)
  length := payload.length
  checksum := terminalPayloadChecksum payload

def encodeFastBinaryFrame (selector paneID historyGeneration : String) (sequence startCursor : Nat) (payload : Bytes) : Bytes :=
  let header := encodeUtf8 (fastBinaryHeader selector paneID historyGeneration sequence startCursor payload).json.marshal
  fastBinaryMagic ++ putUint32 header.length ++ header ++ payload

/-! ## Reading a frame -/

/-- The browser's `crc32`, bit by bit. -/
def crc32 (data : Bytes) : BitVec 32 := (data.foldl Crc32.update 0xffffffff) ^^^ 0xffffffff

/-- What a frame is expected to be; an empty name is not looked at. -/
structure FastIdentity where
  selector : List Char := []
  paneID : List Char := []
  historyGeneration : List Char := []
  expectedSequence : Option Nat := none
  expectedStartCursor : Option Nat := none

structure FastFrame where
  header : Json
  payload : Bytes
  startCursor : Nat
  endCursor : Nat
  sequence : Nat

/-- `parse`. A number prints as its literal up to `2 ^ 53 - 1`; a larger one is not read here. -/
def fastNumber (value : Option Json) : Option Nat :=
  (parseCursor value).filter fun n => !(value matches some (.num _)) || n ≤ Js.maxSafeInteger

/-- `Number(value)`, where that is a natural number and a text writes it in decimal digits. -/
def fastLength (value : Option Json) : Option Nat :=
  match value with
  | none => none
  | some .null => some 0
  | some (.bool b) => some (if b then 1 else 0)
  | some v => if Js.trim (Js.text v) = [] then some 0 else Js.decimal (Js.trim (Js.text v))

/-- `name && value !== name`. -/
def differs (name : List Char) (value : Option Json) : Bool := name ≠ [] && !Js.same value (some (.str name))

/-- `String(value || "").toLowerCase().replace(/^0x/, "").padStart(8, "0")`. -/
def fastChecksum (value : Option Json) : List Char :=
  let lower := (Js.text (Js.orElse value (.str []))).map Char.toLower
  padChecksum (if "0x".toList.isPrefixOf lower then lower.drop 2 else lower)

def decodeFastBinaryFrame (data : Bytes) (identity : FastIdentity) : Except String FastFrame :=
  if data.length < 8 ∨ data.take 4 ≠ fastBinaryMagic then .error "invalid Fast binary envelope magic"
  else
    let headerLength := getUint32 (data.drop 4)
    if headerLength = 0 ∨ data.length < headerLength + 8 then .error "invalid Fast binary envelope header length"
    else
      match (decodeUtf8 ((data.drop 8).take headerLength)).bind Json.parse with
      | none => .error "invalid Fast binary envelope JSON"
      -- The first property that is read throws.
      | some .null => .error "Cannot read properties of null (reading 'start_cursor')"
      | some header =>
        let payload := data.drop (8 + headerLength)
        match fastNumber (header.get "start_cursor"), fastNumber (header.get "end_cursor"), fastNumber (header.get "sequence") with
        | some start, some stop, some sequence =>
          if (match header.get "protocol_version" with
              | some (.num literal) => Js.decimal literal
              | _ => none) ≠ some 1 ∨
              differs identity.selector (header.get "selector") ∨ differs identity.paneID (header.get "pane_id") ∨
              differs identity.historyGeneration (header.get "history_generation") ∨
              stop ≠ start + payload.length ∨ fastLength (header.get "length") ≠ some payload.length then
            .error "Fast binary envelope identity or range mismatch"
          else if identity.expectedSequence.any (· ≠ sequence) then .error "Fast binary envelope sequence discontinuity"
          else if identity.expectedStartCursor.any (· ≠ start) then .error "Fast binary envelope cursor discontinuity"
          else if padChecksum (Nat.toDigits 16 (crc32 payload).toNat) ≠ fastChecksum (header.get "checksum") then
            .error "Fast binary envelope checksum mismatch"
          else .ok { header, payload, startCursor := start, endCursor := stop, sequence }
        | _, _, _ => .error "Fast binary envelope identity or range mismatch"

/-- The frames one after the other, each expected to continue the one before. -/
def decodeFastBinaryFrames (identity : FastIdentity) : Nat → Nat → List Bytes → Except String (List FastFrame)
  | _, _, [] => .ok []
  | sequence, cursor, data :: rest =>
    match decodeFastBinaryFrame data
      { identity with expectedSequence := some sequence, expectedStartCursor := some cursor } with
    | .error err => .error err
    | .ok frame =>
      match decodeFastBinaryFrames identity (sequence + 1) frame.endCursor rest with
      | .error err => .error err
      | .ok frames => .ok (frame :: frames)

/-! ## The writer of an attach -/

/-- How the writes on a connection turn out, and the frames that went out. -/
structure AttachConn where
  fails : Nat → Bool
  attempts : Nat := 0
  written : List Wire.Frame := []

/-- `WriteAgentFrame`, and whether it returns no error. -/
def AttachConn.write (c : AttachConn) (frame : Wire.Frame) : AttachConn × Bool :=
  if agentMaxFramePayload < frame.payload.length then (c, false)
  else if c.fails c.attempts = true then ({ c with attempts := c.attempts + 1 }, false)
  else ({ c with attempts := c.attempts + 1, written := c.written ++ [frame] }, true)

def agentFrameBinary : UInt8 := 66

def AgentFrameText : UInt8 := 84

/-- The payloads of the binary frames that went out. -/
def AttachConn.binaryFrames (c : AttachConn) : List Bytes :=
  (c.written.filter fun frame => frame.frameType = agentFrameBinary).map Wire.Frame.payload

inductive MessageType
  | text
  | binary
  deriving DecidableEq

/-- What a client is sent. -/
structure LiveOutbound where
  messageType : MessageType
  payload : Bytes
  closeAfter : Bool := false

structure AttachWriter where
  conn : AttachConn
  fastSequence : Nat := 1
  fastCursor : Nat

namespace AttachWriter

def writeAgentControlFrame (w : AttachWriter) (payload : Json) : AttachWriter × Bool :=
  let (conn, ok) := w.conn.write ⟨AgentFrameText, encodeUtf8 payload.marshal⟩
  ({ w with conn }, ok)

/-- Controls, until one is not written. -/
def writeControls (w : AttachWriter) : List Json → AttachWriter × Bool
  | [] => (w, true)
  | payload :: rest =>
    match w.writeAgentControlFrame payload with
    | (w, false) => (w, false)
    | (w, true) => w.writeControls rest

variable (identity : TerminalReplayIdentity) (generation : String)

/-- The frame of a payload that comes next. -/
def fastFrame (w : AttachWriter) (payload : Bytes) : Wire.Frame :=
  ⟨agentFrameBinary, encodeFastBinaryFrame identity.selector identity.paneID generation w.fastSequence w.fastCursor payload⟩

def advance (w : AttachWriter) (payload : Bytes) : AttachWriter :=
  { w with fastSequence := w.fastSequence + 1, fastCursor := w.fastCursor + payload.length }

/-- `flushPending`, for what is pending at each call. -/
def flushPending (w : AttachWriter) : List Bytes → AttachWriter × Bool
  | [] => (w, true)
  | pending :: rest =>
    match w.conn.write (w.fastFrame identity generation pending) with
    | (conn, false) => ({ w with conn }, false)
    | (conn, true) => ({ w with conn }.advance pending).flushPending rest

/-- The loop over what the client is sent; false where a write fails. -/
def live (w : AttachWriter) : List LiveOutbound → AttachWriter × Bool
  | [] => (w, true)
  | outbound :: rest =>
    let (frame, w) := match outbound.messageType with
      | .binary => (w.fastFrame identity generation outbound.payload, w.advance outbound.payload)
      | .text => (⟨AgentFrameText, outbound.payload⟩, w)
    match w.conn.write frame with
    | (conn, false) => ({ w with conn }, false)
    | (conn, true) => if outbound.closeAfter then ({ w with conn }, true) else { w with conn }.live rest

end AttachWriter

/-- The start, which names the protocol. -/
def fastReplayStart (identity : TerminalReplayIdentity) (history : PaneHistorySnapshot) (m : CheckpointMemory)
    (allowGeneratedInput : Bool) (clock : ReplayClock) : Json :=
  match historyReplayStart identity history m allowGeneratedInput clock with
  | .obj fields => .obj (fields ++ [("integrity_protocol".toList, jsonString "fast-v1")])
  | start => start

/-- `writeAgentHistoryReplay` with the integrity protocol. -/
def AttachWriter.writeFastHistoryReplay (w : AttachWriter) (identity : TerminalReplayIdentity) (history : PaneHistorySnapshot)
    (m : CheckpointMemory) (allowGeneratedInput : Bool) (clock : ReplayClock) : AttachWriter × Bool :=
  match w.writeControls (replayParts identity history m ++ [fastReplayStart identity history m allowGeneratedInput clock]) with
  | (w, false) => (w, false)
  | (w, true) =>
    match w.flushPending identity history.generation (replayPayloads history.chunks) with
    | (w, false) => (w, false)
    | (w, true) =>
      w.writeAgentControlFrame (historyReplayComplete identity history (replayPayloads history.chunks).length clock)

def PaneExitSnapshot.controlPayload (e : PaneExitSnapshot) (selector paneID : String) : Json :=
  .obj ([
    ("type".toList, jsonString "process-exit"),
    ("exit_code".toList, jsonInt e.exitCode),
    ("authoritative".toList, .bool true),
    ("selector".toList, jsonString selector),
    ("pane_id".toList, jsonString paneID),
    ("retained".toList, .bool e.retained)] ++
    if e.message ≠ "" then [("message".toList, jsonString e.message)] else [])

/-- How far the writer of an attach came. -/
structure AttachWritten where
  writer : AttachWriter
  /-- The replay has been written. -/
  replayed : Bool
  /-- No write ended it. -/
  ok : Bool

/-- The writer of an attach with the protocol `fast-v1`. The control it begins with, `ready`, may get lost;
`outbounds` is what it takes from the client before the client is done. -/
def attachWriter (fails : Nat → Bool) (ready : Json) (identity : TerminalReplayIdentity) (attachment : Attachment)
    (m : CheckpointMemory) (clock : ReplayClock) (outbounds : List LiveOutbound) : AttachWritten :=
  let history := attachment.history
  let w : AttachWriter := { conn := { fails }, fastCursor := history.deltaFrom }
  let (w, _) := w.writeAgentControlFrame ready
  match w.writeFastHistoryReplay identity history m attachment.allowGeneratedInput clock with
  | (w, false) => ⟨w, false, false⟩
  | (w, true) =>
    if attachment.exit.exited then
      ⟨(w.writeAgentControlFrame (attachment.exit.controlPayload identity.selector identity.paneID)).1, true, true⟩
    else
      let (w, ok) := w.live identity history.generation outbounds
      ⟨w, true, ok⟩

/-! ## The header is read back -/

section
variable (h : FastBinaryHeader)

@[simp] theorem fast_protocol_version : h.json.get "protocol_version" = some (jsonUint h.protocolVersion) := by
  simp only [FastBinaryHeader.json, Json.get]
  split <;> rfl

@[simp] theorem fast_selector : h.json.get "selector" = some (jsonString h.selector) := by
  simp only [FastBinaryHeader.json, Json.get]
  split <;> rfl

@[simp] theorem fast_pane_id : h.json.get "pane_id" = some (jsonString h.paneID) := by
  simp only [FastBinaryHeader.json, Json.get]
  split <;> rfl

@[simp] theorem fast_history_generation :
    h.json.get "history_generation" = if h.historyGeneration = "" then none else some (jsonString h.historyGeneration) := by
  simp only [FastBinaryHeader.json, Json.get]
  by_cases hg : h.historyGeneration = "" <;> simp only [hg, if_true, if_false] <;> rfl

@[simp] theorem fast_sequence : h.json.get "sequence" = some (jsonUint h.sequence) := by
  simp only [FastBinaryHeader.json, Json.get]
  split <;> rfl

@[simp] theorem fast_start_cursor : h.json.get "start_cursor" = some (jsonString h.startCursor) := by
  simp only [FastBinaryHeader.json, Json.get]
  split <;> rfl

@[simp] theorem fast_end_cursor : h.json.get "end_cursor" = some (jsonString h.endCursor) := by
  simp only [FastBinaryHeader.json, Json.get]
  split <;> rfl

@[simp] theorem fast_length : h.json.get "length" = some (jsonUint h.length) := by
  simp only [FastBinaryHeader.json, Json.get]
  split <;> rfl

@[simp] theorem fast_checksum : h.json.get "checksum" = some (jsonString h.checksum) := by
  simp only [FastBinaryHeader.json, Json.get]
  split <;> rfl

theorem numeric_fastHeader : h.json.Numeric := by
  unfold FastBinaryHeader.json
  split <;> simp [Json.Numeric, Json.NumericFields, jsonString, numeric_jsonUint]

end

theorem parseCursor_jsonUint (n : Nat) : parseCursor (some (jsonUint n)) = some n := by
  have ht : Js.trimmedText (some (jsonUint n)) = Js.trim (Js.text (jsonUint n)) := rfl
  unfold parseCursor
  rw [ht, text_jsonUint, Js.trim_toDigits, Js.decimal_toDigits]

theorem fastNumber_jsonUint {n : Nat} (h : n ≤ Js.maxSafeInteger) : fastNumber (some (jsonUint n)) = some n := by
  unfold fastNumber
  rw [parseCursor_jsonUint]
  simp [h]

theorem fastNumber_formatUint (n : Nat) : fastNumber (some (jsonString (formatUint n))) = some n := by
  have ht : Js.trimmedText (some (jsonString (formatUint n))) = Js.trim (Nat.toDigits 10 n) := by
    simp only [jsonString, Js.trimmedText, Js.text, formatUint, Nat.toList_repr]
  unfold fastNumber parseCursor
  rw [ht, Js.trim_toDigits, Js.decimal_toDigits]
  rfl

theorem fastLength_jsonUint (n : Nat) : fastLength (some (jsonUint n)) = some n := by
  have ht : Js.trim (Js.text (jsonUint n)) = Nat.toDigits 10 n := by rw [text_jsonUint, Js.trim_toDigits]
  have hl : fastLength (some (jsonUint n)) =
      if Js.trim (Js.text (jsonUint n)) = [] then some 0 else Js.decimal (Js.trim (Js.text (jsonUint n))) := rfl
  rw [hl, ht, if_neg Nat.toDigits_ne_nil, Js.decimal_toDigits]

theorem differs_jsonString (s : String) : differs s.toList (some (jsonString s)) = false := by
  unfold differs jsonString
  rw [Js.same_str]
  simp

theorem crc32_eq (data : Bytes) : crc32 data = Crc32.checksum data := BitVec.xor_allOnes (w := 32)

theorem fastChecksum_eq (data : Bytes) :
    padChecksum (Nat.toDigits 16 (crc32 data).toNat) = fastChecksum (some (jsonString (terminalPayloadChecksum data))) := by
  have hlen := length_hexDigits 8 (Crc32.checksum data).toNat
  obtain ⟨hlower, hprefix⟩ := hexDigits_lower 8 (Crc32.checksum data).toNat
  have hpad := leftpad_toDigits (k := 7) (Crc32.checksum data).isLt
  have htext : (terminalPayloadChecksum data).toList = hexDigits 8 (Crc32.checksum data).toNat := checksum_text _
  have hne : terminalPayloadChecksum data ≠ "" := by
    intro he
    rw [he] at htext
    rw [← htext] at hlen
    cases hlen
  unfold fastChecksum
  simp only [orElse_string hne, text_jsonString, htext, hlower, hprefix, Bool.false_eq_true, if_false]
  rw [crc32_eq]
  unfold padChecksum
  rw [hpad]
  simp [List.leftpad, hlen]

/-! ## A frame is read back -/

section
variable (identity : TerminalReplayIdentity) (generation : String)

/-- The names of a replay, as the browser has them. -/
def fastIdentity : FastIdentity where
  selector := identity.selector.toList
  paneID := identity.paneID.toList
  historyGeneration := generation.toList

theorem differs_generation (h : FastBinaryHeader) : differs h.historyGeneration.toList (h.json.get "history_generation") = false := by
  rw [fast_history_generation]
  by_cases hg : h.historyGeneration = ""
  · rw [hg]
    rfl
  · rw [if_neg hg]
    exact differs_jsonString _

theorem decode_fast (sequence cursor : Nat) (payload : Bytes) (hs : sequence ≤ Js.maxSafeInteger)
    (hl : (encodeFastBinaryFrame identity.selector identity.paneID generation sequence cursor payload).length ≤
      agentMaxFramePayload) :
    decodeFastBinaryFrame (encodeFastBinaryFrame identity.selector identity.paneID generation sequence cursor payload)
        { fastIdentity identity generation with expectedSequence := some sequence, expectedStartCursor := some cursor } =
      .ok ⟨(fastBinaryHeader identity.selector identity.paneID generation sequence cursor payload).json, payload, cursor,
        cursor + payload.length, sequence⟩ := by
  unfold encodeFastBinaryFrame at hl ⊢
  have hdiffers := differs_generation (fastBinaryHeader identity.selector identity.paneID generation sequence cursor payload)
  generalize hh : fastBinaryHeader identity.selector identity.paneID generation sequence cursor payload = header at hl hdiffers ⊢
  generalize hd : encodeUtf8 header.json.marshal = headerData at hl ⊢
  have hparse : (decodeUtf8 headerData).bind Json.parse = some header.json := by
    rw [← hd, decodeUtf8_encodeUtf8]
    exact Json.parse_marshal (numeric_fastHeader header)
  have hpos : headerData.length ≠ 0 := by
    intro h0
    rw [List.eq_nil_of_length_eq_zero h0] at hparse
    cases hparse
  have hshort : headerData.length < 2 ^ 32 := by
    simp only [List.length_append] at hl
    unfold agentMaxFramePayload at hl
    omega
  have he := @envelope fastBinaryMagic _ payload rfl hshort
  generalize fastBinaryMagic ++ putUint32 headerData.length ++ headerData ++ payload = frame at he
  have hpayload : frame.drop (8 + headerData.length) = payload := by rw [← List.drop_drop, he.payload_eq]
  unfold decodeFastBinaryFrame
  rw [if_neg (by rw [he.length_eq, he.magic_eq]; simp; omega)]
  simp only [he.header_length]
  rw [if_neg (by rw [he.length_eq]; omega), he.header_eq, hparse, hpayload]
  have hversion := fast_protocol_version header
  have hselector := fast_selector header
  have hpane := fast_pane_id header
  have hsequence := fast_sequence header
  have hstart := fast_start_cursor header
  have hstop := fast_end_cursor header
  have hlength := fast_length header
  have hchecksum := fast_checksum header
  obtain ⟨fields, hobj⟩ : ∃ fields, header.json = .obj fields := ⟨_, rfl⟩
  rw [hobj] at hversion hselector hpane hdiffers hsequence hstart hstop hlength hchecksum ⊢
  subst hh
  have hone : (match some (jsonUint 1) with
      | some (.num literal) => Js.decimal literal
      | _ => none) = some 1 := rfl
  simp only [hversion, hselector, hpane, hsequence, hstart, hstop, hlength, hchecksum]
  simp only [fastBinaryHeader, fastBinaryProtocolVersion, fastNumber_formatUint, fastNumber_jsonUint hs, hone,
    fastIdentity, differs_jsonString, fastLength_jsonUint]
  simp only [fastBinaryHeader] at hdiffers
  rw [if_neg (by simp [hdiffers]), if_neg (by simp), if_neg (by simp)]
  exact if_neg (not_not_intro (fastChecksum_eq payload))

/-! ## Frames that follow each other -/

/-- The frames of payloads from a sequence number and a cursor on. -/
def fastChain : Nat → Nat → List Bytes → List Bytes
  | _, _, [] => []
  | sequence, cursor, payload :: rest =>
    encodeFastBinaryFrame identity.selector identity.paneID generation sequence cursor payload ::
      fastChain (sequence + 1) (cursor + payload.length) rest

/-- What they are read as. -/
def readChain : Nat → Nat → List Bytes → List FastFrame
  | _, _, [] => []
  | sequence, cursor, payload :: rest =>
    ⟨(fastBinaryHeader identity.selector identity.paneID generation sequence cursor payload).json, payload, cursor,
        cursor + payload.length, sequence⟩ :: readChain (sequence + 1) (cursor + payload.length) rest

theorem fastChain_snoc (payload : Bytes) : ∀ (sequence cursor : Nat) (payloads : List Bytes),
    fastChain identity generation sequence cursor (payloads ++ [payload]) =
      fastChain identity generation sequence cursor payloads ++
        [encodeFastBinaryFrame identity.selector identity.paneID generation (sequence + payloads.length)
          (cursor + payloads.flatten.length) payload]
  | _, _, [] => rfl
  | sequence, cursor, first :: rest => by
    have ih := fastChain_snoc payload (sequence + 1) (cursor + first.length) rest
    simp only [List.cons_append, fastChain, ih, List.length_cons, List.flatten_cons, List.length_append]
    rw [Nat.add_right_comm sequence, Nat.add_assoc sequence, Nat.add_assoc cursor]

theorem readChain_append (more : List Bytes) : ∀ (sequence cursor : Nat) (payloads : List Bytes),
    readChain identity generation sequence cursor (payloads ++ more) =
      readChain identity generation sequence cursor payloads ++
        readChain identity generation (sequence + payloads.length) (cursor + payloads.flatten.length) more
  | _, _, [] => rfl
  | sequence, cursor, first :: rest => by
    have ih := readChain_append more (sequence + 1) (cursor + first.length) rest
    simp only [List.cons_append, readChain, ih, List.length_cons, List.flatten_cons, List.length_append]
    rw [Nat.add_right_comm sequence, Nat.add_assoc sequence, Nat.add_assoc cursor]

theorem readChain_payloads : ∀ (sequence cursor : Nat) (payloads : List Bytes),
    (readChain identity generation sequence cursor payloads).map FastFrame.payload = payloads
  | _, _, [] => rfl
  | sequence, cursor, first :: rest => by
    rw [readChain, List.map_cons, readChain_payloads]

/-- The last of them ends where all the bytes end. -/
theorem readChain_last : ∀ (sequence cursor : Nat) (payloads : List Bytes),
    ((readChain identity generation sequence cursor payloads).getLast?.map FastFrame.endCursor).getD cursor =
      cursor + payloads.flatten.length
  | _, _, [] => rfl
  | sequence, cursor, first :: rest => by
    have ih := readChain_last (sequence + 1) (cursor + first.length) rest
    rw [readChain, List.getLast?_cons, Option.map_some, Option.getD_some, List.flatten_cons, List.length_append,
      ← Nat.add_assoc, ← ih]
    cases (readChain identity generation (sequence + 1) (cursor + first.length) rest).getLast? <;> rfl

theorem decode_chain : ∀ (sequence cursor : Nat) (payloads : List Bytes),
    (∀ frame ∈ fastChain identity generation sequence cursor payloads, frame.length ≤ agentMaxFramePayload) →
    sequence + payloads.length ≤ Js.maxSafeInteger + 1 →
    decodeFastBinaryFrames (fastIdentity identity generation) sequence cursor
        (fastChain identity generation sequence cursor payloads) =
      .ok (readChain identity generation sequence cursor payloads)
  | _, _, [], _, _ => rfl
  | sequence, cursor, payload :: rest, hsmall, hseq => by
    rw [List.length_cons] at hseq
    have hfirst := decode_fast identity generation sequence cursor payload (by omega) (hsmall _ (List.mem_cons_self ..))
    have ih := decode_chain (sequence + 1) (cursor + payload.length) rest
      (fun frame hf => hsmall frame (List.mem_cons_of_mem _ hf)) (by omega)
    rw [fastChain, decodeFastBinaryFrames, hfirst]
    simp only [ih]
    rfl

/-! ## What the writer sends -/

/-- The binary frames on the connection are those of `payloads`. -/
structure FastWrote (start : Nat) (c : AttachConn) (payloads : List Bytes) : Prop where
  frames : c.binaryFrames = fastChain identity generation 1 start payloads
  small : ∀ frame ∈ c.written, frame.payload.length ≤ agentMaxFramePayload

/-- The next frame continues them. -/
structure Chained (start : Nat) (w : AttachWriter) (payloads : List Bytes) : Prop
    extends FastWrote identity generation start w.conn payloads where
  sequence : w.fastSequence = 1 + payloads.length
  cursor : w.fastCursor = start + payloads.flatten.length

end

theorem AttachConn.write_cases (c : AttachConn) (frame : Wire.Frame) :
    (∃ c', c.write frame = (c', false) ∧ c'.written = c.written) ∨
      ∃ c', c.write frame = (c', true) ∧ c'.written = c.written ++ [frame] ∧ frame.payload.length ≤ agentMaxFramePayload := by
  unfold AttachConn.write
  split
  · exact .inl ⟨_, rfl, rfl⟩
  · rename_i hlong
    split
    · exact .inl ⟨_, rfl, rfl⟩
    · exact .inr ⟨_, rfl, rfl, Nat.le_of_not_lt hlong⟩

section
variable {identity : TerminalReplayIdentity} {generation : String} {start : Nat} {w : AttachWriter} {c c' : AttachConn}
  {payloads : List Bytes}

theorem FastWrote.same (h : FastWrote identity generation start c payloads) (hw : c'.written = c.written) :
    FastWrote identity generation start c' payloads where
  frames := by rw [← h.frames, AttachConn.binaryFrames, hw]; rfl
  small := by rw [hw]; exact h.small

theorem FastWrote.text (h : FastWrote identity generation start c payloads) {payload : Bytes}
    (hw : c'.written = c.written ++ [⟨AgentFrameText, payload⟩]) (hl : payload.length ≤ agentMaxFramePayload) :
    FastWrote identity generation start c' payloads where
  frames := by
    rw [← h.frames]
    unfold AttachConn.binaryFrames
    rw [hw, List.filter_append, List.map_append]
    exact List.append_nil _
  small := by
    rw [hw]
    intro frame hf
    rcases List.mem_append.mp hf with hf | hf
    · exact h.small frame hf
    · rw [List.mem_singleton.mp hf]
      exact hl

theorem Chained.binary (h : Chained identity generation start w payloads) {payload : Bytes}
    (hw : c'.written = w.conn.written ++ [w.fastFrame identity generation payload])
    (hl : (w.fastFrame identity generation payload).payload.length ≤ agentMaxFramePayload) :
    Chained identity generation start ({ w with conn := c' }.advance payload) (payloads ++ [payload]) where
  frames := by
    have hb : c'.binaryFrames = w.conn.binaryFrames ++ [(w.fastFrame identity generation payload).payload] := by
      unfold AttachConn.binaryFrames
      rw [hw, List.filter_append, List.map_append]
      rfl
    show c'.binaryFrames = _
    rw [hb, h.frames, fastChain_snoc, AttachWriter.fastFrame, h.sequence, h.cursor]
  small := by
    show ∀ frame ∈ c'.written, _
    rw [hw]
    intro frame hf
    rcases List.mem_append.mp hf with hf | hf
    · exact h.small frame hf
    · rw [List.mem_singleton.mp hf]
      exact hl
  sequence := by
    show w.fastSequence + 1 = _
    rw [h.sequence, List.length_append, List.length_singleton, Nat.add_assoc]
  cursor := by
    show w.fastCursor + payload.length = _
    rw [h.cursor, List.flatten_append, List.length_append, List.flatten_singleton, Nat.add_assoc]

theorem Chained.control (h : Chained identity generation start w payloads) (control : Json) :
    Chained identity generation start (w.writeAgentControlFrame control).1 payloads := by
  refine ⟨?_, h.sequence, h.cursor⟩
  unfold AttachWriter.writeAgentControlFrame
  rcases w.conn.write_cases ⟨AgentFrameText, encodeUtf8 control.marshal⟩ with ⟨c', heq, hw⟩ | ⟨c', heq, hw, hl⟩
  · rw [heq]
    exact h.toFastWrote.same hw
  · rw [heq]
    exact h.toFastWrote.text hw hl

theorem Chained.controls : ∀ (controls : List Json) {w : AttachWriter}, Chained identity generation start w payloads →
    Chained identity generation start (w.writeControls controls).1 payloads
  | [], _, h => h
  | control :: rest, w, h => by
    have hc := h.control control
    unfold AttachWriter.writeControls
    split
    · rename_i w' heq
      rw [heq] at hc
      exact hc
    · rename_i w' heq
      rw [heq] at hc
      exact hc.controls rest

/-- The replay's payloads go out in order, all of them unless a write fails. -/
theorem Chained.flush : ∀ (pending : List Bytes) {w : AttachWriter} {payloads : List Bytes},
    Chained identity generation start w payloads → ∃ sent, sent <+: pending ∧
      Chained identity generation start (w.flushPending identity generation pending).1 (payloads ++ sent) ∧
      ((w.flushPending identity generation pending).2 = true → sent = pending)
  | [], w, payloads, h => ⟨[], List.prefix_rfl, by rw [List.append_nil]; exact h, fun _ => rfl⟩
  | payload :: rest, w, payloads, h => by
    unfold AttachWriter.flushPending
    rcases w.conn.write_cases (w.fastFrame identity generation payload) with ⟨c', heq, hw⟩ | ⟨c', heq, hw, hl⟩
    · rw [heq]
      refine ⟨[], List.nil_prefix, ?_, fun hf => by cases hf⟩
      rw [List.append_nil]
      exact ⟨h.toFastWrote.same hw, h.sequence, h.cursor⟩
    · rw [heq]
      obtain ⟨sent, hprefix, hchained, hall⟩ := (h.binary hw hl).flush rest
      refine ⟨payload :: sent, List.cons_prefix_cons.mpr ⟨rfl, hprefix⟩, ?_, fun ht => by rw [hall ht]⟩
      rw [List.append_assoc] at hchained
      exact hchained

end

/-- The binary payloads a client is sent until it is closed. -/
def livePayloads : List LiveOutbound → List Bytes
  | [] => []
  | outbound :: rest =>
    (if outbound.messageType = .binary then [outbound.payload] else []) ++
      if outbound.closeAfter then [] else livePayloads rest

section
variable {identity : TerminalReplayIdentity} {generation : String} {start : Nat}

/-- So do the live payloads. -/
theorem Chained.live : ∀ (outbounds : List LiveOutbound) {w : AttachWriter} {payloads : List Bytes},
    Chained identity generation start w payloads → ∃ sent, sent <+: livePayloads outbounds ∧
      FastWrote identity generation start (w.live identity generation outbounds).1.conn (payloads ++ sent) ∧
      ((w.live identity generation outbounds).2 = true → sent = livePayloads outbounds)
  | [], w, payloads, h => ⟨[], List.prefix_rfl, by rw [List.append_nil]; exact h.toFastWrote, fun _ => rfl⟩
  | ⟨.text, payload, closeAfter⟩ :: rest, w, payloads, h => by
    unfold AttachWriter.live livePayloads
    simp only [reduceCtorEq, if_false, List.nil_append]
    rcases w.conn.write_cases ⟨AgentFrameText, payload⟩ with ⟨c', heq, hw⟩ | ⟨c', heq, hw, hl⟩
    · rw [heq]
      refine ⟨[], List.nil_prefix, ?_, fun hf => by cases hf⟩
      rw [List.append_nil]
      exact h.toFastWrote.same hw
    · rw [heq]
      have hnext : Chained identity generation start { w with conn := c' } payloads :=
        ⟨h.toFastWrote.text hw hl, h.sequence, h.cursor⟩
      cases closeAfter with
      | true => exact ⟨[], List.nil_prefix, by rw [List.append_nil]; exact hnext.toFastWrote, fun _ => rfl⟩
      | false => exact hnext.live rest
  | ⟨.binary, payload, closeAfter⟩ :: rest, w, payloads, h => by
    unfold AttachWriter.live livePayloads
    simp only [if_true]
    rcases w.conn.write_cases (w.fastFrame identity generation payload) with ⟨c', heq, hw⟩ | ⟨c', heq, hw, hl⟩
    · rw [show (w.advance payload).conn = w.conn from rfl, heq]
      refine ⟨[], List.nil_prefix, ?_, fun hf => by cases hf⟩
      rw [List.append_nil]
      exact h.toFastWrote.same hw
    · rw [show (w.advance payload).conn = w.conn from rfl, heq]
      have hnext := h.binary hw hl
      cases closeAfter with
      | true => exact ⟨[payload], List.prefix_rfl, hnext.toFastWrote, fun _ => rfl⟩
      | false =>
        obtain ⟨sent, hprefix, hwrote, hall⟩ := hnext.live rest
        rw [List.append_assoc] at hwrote
        exact ⟨payload :: sent, List.cons_prefix_cons.mpr ⟨rfl, hprefix⟩, hwrote, fun ht => by rw [hall ht]; rfl⟩

/-- A replay that is written has sent the snapshot's bytes. -/
theorem Chained.replay {w : AttachWriter} {payloads : List Bytes} {history : PaneHistorySnapshot}
    (h : Chained identity history.generation start w payloads) (m : CheckpointMemory) (allowGeneratedInput : Bool)
    (clock : ReplayClock) : ∃ sent, sent <+: replayPayloads history.chunks ∧
      Chained identity history.generation start (w.writeFastHistoryReplay identity history m allowGeneratedInput clock).1
        (payloads ++ sent) ∧
      ((w.writeFastHistoryReplay identity history m allowGeneratedInput clock).2 = true →
        sent = replayPayloads history.chunks) := by
  unfold AttachWriter.writeFastHistoryReplay
  have hc := h.controls (replayParts identity history m ++
    [fastReplayStart identity history m allowGeneratedInput clock])
  split
  · rename_i w₁ heq
    rw [heq] at hc
    refine ⟨[], List.nil_prefix, ?_, fun hf => by cases hf⟩
    rw [List.append_nil]
    exact hc
  · rename_i w₁ heq
    rw [heq] at hc
    obtain ⟨sent, hprefix, hchained, hall⟩ := hc.flush (replayPayloads history.chunks)
    split
    · rename_i w₂ heq
      rw [heq] at hchained
      exact ⟨sent, hprefix, hchained, fun hf => by cases hf⟩
    · rename_i w₂ heq
      rw [heq] at hchained hall
      exact ⟨sent, hprefix, hchained.control _, fun _ => hall rfl⟩

end

/-! ## Both languages agree -/

/-- What the client is sent when the pane has not exited. -/
def Attachment.livePayloads (attachment : Attachment) (outbounds : List LiveOutbound) : List Bytes :=
  if attachment.exit.exited then [] else Webshell.livePayloads outbounds

/-- The frames an attach has written, read in order from sequence number 1 and the snapshot's first cursor on. -/
structure FramesAgree (identity : TerminalReplayIdentity) (attachment : Attachment) (outbounds : List LiveOutbound)
    (out : Bytes) (a : AttachWritten) (replay live : List FastFrame) : Prop where
  decoded : decodeFastBinaryFrames (fastIdentity identity attachment.history.generation) 1 attachment.history.deltaFrom
    a.writer.conn.binaryFrames = .ok (replay ++ live)
  /-- What went out is a part of the snapshot, and behind all of it a part of the live output. -/
  replay_sent : replay.map FastFrame.payload <+: replayPayloads attachment.history.chunks
  live_sent : live.map FastFrame.payload <+: attachment.livePayloads outbounds
  in_order : live ≠ [] → a.replayed = true
  snapshot : (replayPayloads attachment.history.chunks).flatten =
    slice out attachment.history.deltaFrom attachment.history.deltaTo
  replayed : a.replayed = true → replay.map FastFrame.payload = replayPayloads attachment.history.chunks ∧
    (replay.getLast?.map FastFrame.endCursor).getD attachment.history.deltaFrom = attachment.history.deltaTo
  whole : a.ok = true → a.replayed = true ∧ live.map FastFrame.payload = attachment.livePayloads outbounds ∧
    ((replay ++ live).map FastFrame.payload).flatten =
      slice out attachment.history.deltaFrom attachment.history.deltaTo ++ (attachment.livePayloads outbounds).flatten

theorem fastChain_length (identity : TerminalReplayIdentity) (generation : String) : ∀ (sequence cursor : Nat)
    (payloads : List Bytes), (fastChain identity generation sequence cursor payloads).length = payloads.length
  | _, _, [] => rfl
  | sequence, cursor, payload :: rest => by rw [fastChain, List.length_cons, fastChain_length, List.length_cons]

/-- What is on the connection is read. -/
theorem FastWrote.decoded {identity : TerminalReplayIdentity} {generation : String} {start : Nat} {c : AttachConn}
    {payloads : List Bytes} (h : FastWrote identity generation start c payloads) (hseq : c.binaryFrames.length < 2 ^ 53) :
    decodeFastBinaryFrames (fastIdentity identity generation) 1 start c.binaryFrames =
      .ok (readChain identity generation 1 start payloads) := by
  have hsmall : ∀ frame ∈ c.binaryFrames, frame.length ≤ agentMaxFramePayload := by
    intro payload hp
    obtain ⟨frame, hf, rfl⟩ := List.mem_map.mp hp
    exact h.small frame (List.mem_of_mem_filter hf)
  rw [h.frames] at hsmall hseq ⊢
  rw [fastChain_length] at hseq
  exact decode_chain identity generation 1 start payloads hsmall (by unfold Js.maxSafeInteger; omega)

/-- What the writer has sent when it ends: a part of the snapshot, and behind all of it a part of the live output. -/
theorem attachWriter_sent (fails : Nat → Bool) (ready : Json) (identity : TerminalReplayIdentity) (attachment : Attachment)
    (m : CheckpointMemory) (clock : ReplayClock) (outbounds : List LiveOutbound) {a : AttachWritten}
    (ha : attachWriter fails ready identity attachment m clock outbounds = a) :
    ∃ replay live, FastWrote identity attachment.history.generation attachment.history.deltaFrom a.writer.conn (replay ++ live) ∧
      replay <+: replayPayloads attachment.history.chunks ∧ live <+: attachment.livePayloads outbounds ∧
      (live ≠ [] → a.replayed = true) ∧ (a.replayed = true → replay = replayPayloads attachment.history.chunks) ∧
      (a.ok = true → a.replayed = true ∧ live = attachment.livePayloads outbounds) := by
  have hstart : Chained identity attachment.history.generation attachment.history.deltaFrom
      { conn := { fails }, fastCursor := attachment.history.deltaFrom } [] :=
    ⟨⟨rfl, fun frame hf => by cases hf⟩, rfl, rfl⟩
  obtain ⟨replay, hprefix, hchained, hall⟩ :=
    (hstart.control ready).replay m attachment.allowGeneratedInput clock
  rw [List.nil_append] at hchained
  unfold attachWriter at ha
  simp only at ha
  split at ha
  · rename_i w heq
    rw [heq] at hchained
    subst ha
    refine ⟨replay, [], ?_, hprefix, List.nil_prefix, fun hn => absurd rfl hn,
      fun hr => absurd hr Bool.false_ne_true, fun hok => absurd hok Bool.false_ne_true⟩
    rw [List.append_nil]
    exact hchained.toFastWrote
  · rename_i w heq
    rw [heq] at hchained hall
    split at ha
    · rename_i hexit
      subst ha
      have hnone : attachment.livePayloads outbounds = [] := if_pos hexit
      refine ⟨replay, [], ?_, hprefix, List.nil_prefix, fun _ => rfl, fun _ => hall rfl, fun _ => ⟨rfl, hnone.symm⟩⟩
      rw [List.append_nil]
      exact (hchained.control _).toFastWrote
    · rename_i hexit
      subst ha
      have hlive : attachment.livePayloads outbounds = livePayloads outbounds := if_neg hexit
      obtain ⟨live, hsent, hwrote, hwhole⟩ := hchained.live outbounds
      rw [hlive]
      exact ⟨replay, live, hwrote, hprefix, hsent, fun _ => rfl, fun _ => hall rfl, fun hok => ⟨rfl, hwhole hok⟩⟩

/-- No more frames go out than there are payloads. -/
theorem attachWriter_count (fails : Nat → Bool) (ready : Json) (identity : TerminalReplayIdentity) (attachment : Attachment)
    (m : CheckpointMemory) (clock : ReplayClock) (outbounds : List LiveOutbound) :
    (attachWriter fails ready identity attachment m clock outbounds).writer.conn.binaryFrames.length ≤
      (replayPayloads attachment.history.chunks).length + (attachment.livePayloads outbounds).length := by
  obtain ⟨replay, live, hwrote, hreplay, hlive, -⟩ :=
    attachWriter_sent fails ready identity attachment m clock outbounds rfl
  rw [hwrote.frames, fastChain_length, List.length_append]
  exact Nat.add_le_add hreplay.length_le hlive.length_le

theorem fast_frames_agree {generation : String} {cols rows limit : Int} {localPTY : Bool} {es : List PaneEvent}
    {p : TerminalPane} (hrun : paneMachine.run (.start generation cols rows limit localPTY) es = some p)
    {request : HistorySyncRequest} {answers : PaneAnswers} {attachment : Attachment}
    (ha : (p.attachClient request answers).2 = .ok attachment) (identity : TerminalReplayIdentity) (m : CheckpointMemory)
    (clock : ReplayClock) (fails : Nat → Bool) (ready : Json) (outbounds : List LiveOutbound)
    (hseq : (attachWriter fails ready identity attachment m clock outbounds).writer.conn.binaryFrames.length < 2 ^ 53) :
    ∃ replay live, FramesAgree identity attachment outbounds p.out
      (attachWriter fails ready identity attachment m clock outbounds) replay live := by
  have hcurrent := attach_current hrun ha
  have hbytes : (replayPayloads attachment.history.chunks).flatten =
      slice p.out attachment.history.deltaFrom attachment.history.deltaTo := by
    rw [replayPayloads_flatten, hcurrent.chunks]
  generalize hw : attachWriter fails ready identity attachment m clock outbounds = a at hseq ⊢
  obtain ⟨replay, live, hwrote, hreplay, hlive, horder, hreplayed, hwhole⟩ :=
    attachWriter_sent fails ready identity attachment m clock outbounds hw
  have hdecoded := hwrote.decoded hseq
  rw [readChain_append] at hdecoded
  refine ⟨_, _, hdecoded, ?_, ?_, ?_, hbytes, ?_, ?_⟩
  · rw [readChain_payloads]
    exact hreplay
  · rw [readChain_payloads]
    exact hlive
  · intro hne
    refine horder fun hl => hne ?_
    rw [hl]
    rfl
  · intro hr
    refine ⟨by rw [readChain_payloads, hreplayed hr], ?_⟩
    rw [readChain_last, hreplayed hr, hbytes, length_slice (Nat.le_of_eq hcurrent.to_eq)]
    have := hcurrent.from_le
    omega
  · intro hok
    obtain ⟨hr, hl⟩ := hwhole hok
    refine ⟨hr, by rw [readChain_payloads, hl], ?_⟩
    rw [List.map_append, readChain_payloads, readChain_payloads, hreplayed hr, hl, List.flatten_append, hbytes]

/-- The pane puts out the rest of the rune, behind a control. -/
def splitRuneRest : List LiveOutbound := [⟨.text, [0x7b, 0x7d], false⟩, ⟨.binary, [0xa9], false⟩]

theorem fast_frames_agree_splitRune : ∃ p attachment replay live,
    paneMachine.run (.start "g" 80 24 0 true) attachSplitRune = some p ∧
      (p.attachClient {} {}).2 = .ok attachment ∧
      (replay ++ live).map FastFrame.payload = [[0x61, 0x62, 0xc3], [0xa9]] ∧
      FramesAgree ⟨"s", "w", "tab-1", "pane-1"⟩ attachment splitRuneRest p.out
        (attachWriter (fun _ => false) (.obj []) ⟨"s", "w", "tab-1", "pane-1"⟩ attachment blankMemory {} splitRuneRest)
        replay live := by
  obtain ⟨p, attachment, hrun, ha, hok, hlive, hchunks⟩ : ∃ p attachment,
      paneMachine.run (.start "g" 80 24 0 true) attachSplitRune = some p ∧
        (p.attachClient {} {}).2 = .ok attachment ∧
        (attachWriter (fun _ => false) (.obj []) ⟨"s", "w", "tab-1", "pane-1"⟩ attachment blankMemory {}
          splitRuneRest).ok = true ∧
        attachment.livePayloads splitRuneRest = [[0xa9]] ∧ replayPayloads attachment.history.chunks = [[0x61, 0x62, 0xc3]] :=
    ⟨_, _, rfl, rfl, by decide +kernel, rfl, rfl⟩
  have hcount := attachWriter_count (fun _ => false) (.obj []) ⟨"s", "w", "tab-1", "pane-1"⟩ attachment blankMemory {} splitRuneRest
  rw [hlive, hchunks] at hcount
  have hseq := Nat.lt_of_le_of_lt hcount (show 2 < 2 ^ 53 by decide)
  obtain ⟨replay, live, h⟩ := fast_frames_agree hrun ha ⟨"s", "w", "tab-1", "pane-1"⟩ blankMemory {} (fun _ => false) (.obj [])
    splitRuneRest hseq
  obtain ⟨hr, hl, -⟩ := h.whole hok
  refine ⟨p, attachment, replay, live, hrun, ha, ?_, h⟩
  rw [List.map_append, (h.replayed hr).1, hl, hlive, hchunks]
  rfl

end Webshell
