import Webshell.Crc32
import Webshell.Json
import Webshell.QueueStream

/-!
# Binary frames of the queue

The agent's host writes a frame as a magic word, the length of a JSON header,
the header and the payload. The browser takes it apart again.
-/

namespace Webshell

open GoText

def terminalQueueProtocolVersion : Nat := 1

def terminalQueueBinaryMagic : Bytes := "LCQ1".toList.map fun c => UInt8.ofNat c.toNat

def terminalQueueBinaryPrefixSize : Nat := 8

/-- What a subscription says about the channel it is for. -/
structure TerminalQueueSubscription where
  paneID : String
  streamID : String
  channelGeneration : Nat
  historyGeneration : String := ""
  deriving DecidableEq

structure TerminalQueueBinaryHeader where
  protocolVersion : Nat
  paneID : String
  streamID : String
  channelGeneration : Nat
  startCursor : String
  endCursor : String
  sequence : Nat
  checksum : String
  historyGeneration : String
  deriving DecidableEq

/-! ## Writing -/

/-- `encoding/json` on a number without a sign. -/
def jsonUint (n : Nat) : Json := .num (Nat.toDigits 10 n)

def jsonString (s : String) : Json := .str s.toList

def TerminalQueueBinaryHeader.json (h : TerminalQueueBinaryHeader) : Json :=
  .obj ([
    ("protocol_version".toList, jsonUint h.protocolVersion),
    ("pane_id".toList, jsonString h.paneID),
    ("stream_id".toList, jsonString h.streamID),
    ("channel_generation".toList, jsonUint h.channelGeneration),
    ("start_cursor".toList, jsonString h.startCursor),
    ("end_cursor".toList, jsonString h.endCursor),
    ("sequence".toList, jsonUint h.sequence),
    ("checksum".toList, jsonString h.checksum)] ++
    if h.historyGeneration = "" then [] else [("history_generation".toList, jsonString h.historyGeneration)])

def encodeUtf8 (cs : List Char) : Bytes := cs.flatMap String.utf8EncodeChar

/-- `binary.BigEndian.PutUint32`. -/
def putUint32 (n : Nat) : Bytes :=
  [UInt8.ofNat (n / 16777216), UInt8.ofNat (n / 65536), UInt8.ofNat (n / 256), UInt8.ofNat n]

def terminalPayloadChecksum (payload : Bytes) : String :=
  encodeToString ((putUint32 (Crc32.checksum payload).toNat).map UInt8.toFin)

/-- The frame, unless its header is too large. -/
def encodeTerminalQueueBinaryFrame (header : TerminalQueueBinaryHeader) (payload : Bytes) : Option Bytes :=
  let headerData := encodeUtf8 header.json.marshal
  if headerData.length = 0 ∨ 64 * 1024 < headerData.length then none
  else some (terminalQueueBinaryMagic ++ putUint32 headerData.length ++ headerData ++ payload)

/-- The header `writeOutbound` puts before a binary entry. -/
def QueueOutbound.header (o : QueueOutbound) (sub : TerminalQueueSubscription) : TerminalQueueBinaryHeader where
  protocolVersion := terminalQueueProtocolVersion
  paneID := sub.paneID
  streamID := sub.streamID
  channelGeneration := sub.channelGeneration
  startCursor := formatUint o.startCursor
  endCursor := formatUint o.endCursor
  sequence := o.binarySequence
  checksum := terminalPayloadChecksum o.data
  historyGeneration := sub.historyGeneration

/-- The frame of a binary entry. -/
def QueueOutbound.frame (o : QueueOutbound) (sub : TerminalQueueSubscription) : Option Bytes :=
  encodeTerminalQueueBinaryFrame (o.header sub) o.data

/-- The message `writePaneControl` writes around a payload. -/
def paneControl (sub : TerminalQueueSubscription) (payload : Json) : Json :=
  .obj [
    ("type".toList, jsonString "pane-control"),
    ("protocol_version".toList, jsonUint terminalQueueProtocolVersion),
    ("pane_id".toList, jsonString sub.paneID),
    ("stream_id".toList, jsonString sub.streamID),
    ("channel_generation".toList, jsonUint sub.channelGeneration),
    ("payload".toList, payload)]

/-! ## Reading -/

/-- The text of UTF-8 bytes. Where they are not UTF-8 the browser puts U+FFFD; no header written
here comes to that. -/
def decodeUtf8 (data : Bytes) : Option (List Char) := data.toByteArray.utf8Decode?.map Array.toList

/-- `DataView.getUint32`, at the start of `data` and big-endian. -/
def getUint32 (data : Bytes) : Nat := (data.take 4).foldl (fun n b => 256 * n + b.toNat) 0

/-- The header and the payload of a frame, or why it is none. -/
def decodeTerminalQueueBinaryFrame (data : Bytes) : Except String (Json × Bytes) :=
  if data.length < terminalQueueBinaryPrefixSize then .error "terminal queue binary frame is truncated"
  else if data.take 4 ≠ terminalQueueBinaryMagic then .error "terminal queue binary frame has invalid magic"
  else
    let headerLength := getUint32 (data.drop 4)
    if headerLength = 0 ∨ data.length < terminalQueueBinaryPrefixSize + headerLength then
      .error "terminal queue binary frame has invalid header length"
    else
      let rest := data.drop terminalQueueBinaryPrefixSize
      match (decodeUtf8 (rest.take headerLength)).bind Json.parse with
      | none => .error "terminal queue binary frame has invalid header"
      | some header => .ok (header, rest.drop headerLength)

/-! ## What is written is read back -/

theorem decodeUtf8_encodeUtf8 (cs : List Char) : decodeUtf8 (encodeUtf8 cs) = some cs := by
  unfold decodeUtf8 encodeUtf8
  have h := List.utf8Decode?_utf8Encode (l := cs)
  unfold List.utf8Encode at h
  rw [h]
  rfl

theorem getUint32_putUint32 {n : Nat} (h : n < 2 ^ 32) (rest : Bytes) : getUint32 (putUint32 n ++ rest) = n := by
  simp only [getUint32, putUint32, List.cons_append, List.nil_append, List.take_succ_cons, List.take_zero,
    List.foldl_cons, List.foldl_nil, UInt8.toNat_ofNat']
  omega

/-- No leading zero. -/
theorem toDigits_head {n : Nat} (h : 0 < n) : (Nat.toDigits 10 n).head? ≠ some '0' := by
  induction n using Nat.strongRecOn with
  | ind n ih =>
    by_cases hn : n < 10
    · rw [Nat.toDigits_of_lt_base hn]
      have : ∀ m < 10, 0 < m → [Nat.digitChar m].head? ≠ some '0' := by decide
      exact this n hn h
    · rw [Nat.toDigits_of_base_le (by decide) (by omega), List.head?_append_of_ne_nil _ Nat.toDigits_ne_nil]
      exact ih (n / 10) (by omega) (by omega)

theorem isNumber_toDigits (n : Nat) : Json.isNumber (Nat.toDigits 10 n) = true := by
  have hdig := digits_isDigit n
  have hne : Nat.toDigits 10 n ≠ [] := Nat.toDigits_ne_nil
  rcases Nat.eq_zero_or_pos n with rfl | h
  · rfl
  · have hz := toDigits_head h
    cases hd : Nat.toDigits 10 n with
    | nil => exact absurd hd hne
    | cons c cs =>
      rw [hd] at hdig hz
      have hc : c.isDigit = true := hdig c (List.mem_cons_self ..)
      have hall : (c :: cs).dropWhile Char.isDigit = [] := List.dropWhile_eq_nil_iff.mpr hdig
      have hminus : c ≠ '-' := by rintro rfl; exact absurd hc (by decide)
      have hzero : c ≠ '0' := by rintro rfl; exact hz rfl
      unfold Json.isNumber Json.afterDigits
      simp [hminus, hzero, hc, hall]

theorem numeric_jsonUint (n : Nat) : (jsonUint n).Numeric := by
  unfold jsonUint Json.Numeric
  refine ⟨isNumber_toDigits n, fun c hc => ?_⟩
  simp [Json.isNumberChar, digits_isDigit n c hc]

theorem numeric_json (h : TerminalQueueBinaryHeader) : h.json.Numeric := by
  unfold TerminalQueueBinaryHeader.json
  split <;> simp [Json.Numeric, Json.NumericFields, jsonString, numeric_jsonUint]

/-- A magic word, the length of a header, the header and a payload come apart again. -/
structure Envelope (frame magic header payload : Bytes) : Prop where
  length_eq : frame.length = 8 + header.length + payload.length
  magic_eq : frame.take 4 = magic
  header_length : getUint32 (frame.drop 4) = header.length
  header_eq : (frame.drop 8).take header.length = header
  payload_eq : (frame.drop 8).drop header.length = payload

theorem envelope {magic header : Bytes} (payload : Bytes) (hm : magic.length = 4) (hh : header.length < 2 ^ 32) :
    Envelope (magic ++ putUint32 header.length ++ header ++ payload) magic header payload := by
  have hput : (putUint32 header.length).length = 4 := rfl
  have hprefix : (magic ++ putUint32 header.length).length = 8 := by rw [List.length_append, hm, hput]
  have hrest : (magic ++ putUint32 header.length ++ header ++ payload).drop 8 = header ++ payload := by
    rw [List.append_assoc, List.drop_left' hprefix]
  refine ⟨?_, ?_, ?_, ?_, ?_⟩
  · simp only [List.length_append, hm, hput]
  · simp only [List.append_assoc, List.take_left' hm]
  · simp only [List.append_assoc, List.drop_left' hm, getUint32_putUint32 hh]
  · rw [hrest, List.take_left' rfl]
  · rw [hrest, List.drop_left' rfl]

/-- The browser takes a frame apart into what it was made of. -/
theorem decode_encode {header : TerminalQueueBinaryHeader} {payload frame : Bytes}
    (h : encodeTerminalQueueBinaryFrame header payload = some frame) :
    decodeTerminalQueueBinaryFrame frame = .ok (header.json, payload) := by
  unfold encodeTerminalQueueBinaryFrame at h
  generalize hd : encodeUtf8 header.json.marshal = headerData at h
  simp only at h
  split at h
  · cases h
  · rename_i hlen
    simp only [not_or, Nat.not_lt] at hlen
    cases h
    have he := @envelope terminalQueueBinaryMagic headerData payload rfl (by omega)
    have htext : (decodeUtf8 headerData).bind Json.parse = some header.json := by
      rw [← hd, decodeUtf8_encodeUtf8]
      exact Json.parse_marshal (numeric_json header)
    unfold decodeTerminalQueueBinaryFrame terminalQueueBinaryPrefixSize
    rw [if_neg (by rw [he.length_eq]; omega), if_neg (by rw [he.magic_eq]; simp)]
    simp only [he.header_length]
    rw [if_neg (by rw [he.length_eq]; omega), he.header_eq, he.payload_eq]
    simp only [htext]

end Webshell
