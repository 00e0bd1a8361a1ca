import Webshell.Base64
import Webshell.PaneReplay
import Webshell.QueueFrame

/-!
# What the agent writes to an attached client

An attach is answered with the snapshot taken for it: the parts of a memory
checkpoint, a start, the bytes in frames of their own size, a completion.
-/

namespace Webshell

open GoText

def historyReplayChunk : Nat := 512 * 1024

/-- The bytes of a checkpoint that go into one part. -/
def checkpointPartBytes : Nat := 65536

def terminalCheckpointMaxCompressed : Nat := 16 * 2 ^ 20

def agentMaxFramePayload : Nat := 32 * 2 ^ 20

structure TerminalReplayIdentity where
  selector : String
  workspaceGeneration : String
  tabID : String
  paneID : String

abbrev SHA256Sum := { data : List (Fin 256) // data.length = 32 }

/-- The memory `snapshot` has compressed. -/
structure CheckpointMemory where
  compressed : Bytes
  /-- gzip writes a header whatever it compresses. -/
  written : compressed ≠ []
  /-- More is refused. -/
  bounded : compressed.length ≤ terminalCheckpointMaxCompressed
  wasmSHA256 : SHA256Sum
  memorySHA256 : SHA256Sum
  memoryBytes : UInt32
  handle : UInt32
  stack : UInt32

/-- The times a replay is written with. -/
structure ReplayClock where
  startedUnixMs : Int := 0
  finishedUnixMs : Int := 0
  durationMs : Int := 0

inductive AgentFrame
  | text (payload : Json)
  | binary (payload : Bytes)

/-- `encoding/json` on an `int`, which has 64 bits. -/
def jsonInt (n : Int) : Json :=
  match n.bmod uint64Limit with
  | .ofNat m => .num (Nat.toDigits 10 m)
  | .negSucc m => .num ('-' :: Nat.toDigits 10 (m + 1))

def jsonCursor (n : Nat) : Json := jsonString (formatUint n)

def formatTerminalResizeEpoch (epoch : Nat) : String := if epoch = 0 then "" else formatUint epoch

/-! ## The checkpoint -/

/-- `data` cut after every `size` bytes; no more of them are left than `fuel`. -/
def cutEvery (size : Nat) : Nat → Bytes → List Bytes
  | 0, _ => []
  | fuel + 1, data => if data = [] then [] else data.take size :: cutEvery size fuel (data.drop size)

def CheckpointMemory.parts (m : CheckpointMemory) : List Bytes := cutEvery checkpointPartBytes m.compressed.length m.compressed

/-- `checkpoint.Parts`, as it is computed. -/
def CheckpointMemory.partCount (m : CheckpointMemory) : Nat := (m.compressed.length + 65535) / 65536

def TerminalMemoryCheckpoint.json (c : TerminalMemoryCheckpoint) (m : CheckpointMemory) : Json :=
  .obj [
    ("protocol".toList, jsonString TerminalMemoryCheckpointProtocol),
    ("wasm_sha256".toList, jsonString (encodeToString m.wasmSHA256.val)),
    ("memory_sha256".toList, jsonString (encodeToString m.memorySHA256.val)),
    ("memory_bytes".toList, jsonUint m.memoryBytes.toNat),
    ("handle".toList, jsonUint m.handle.toNat),
    ("stack".toList, jsonUint m.stack.toNat),
    ("cols".toList, jsonInt c.cols),
    ("rows".toList, jsonInt c.rows),
    ("scrollback_lines".toList, jsonInt c.scrollbackLines),
    ("scrollback_bytes".toList, jsonInt c.scrollbackBytes),
    ("cursor".toList, jsonCursor c.cursor),
    ("parts".toList, jsonInt m.partCount)]

def checkpointPart (identity : TerminalReplayIdentity) (generation : String) (c : TerminalMemoryCheckpoint) (index : Nat)
    (part : Bytes) : Json :=
  .obj [
    ("type".toList, jsonString "terminal-checkpoint-part"),
    ("selector".toList, jsonString identity.selector),
    ("pane_id".toList, jsonString identity.paneID),
    ("history_generation".toList, jsonString generation),
    ("cursor".toList, jsonCursor c.cursor),
    ("index".toList, jsonInt index),
    ("data".toList, .str (Base64.encode part))]

/-! ## Start and completion -/

def TerminalReplayIdentity.tabFields (identity : TerminalReplayIdentity) : List (List Char × Json) :=
  if identity.workspaceGeneration ≠ "" ∧ identity.tabID ≠ "" then [
    ("workspace_generation".toList, jsonString identity.workspaceGeneration),
    ("tab_id".toList, jsonString identity.tabID)]
  else []

def baselineFields (history : PaneHistorySnapshot) (m : CheckpointMemory) : List (List Char × Json) :=
  match history.checkpoint with
  | some checkpoint => [
    ("memory_checkpoint".toList, checkpoint.json m),
    ("recovery_baseline".toList, jsonString TerminalMemoryCheckpointProtocol)]
  | none =>
    ("recovery_baseline".toList, jsonString "raw-history") ::
      if history.checkpointFallback then [("checkpoint_fallback".toList, jsonString "parser_failed")] else []

def historyBytes (history : PaneHistorySnapshot) : Nat := (history.chunks.map List.length).sum

/-- The fields of a start; the encoder sorts them by their keys, of which there are no two alike. -/
def historyReplayStart (identity : TerminalReplayIdentity) (history : PaneHistorySnapshot) (m : CheckpointMemory)
    (allowGeneratedInput : Bool) (clock : ReplayClock) : Json :=
  .obj (identity.tabFields ++ baselineFields history m ++ [
    ("type".toList, jsonString "history-replay-start"),
    ("resize_protocol".toList, jsonString "epoch-v1"),
    ("selector".toList, jsonString identity.selector),
    ("pane_id".toList, jsonString identity.paneID),
    ("allow_generated_input".toList, .bool allowGeneratedInput),
    ("history_generation".toList, jsonString history.generation),
    ("server_base_cursor".toList, jsonCursor history.serverBase),
    ("server_end_cursor".toList, jsonCursor history.serverEnd),
    ("sync_mode".toList, jsonString history.syncMode),
    ("delta_from_cursor".toList, jsonCursor history.deltaFrom),
    ("delta_to_cursor".toList, jsonCursor history.deltaTo),
    ("resize_epoch".toList, jsonString (formatTerminalResizeEpoch history.resizeEpoch)),
    ("cols".toList, jsonInt history.cols),
    ("rows".toList, jsonInt history.rows),
    ("pixel_width".toList, jsonInt history.pixelWidth),
    ("pixel_height".toList, jsonInt history.pixelHeight),
    ("server_history_bytes".toList, jsonInt (historyBytes history)),
    ("server_history_chunks".toList, jsonInt history.chunks.length),
    ("server_replay_frames".toList, jsonInt 0),
    ("server_replay_started_unix_ms".toList, jsonInt clock.startedUnixMs)])

def historyReplayComplete (identity : TerminalReplayIdentity) (history : PaneHistorySnapshot) (replayFrames : Nat)
    (clock : ReplayClock) : Json :=
  .obj (identity.tabFields ++ [
    ("type".toList, jsonString "history-replay-complete"),
    ("selector".toList, jsonString identity.selector),
    ("pane_id".toList, jsonString identity.paneID),
    ("history_generation".toList, jsonString history.generation),
    ("history_cursor".toList, jsonCursor history.deltaTo),
    ("server_history_bytes".toList, jsonInt (historyBytes history)),
    ("server_history_chunks".toList, jsonInt history.chunks.length),
    ("server_replay_frames".toList, jsonInt replayFrames),
    ("server_replay_started_unix_ms".toList, jsonInt clock.startedUnixMs),
    ("server_replay_finished_unix_ms".toList, jsonInt clock.finishedUnixMs),
    ("server_replay_duration_ms".toList, jsonInt clock.durationMs)])

/-! ## The bytes -/

/-- The frames flushed so far, and what is pending. -/
structure ReplayBuffer where
  flushed : List Bytes := []
  pending : Bytes := []

def ReplayBuffer.flush (b : ReplayBuffer) : ReplayBuffer :=
  if b.pending = [] then b else { flushed := b.flushed ++ [b.pending], pending := [] }

/-- The inner loop: a full buffer is flushed, then the chunk fills what is available. -/
def ReplayBuffer.append : Nat → ReplayBuffer → Bytes → ReplayBuffer
  | 0, b, _ => b
  | fuel + 1, b, chunk =>
    if chunk = [] then b
    else
      let b := if historyReplayChunk - b.pending.length = 0 then b.flush else b
      let chunkSize := min chunk.length (historyReplayChunk - b.pending.length)
      ReplayBuffer.append fuel { b with pending := b.pending ++ chunk.take chunkSize } (chunk.drop chunkSize)

/-- The binary payloads of a replay. -/
def replayPayloads (chunks : List Bytes) : List Bytes :=
  (chunks.foldl (fun b chunk => ReplayBuffer.append chunk.length b chunk) {}).flush.flushed

/-- `writeAgentHistoryReplay` without the integrity protocol, as the frames it writes. -/
def writeAgentHistoryReplay (identity : TerminalReplayIdentity) (history : PaneHistorySnapshot) (m : CheckpointMemory)
    (allowGeneratedInput : Bool) (clock : ReplayClock) : List AgentFrame :=
  let parts := match history.checkpoint with
    | some checkpoint => m.parts.mapIdx fun index part => .text (checkpointPart identity history.generation checkpoint index part)
    | none => []
  let payloads := replayPayloads history.chunks
  parts ++ .text (historyReplayStart identity history m allowGeneratedInput clock) :: payloads.map .binary ++
    [.text (historyReplayComplete identity history payloads.length clock)]

/-! ## Frames -/

/-- The length of a frame's payload; a text is the encoder's. -/
def AgentFrame.size : AgentFrame → Nat
  | .text payload => (encodeUtf8 payload.marshal).length
  | .binary payload => payload.length

/-- The error of `WriteAgentFrame` on a frame, beside those of the connection. -/
def WriteAgentFrame (frame : AgentFrame) : Option String :=
  if agentMaxFramePayload < frame.size then some ("agent frame payload too large: " ++ frame.size.repr) else none

/-! ## Cutting -/

theorem cutEvery_flatten {size : Nat} (hs : 0 < size) : ∀ {fuel : Nat} {data : Bytes}, data.length ≤ fuel →
    (cutEvery size fuel data).flatten = data
  | 0, data, h => by rw [List.eq_nil_of_length_eq_zero (Nat.le_zero.mp h)]; rfl
  | fuel + 1, data, h => by
    rw [cutEvery]
    split
    · rename_i hd
      rw [hd]
      rfl
    · rename_i hd
      have hpos := List.length_pos_of_ne_nil hd
      have hle : (data.drop size).length ≤ fuel := by
        rw [List.length_drop]
        omega
      rw [List.flatten_cons, cutEvery_flatten hs hle, List.take_append_drop]

theorem cutEvery_pieces {size : Nat} : ∀ {fuel : Nat} {data : Bytes}, ∀ piece ∈ cutEvery size fuel data, piece.length ≤ size
  | 0, _, _, h => by cases h
  | fuel + 1, data, piece, h => by
    rw [cutEvery] at h
    split at h
    · cases h
    · rcases List.mem_cons.mp h with rfl | h
      · exact List.length_take_le ..
      · exact cutEvery_pieces piece h

theorem cutEvery_length {size : Nat} (hs : 0 < size) : ∀ {fuel : Nat} {data : Bytes}, data.length ≤ fuel →
    (cutEvery size fuel data).length = (data.length + (size - 1)) / size
  | 0, data, h => by
    rw [List.eq_nil_of_length_eq_zero (Nat.le_zero.mp h), cutEvery, List.length_nil, List.length_nil, Nat.zero_add,
      Nat.div_eq_of_lt (by omega)]
  | fuel + 1, data, h => by
    rw [cutEvery]
    split
    · rename_i hd
      rw [hd, List.length_nil, List.length_nil, Nat.zero_add, Nat.div_eq_of_lt (by omega)]
    · rename_i hd
      have hpos := List.length_pos_of_ne_nil hd
      have hle : (data.drop size).length ≤ fuel := by
        rw [List.length_drop]
        omega
      rw [List.length_cons, cutEvery_length hs hle, List.length_drop]
      by_cases hlong : size ≤ data.length
      · rw [show data.length + (size - 1) = (data.length - size + (size - 1)) + size by omega, Nat.add_div_right _ hs]
      · rw [show data.length - size + (size - 1) = size - 1 by omega, Nat.div_eq_of_lt (by omega),
          show data.length + (size - 1) = (data.length - 1) + size by omega, Nat.add_div_right _ hs,
          Nat.div_eq_of_lt (by omega)]

namespace CheckpointMemory

theorem parts_flatten (m : CheckpointMemory) : m.parts.flatten = m.compressed :=
  cutEvery_flatten (by decide) (Nat.le_refl _)

theorem parts_length (m : CheckpointMemory) : m.parts.length = m.partCount := cutEvery_length (by decide) (Nat.le_refl _)

theorem partCount_bounds (m : CheckpointMemory) : 0 < m.partCount ∧ m.partCount ≤ 256 := by
  have hpos := List.length_pos_of_ne_nil m.written
  have hle := m.bounded
  unfold terminalCheckpointMaxCompressed at hle
  unfold partCount
  omega

theorem parts_piece (m : CheckpointMemory) : ∀ part ∈ m.parts, part.length ≤ 65536 := fun part h => cutEvery_pieces part h

end CheckpointMemory

/-! ## Filling frames -/

namespace ReplayBuffer

/-- All that has been put into the buffer. -/
def bytes (b : ReplayBuffer) : Bytes := b.flushed.flatten ++ b.pending

/-- No frame and no buffer is larger than the buffer's capacity, and no frame is empty. -/
structure Fits (b : ReplayBuffer) : Prop where
  flushed : ∀ frame ∈ b.flushed, frame ≠ [] ∧ frame.length ≤ historyReplayChunk
  pending : b.pending.length ≤ historyReplayChunk

theorem flush_bytes (b : ReplayBuffer) : b.flush.bytes = b.bytes := by
  unfold flush
  split
  · rfl
  · simp [bytes]

theorem flush_fits {b : ReplayBuffer} (h : b.Fits) : b.flush.Fits := by
  unfold flush
  split
  · exact h
  · rename_i hp
    refine ⟨fun frame hf => ?_, Nat.zero_le _⟩
    rcases List.mem_append.mp hf with hf | hf
    · exact h.flushed frame hf
    · rw [List.mem_singleton.mp hf]
      exact ⟨hp, h.pending⟩

theorem flush_pending (b : ReplayBuffer) : b.flush.pending = [] := by
  unfold flush
  split
  · assumption
  · rfl

/-- The chunk is put behind all that was put in before. -/
theorem append_spec : ∀ (fuel : Nat) (b : ReplayBuffer) (chunk : Bytes), b.Fits → chunk.length ≤ fuel →
    (ReplayBuffer.append fuel b chunk).bytes = b.bytes ++ chunk ∧ (ReplayBuffer.append fuel b chunk).Fits
  | 0, b, chunk, h, hl => by
    rw [List.eq_nil_of_length_eq_zero (Nat.le_zero.mp hl), List.append_nil]
    exact ⟨rfl, h⟩
  | fuel + 1, b, chunk, h, hl => by
    rw [ReplayBuffer.append]
    split
    · rename_i hc
      rw [hc, List.append_nil]
      exact ⟨rfl, h⟩
    · rename_i hc
      have hpos := List.length_pos_of_ne_nil hc
      obtain ⟨b', hb', hbytes, hfits, havailable⟩ : ∃ b', (if historyReplayChunk - b.pending.length = 0 then b.flush else b) = b' ∧
          b'.bytes = b.bytes ∧ b'.Fits ∧ 0 < historyReplayChunk - b'.pending.length := by
        split
        · refine ⟨_, rfl, b.flush_bytes, flush_fits h, ?_⟩
          rw [b.flush_pending]
          decide
        · exact ⟨b, rfl, rfl, h, by omega⟩
      rw [hb']
      simp only
      have hsize : chunk.length - min chunk.length (historyReplayChunk - b'.pending.length) ≤ fuel := by omega
      obtain ⟨hout, hout'⟩ := append_spec fuel
        { b' with pending := b'.pending ++ chunk.take (min chunk.length (historyReplayChunk - b'.pending.length)) }
        (chunk.drop (min chunk.length (historyReplayChunk - b'.pending.length)))
        ⟨hfits.flushed, by
          have hp := hfits.pending
          simp only [List.length_append, List.length_take]
          omega⟩
        (by rw [List.length_drop]; exact hsize)
      refine ⟨?_, hout'⟩
      rw [hout, ← hbytes]
      unfold bytes
      simp only [List.append_assoc, List.take_append_drop]

theorem fold_spec : ∀ (chunks : List Bytes) (b : ReplayBuffer), b.Fits →
    (chunks.foldl (fun b chunk => ReplayBuffer.append chunk.length b chunk) b).bytes = b.bytes ++ chunks.flatten ∧
      (chunks.foldl (fun b chunk => ReplayBuffer.append chunk.length b chunk) b).Fits
  | [], b, h => by simpa using h
  | chunk :: chunks, b, h => by
    obtain ⟨hb, hf⟩ := append_spec _ b chunk h (Nat.le_refl _)
    obtain ⟨hb', hf'⟩ := fold_spec chunks _ hf
    refine ⟨?_, hf'⟩
    rw [List.foldl_cons, hb', hb, List.flatten_cons, List.append_assoc]

end ReplayBuffer

theorem replayPayloads_fits (chunks : List Bytes) : ∀ payload ∈ replayPayloads chunks,
    payload ≠ [] ∧ payload.length ≤ historyReplayChunk := by
  have hstart : ReplayBuffer.Fits {} := ⟨fun _ h => absurd h List.not_mem_nil, Nat.zero_le _⟩
  exact (ReplayBuffer.flush_fits (ReplayBuffer.fold_spec chunks _ hstart).2).flushed

/-- The payloads are the chunks, put together. -/
theorem replayPayloads_flatten (chunks : List Bytes) : (replayPayloads chunks).flatten = chunks.flatten := by
  have hstart : ReplayBuffer.Fits {} := ⟨fun _ h => absurd h List.not_mem_nil, Nat.zero_le _⟩
  obtain ⟨hb, -⟩ := ReplayBuffer.fold_spec chunks _ hstart
  have hflush := ReplayBuffer.flush_bytes (chunks.foldl (fun b chunk => ReplayBuffer.append chunk.length b chunk) {})
  rw [hb] at hflush
  unfold ReplayBuffer.bytes at hflush
  rw [ReplayBuffer.flush_pending, List.append_nil] at hflush
  exact hflush

/-! ## The length of a text -/

theorem escapeChar_length (c : Char) : (Json.escapeChar c).length ≤ 6 := by
  unfold Json.escapeChar Json.escapeUnicode
  repeat' split
  all_goals simp

theorem quote_length (s : List Char) : (Json.quote s).length ≤ 6 * s.length + 2 := by
  have hflat : (s.flatMap Json.escapeChar).length ≤ 6 * s.length := by
    induction s with
    | nil => exact Nat.le_refl _
    | cons c s ih =>
      have hc := escapeChar_length c
      simp only [List.flatMap_cons, List.length_append, List.length_cons]
      omega
  unfold Json.quote
  simp only [List.length_cons, List.length_append, List.length_nil]
  omega

/-- Base64 is written as it is. -/
theorem quote_encode (data : Bytes) : Json.quote (Base64.encode data) = '"' :: (Base64.encode data ++ ['"']) := by
  have halphabet : Base64.alphabet.all (fun c => Json.escapeChar c = [c]) = true := by decide +kernel
  have hplain : ∀ s : List Char, (∀ c ∈ s, Json.escapeChar c = [c]) → s.flatMap Json.escapeChar = s := by
    intro s
    induction s with
    | nil => exact fun _ => rfl
    | cons c s ih =>
      intro h
      rw [List.flatMap_cons, h c (List.mem_cons_self ..), ih fun x hx => h x (List.mem_cons_of_mem _ hx)]
      rfl
  unfold Json.quote
  rw [hplain]
  intro c hc
  rcases Base64.encode_chars data c hc with hc | rfl
  · exact of_decide_eq_true (List.all_eq_true.mp halphabet c hc)
  · decide

theorem encodeUtf8_length (cs : List Char) : (encodeUtf8 cs).length ≤ 4 * cs.length := by
  unfold encodeUtf8
  induction cs with
  | nil => exact Nat.le_refl _
  | cons c cs ih =>
    have hc : (String.utf8EncodeChar c).length ≤ 4 := by
      rw [String.length_utf8EncodeChar]
      exact c.utf8Size_le_four
    simp only [List.flatMap_cons, List.length_append, List.length_cons]
    omega

/-- At most `count` fields with short keys, whose values take `total` characters. -/
structure FieldsWithin (fields : List (List Char × Json)) (count total : Nat) : Prop where
  keys : ∀ f ∈ fields, f.1.length ≤ 32
  count : fields.length ≤ count
  total : (fields.map fun f => f.2.marshal.length).sum ≤ total

namespace FieldsWithin

theorem nil : FieldsWithin [] 0 0 := ⟨fun _ h => absurd h List.not_mem_nil, Nat.le_refl _, Nat.le_refl _⟩

theorem cons (key : String) {value : Json} {fields : List (List Char × Json)} {count total n : Nat}
    (hk : key.toList.length ≤ 32) (hv : value.marshal.length ≤ n) (h : FieldsWithin fields count total) :
    FieldsWithin ((key.toList, value) :: fields) (count + 1) (n + total) where
  keys := List.forall_mem_cons.mpr ⟨hk, h.keys⟩
  count := Nat.succ_le_succ h.count
  total := Nat.add_le_add hv h.total

theorem append {fields fields' : List (List Char × Json)} {count total count' total' : Nat}
    (h : FieldsWithin fields count total) (h' : FieldsWithin fields' count' total') :
    FieldsWithin (fields ++ fields') (count + count') (total + total') where
  keys := List.forall_mem_append.mpr ⟨h.keys, h'.keys⟩
  count := by
    rw [List.length_append]
    exact Nat.add_le_add h.count h'.count
  total := by
    rw [List.map_append, List.sum_append]
    exact Nat.add_le_add h.total h'.total

theorem mono {fields : List (List Char × Json)} {count total count' total' : Nat} (h : FieldsWithin fields count total)
    (hc : count ≤ count') (ht : total ≤ total') : FieldsWithin fields count' total' :=
  ⟨h.keys, Nat.le_trans h.count hc, Nat.le_trans h.total ht⟩

theorem marshal {fields : List (List Char × Json)} {count total : Nat} (h : FieldsWithin fields count total) :
    (Json.obj fields).marshal.length ≤ 2 + 200 * count + total := by
  have hfields : ∀ fields : List (List Char × Json), (∀ f ∈ fields, f.1.length ≤ 32) →
      (Json.marshalFields fields).length ≤ 200 * fields.length + (fields.map fun f => f.2.marshal.length).sum := by
    intro fields
    induction fields with
    | nil => exact fun _ => Nat.le_refl _
    | cons f fields ih =>
      intro h
      obtain ⟨key, value⟩ := f
      have hk := quote_length key
      have hle : key.length ≤ 32 := h (key, value) (List.mem_cons_self ..)
      have hrest := ih fun f hf => h f (List.mem_cons_of_mem _ hf)
      cases fields with
      | nil =>
        simp only [Json.marshalFields, List.length_append, List.length_cons, List.length_nil, List.map_cons, List.map_nil,
          List.sum_cons, List.sum_nil]
        omega
      | cons g fields =>
        simp only [Json.marshalFields, List.length_append, List.length_cons, List.map_cons, List.sum_cons] at hrest ⊢
        omega
  have hlen := hfields fields h.keys
  have hcount := h.count
  have htotal := h.total
  simp only [Json.marshal, List.length_cons, List.length_append, List.length_nil]
  omega

end FieldsWithin

theorem jsonString_length (s : String) : (jsonString s).marshal.length ≤ 6 * s.toList.length + 2 := by
  unfold jsonString
  rw [Json.marshal]
  exact quote_length _

theorem jsonString_short {s : String} {n : Nat} (h : s.toList.length ≤ n) : (jsonString s).marshal.length ≤ 6 * n + 2 := by
  have hs := jsonString_length s
  omega

theorem jsonInt_length (n : Int) : (jsonInt n).marshal.length ≤ 21 := by
  have hlow : -(2 ^ 63) ≤ n.bmod uint64Limit := by
    have h := Int.le_bmod (x := n) (m := uint64Limit) (by decide)
    unfold uint64Limit at h ⊢
    omega
  have hhigh : n.bmod uint64Limit < 2 ^ 63 := by
    have h := Int.bmod_lt (x := n) (m := uint64Limit) (by decide)
    unfold uint64Limit at h ⊢
    omega
  unfold jsonInt
  cases hm : n.bmod uint64Limit with
  | ofNat m =>
    have hm' : (m : Int) < 2 ^ 63 := by
      rw [hm] at hhigh
      exact hhigh
    have hd := Nat.toDigits_length 10 m 20 (by decide) (by omega)
    simp only [Json.marshal]
    omega
  | negSucc m =>
    have hd := Nat.toDigits_length 10 (m + 1) 20 (by decide) (by rw [hm] at hlow; omega)
    simp only [Json.marshal, List.length_cons]
    omega

theorem jsonUint_length {n : Nat} (h : n < 10 ^ 20) : (jsonUint n).marshal.length ≤ 20 := Nat.toDigits_length 10 n 20 (by decide) h

theorem jsonCursor_length {n : Nat} (h : n < uint64Limit) : (jsonCursor n).marshal.length ≤ 122 := by
  have hd : (formatUint n).toList.length ≤ 20 := by
    unfold formatUint uint64Limit at *
    rw [Nat.toList_repr]
    exact Nat.toDigits_length 10 n 20 (by decide) (by omega)
  have hs := jsonString_length (formatUint n)
  unfold jsonCursor
  omega

theorem sha_length (d : SHA256Sum) : (encodeToString d.val).toList.length = 64 := by
  have hpairs : ∀ data : List (Fin 256), (data.flatMap hexPair).length = 2 * data.length := by
    intro data
    induction data with
    | nil => rfl
    | cons b data ih =>
      simp only [List.flatMap_cons, List.length_append, List.length_cons, hexPair, ih, List.length_nil]
      omega
  unfold encodeToString
  rw [String.toList_ofList, hpairs, d.property]

/-! ## No frame is too large -/

/-- The names that go into every text. -/
def namesLength (identity : TerminalReplayIdentity) (generation : String) : Nat :=
  identity.selector.toList.length + identity.workspaceGeneration.toList.length + identity.tabID.toList.length +
    identity.paneID.toList.length + generation.toList.length

theorem jsonBool_length (b : Bool) : (Json.bool b).marshal.length ≤ 5 := by
  cases b <;> decide

theorem jsonEpoch_length {epoch : Nat} (h : epoch < uint64Limit) :
    (jsonString (formatTerminalResizeEpoch epoch)).marshal.length ≤ 122 := by
  unfold formatTerminalResizeEpoch
  split
  · decide
  · exact jsonCursor_length h

/-- The numbers a snapshot is described with. -/
structure Described (history : PaneHistorySnapshot) : Prop where
  from_le : history.deltaFrom ≤ history.deltaTo
  base_le : history.serverBase ≤ history.deltaTo
  end_eq : history.serverEnd = history.deltaTo
  to_lt : history.deltaTo < uint64Limit
  epoch_lt : history.resizeEpoch < uint64Limit
  sync : history.syncMode.toList.length ≤ 8
  bytes : history.chunks.flatten.length = history.deltaTo - history.deltaFrom
  checkpoint : ∀ checkpoint, history.checkpoint = some checkpoint →
    checkpoint.cursor = history.deltaFrom ∧ checkpoint.cols = history.cols ∧ checkpoint.rows = history.rows

section Sizes

variable {identity : TerminalReplayIdentity} {history : PaneHistorySnapshot} {m : CheckpointMemory}

theorem tabFields_within (identity : TerminalReplayIdentity) : FieldsWithin identity.tabFields 2
    (6 * identity.workspaceGeneration.toList.length + 2 + (6 * identity.tabID.toList.length + 2 + 0)) := by
  unfold TerminalReplayIdentity.tabFields
  split
  · exact .cons _ (by decide) (jsonString_length _) (.cons _ (by decide) (jsonString_length _) .nil)
  · exact FieldsWithin.nil.mono (Nat.zero_le _) (Nat.zero_le _)

theorem jsonUint32_length (n : UInt32) : (jsonUint n.toNat).marshal.length ≤ 20 :=
  jsonUint_length (Nat.lt_of_lt_of_le n.toNat_lt (by decide))

theorem checkpointJson_length (c : TerminalMemoryCheckpoint) (m : CheckpointMemory) (h : c.cursor < uint64Limit) :
    (c.json m).marshal.length ≤ 4000 := by
  have hp : TerminalMemoryCheckpointProtocol.toList.length ≤ 17 := by decide
  have hfields := (FieldsWithin.cons "protocol" (by decide) (jsonString_short hp) <|
    .cons "wasm_sha256" (by decide) (jsonString_short (sha_length m.wasmSHA256).le) <|
    .cons "memory_sha256" (by decide) (jsonString_short (sha_length m.memorySHA256).le) <|
    .cons "memory_bytes" (by decide) (jsonUint32_length m.memoryBytes) <|
    .cons "handle" (by decide) (jsonUint32_length m.handle) <|
    .cons "stack" (by decide) (jsonUint32_length m.stack) <|
    .cons "cols" (by decide) (jsonInt_length c.cols) <|
    .cons "rows" (by decide) (jsonInt_length c.rows) <|
    .cons "scrollback_lines" (by decide) (jsonInt_length c.scrollbackLines) <|
    .cons "scrollback_bytes" (by decide) (jsonInt_length c.scrollbackBytes) <|
    .cons "cursor" (by decide) (jsonCursor_length h) <|
    .cons "parts" (by decide) (jsonInt_length m.partCount) .nil).marshal
  exact Nat.le_trans hfields (by decide)

theorem baselineFields_within (h : Described history) : FieldsWithin (baselineFields history m) 2 4200 := by
  have hp : TerminalMemoryCheckpointProtocol.toList.length ≤ 17 := by decide
  unfold baselineFields
  split
  · rename_i checkpoint hc
    have hj := checkpointJson_length checkpoint m (by
      rw [(h.checkpoint checkpoint hc).1]
      exact Nat.lt_of_le_of_lt h.from_le h.to_lt)
    exact (FieldsWithin.cons _ (by decide) hj (.cons _ (by decide) (jsonString_short hp) .nil)).mono (by decide) (by decide)
  · split
    · exact (FieldsWithin.cons _ (by decide) (jsonString_short (n := 11) (by decide))
        (.cons _ (by decide) (jsonString_short (n := 13) (by decide)) .nil)).mono (by decide) (by decide)
    · exact (FieldsWithin.cons _ (by decide) (jsonString_short (n := 11) (by decide)) .nil).mono (by decide) (by decide)

theorem start_length (h : Described history) (allowGeneratedInput : Bool) (clock : ReplayClock) :
    (historyReplayStart identity history m allowGeneratedInput clock).marshal.length ≤
      6 * namesLength identity history.generation + 12000 := by
  have hfrom := jsonCursor_length (Nat.lt_of_le_of_lt h.from_le h.to_lt)
  have hto := jsonCursor_length h.to_lt
  have hbase := jsonCursor_length (Nat.lt_of_le_of_lt h.base_le h.to_lt)
  have hend : (jsonCursor history.serverEnd).marshal.length ≤ 122 := by rw [h.end_eq]; exact hto
  have hfields := ((tabFields_within identity).append (baselineFields_within (m := m) h)).append <|
    FieldsWithin.cons "type" (by decide) (jsonString_short (s := "history-replay-start") (n := 20) (by decide)) <|
    .cons "resize_protocol" (by decide) (jsonString_short (s := "epoch-v1") (n := 8) (by decide)) <|
    .cons "selector" (by decide) (jsonString_length identity.selector) <|
    .cons "pane_id" (by decide) (jsonString_length identity.paneID) <|
    .cons "allow_generated_input" (by decide) (jsonBool_length allowGeneratedInput) <|
    .cons "history_generation" (by decide) (jsonString_length history.generation) <|
    .cons "server_base_cursor" (by decide) hbase <| .cons "server_end_cursor" (by decide) hend <|
    .cons "sync_mode" (by decide) (jsonString_short h.sync) <|
    .cons "delta_from_cursor" (by decide) hfrom <| .cons "delta_to_cursor" (by decide) hto <|
    .cons "resize_epoch" (by decide) (jsonEpoch_length h.epoch_lt) <|
    .cons "cols" (by decide) (jsonInt_length history.cols) <|
    .cons "rows" (by decide) (jsonInt_length history.rows) <|
    .cons "pixel_width" (by decide) (jsonInt_length history.pixelWidth) <|
    .cons "pixel_height" (by decide) (jsonInt_length history.pixelHeight) <|
    .cons "server_history_bytes" (by decide) (jsonInt_length (historyBytes history)) <|
    .cons "server_history_chunks" (by decide) (jsonInt_length history.chunks.length) <|
    .cons "server_replay_frames" (by decide) (jsonInt_length 0) <|
    .cons "server_replay_started_unix_ms" (by decide) (jsonInt_length clock.startedUnixMs) .nil
  refine Nat.le_trans hfields.marshal ?_
  unfold namesLength
  omega

theorem complete_length (h : Described history) (replayFrames : Nat) (clock : ReplayClock) :
    (historyReplayComplete identity history replayFrames clock).marshal.length ≤
      6 * namesLength identity history.generation + 12000 := by
  have hfields := (tabFields_within identity).append <|
    FieldsWithin.cons "type" (by decide) (jsonString_short (s := "history-replay-complete") (n := 23) (by decide)) <|
    .cons "selector" (by decide) (jsonString_length identity.selector) <|
    .cons "pane_id" (by decide) (jsonString_length identity.paneID) <|
    .cons "history_generation" (by decide) (jsonString_length history.generation) <|
    .cons "history_cursor" (by decide) (jsonCursor_length h.to_lt) <|
    .cons "server_history_bytes" (by decide) (jsonInt_length (historyBytes history)) <|
    .cons "server_history_chunks" (by decide) (jsonInt_length history.chunks.length) <|
    .cons "server_replay_frames" (by decide) (jsonInt_length replayFrames) <|
    .cons "server_replay_started_unix_ms" (by decide) (jsonInt_length clock.startedUnixMs) <|
    .cons "server_replay_finished_unix_ms" (by decide) (jsonInt_length clock.finishedUnixMs) <|
    .cons "server_replay_duration_ms" (by decide) (jsonInt_length clock.durationMs) .nil
  refine Nat.le_trans hfields.marshal ?_
  unfold namesLength
  omega

theorem part_length (c : TerminalMemoryCheckpoint) (hc : c.cursor < uint64Limit) (generation : String) (index : Nat) {part : Bytes}
    (hp : part.length ≤ 65536) :
    (checkpointPart identity generation c index part).marshal.length ≤ 6 * namesLength identity generation + 90000 := by
  have hdata : (Json.str (Base64.encode part)).marshal.length ≤ 87386 := by
    rw [Json.marshal, quote_encode, List.length_cons, List.length_append, Base64.encode_length, List.length_singleton]
    omega
  have hfields := FieldsWithin.cons "type" (by decide) (jsonString_short (s := "terminal-checkpoint-part") (n := 24) (by decide)) <|
    .cons "selector" (by decide) (jsonString_length identity.selector) <|
    .cons "pane_id" (by decide) (jsonString_length identity.paneID) <|
    .cons "history_generation" (by decide) (jsonString_length generation) <|
    .cons "cursor" (by decide) (jsonCursor_length hc) <|
    .cons "index" (by decide) (jsonInt_length index) <|
    .cons "data" (by decide) hdata .nil
  refine Nat.le_trans hfields.marshal ?_
  unfold namesLength
  omega

/-- No frame takes more than one of bytes does, the names apart. -/
theorem frame_size (h : Described history) (allowGeneratedInput : Bool) (clock : ReplayClock) :
    ∀ frame ∈ writeAgentHistoryReplay identity history m allowGeneratedInput clock,
      frame.size ≤ 24 * namesLength identity history.generation + historyReplayChunk := by
  have htext {payload : Json} (hp : payload.marshal.length ≤ 6 * namesLength identity history.generation + 90000) :
      (AgentFrame.text payload).size ≤ 24 * namesLength identity history.generation + historyReplayChunk := by
    have hsize := encodeUtf8_length payload.marshal
    unfold AgentFrame.size historyReplayChunk
    simp only
    omega
  intro frame hf
  unfold writeAgentHistoryReplay at hf
  simp only [List.mem_append, List.mem_cons, List.mem_map, List.not_mem_nil, or_false] at hf
  rcases hf with (hf | rfl | ⟨payload, hp, rfl⟩) | rfl
  · split at hf
    · rename_i checkpoint hc
      obtain ⟨i, hi, rfl⟩ := List.mem_mapIdx.mp hf
      apply htext
      have hcursor : checkpoint.cursor < uint64Limit := by
        rw [(h.checkpoint checkpoint hc).1]
        exact Nat.lt_of_le_of_lt h.from_le h.to_lt
      exact part_length checkpoint hcursor _ i (m.parts_piece _ (List.getElem_mem hi))
    · cases hf
  · exact htext (Nat.le_trans (start_length h allowGeneratedInput clock) (by omega))
  · exact Nat.le_trans (replayPayloads_fits history.chunks payload hp).2 (Nat.le_add_left ..)
  · exact htext (Nat.le_trans (complete_length h _ clock) (by omega))

end Sizes

end Webshell
