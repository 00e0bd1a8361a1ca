import Webshell.GoReader
import Webshell.QueueFrame
import Webshell.AgentReplay

/-!
# Frames between the processes

A frame is its type, the length of its payload in four bytes, and the payload.
Writer and reader bound the length alike.
-/

namespace Webshell

open GoText GoReader

namespace Wire

inductive FrameError
  | read (err : ReadError)
  | tooLarge (size : Nat)
  deriving DecidableEq

structure Frame where
  frameType : UInt8
  payload : Bytes
  deriving DecidableEq

/-- `write` is the writer's `Write`, on the state of the writer. -/
def WriteAgentFrame {W : Type} (write : W → Bytes → Except String W) (w : W) (frame : Frame) : Except String W :=
  if agentMaxFramePayload < frame.payload.length then
    .error ("agent frame payload too large: " ++ formatUint frame.payload.length)
  else
    match write w (frame.frameType :: putUint32 frame.payload.length) with
    | .error err => .error err
    | .ok w => if frame.payload = [] then .ok w else write w frame.payload

def ReadAgentFrame (r : GoReader UInt8) : Except FrameError (Frame × GoReader UInt8) :=
  match readFull 5 r with
  | .error err => .error (.read err)
  | .ok (header, r) =>
    let size := getUint32 (header.drop 1)
    if agentMaxFramePayload < size then .error (.tooLarge size)
    else if 0 < size then
      match readFull size r with
      | .error err => .error (.read err)
      | .ok (payload, r) => .ok (⟨header.headD 0, payload⟩, r)
    else .ok (⟨header.headD 0, []⟩, r)

/-- A writer that keeps what is written. -/
def buffer (written data : Bytes) : Except String Bytes := .ok (written ++ data)

def WriteAgentFrames : List Frame → Bytes → Except String Bytes
  | [], written => .ok written
  | frame :: frames, written =>
    match WriteAgentFrame buffer written frame with
    | .error err => .error err
    | .ok written => WriteAgentFrames frames written

def ReadAgentFrames : Nat → GoReader UInt8 → Except FrameError (List Frame × GoReader UInt8)
  | 0, r => .ok ([], r)
  | n + 1, r =>
    match ReadAgentFrame r with
    | .error err => .error err
    | .ok (frame, r) =>
      match ReadAgentFrames n r with
      | .error err => .error err
      | .ok (frames, r) => .ok (frame :: frames, r)

/-- The bytes of a frame, whatever its length. -/
def Frame.bytes (frame : Frame) : Bytes :=
  frame.frameType :: (putUint32 frame.payload.length ++ frame.payload)

end Wire

/-- A frame of the agent's, as it is written. -/
def AgentFrame.onWire : AgentFrame → Wire.Frame
  | .text payload => ⟨84, encodeUtf8 payload.marshal⟩
  | .binary payload => ⟨66, payload⟩

theorem WriteAgentFrame_onWire (frame : AgentFrame) :
    WriteAgentFrame frame = match Wire.WriteAgentFrame Wire.buffer [] frame.onWire with
      | .error err => some err
      | .ok _ => none := by
  have hsize : frame.onWire.payload.length = frame.size := by cases frame <;> rfl
  unfold WriteAgentFrame Wire.WriteAgentFrame
  rw [hsize]
  split
  · rfl
  · simp only [Wire.buffer]
    by_cases hnil : frame.onWire.payload = []
    · rw [if_pos hnil]
    · rw [if_neg hnil]

namespace Wire

/-! ## What is written -/

theorem WriteAgentFrame_ok {frame : Frame} {written data : Bytes}
    (h : WriteAgentFrame buffer written frame = .ok data) :
    frame.payload.length ≤ agentMaxFramePayload ∧ data = written ++ frame.bytes := by
  unfold WriteAgentFrame at h
  split at h
  · cases h
  rename_i hle
  refine ⟨Nat.le_of_not_lt hle, ?_⟩
  simp only [buffer] at h
  unfold Frame.bytes
  split at h
  · rename_i hnil
    cases h
    rw [hnil, List.append_nil]
  · cases h
    simp

theorem WriteAgentFrame_error {frame : Frame} {written : Bytes} :
    (∃ err, WriteAgentFrame buffer written frame = .error err) ↔ agentMaxFramePayload < frame.payload.length := by
  unfold WriteAgentFrame
  constructor
  · rintro ⟨err, h⟩
    by_contra hle
    rw [if_neg hle] at h
    simp only [buffer] at h
    split at h <;> cases h
  · intro hlt
    exact ⟨_, if_pos hlt⟩

theorem WriteAgentFrames_ok {frames : List Frame} {written data : Bytes}
    (h : WriteAgentFrames frames written = .ok data) :
    (∀ frame ∈ frames, frame.payload.length ≤ agentMaxFramePayload) ∧
      data = written ++ frames.flatMap Frame.bytes := by
  induction frames generalizing written with
  | nil =>
    cases h
    simp
  | cons frame frames ih =>
    unfold WriteAgentFrames at h
    split at h
    · cases h
    · rename_i written' hw
      obtain ⟨hle, rfl⟩ := WriteAgentFrame_ok hw
      obtain ⟨hall, rfl⟩ := ih h
      refine ⟨fun f hf => ?_, ?_⟩
      · rcases List.mem_cons.mp hf with rfl | hf
        · exact hle
        · exact hall f hf
      · rw [List.flatMap_cons, List.append_assoc]

/-! ## What is read -/

theorem getUint32_putUint32_mod (n : Nat) (rest : Bytes) : getUint32 (putUint32 n ++ rest) = n % 2 ^ 32 := by
  simp only [getUint32, putUint32, List.cons_append, List.nil_append, List.take_succ_cons, List.take_zero,
    List.foldl_cons, List.foldl_nil, UInt8.toNat_ofNat']
  omega

/-- Behind a header, the reader goes by the length that is in it. -/
theorem ReadAgentFrame_header {frameType : UInt8} {n : Nat} {rest : Bytes} {r : GoReader UInt8}
    (hr : r.flatten = frameType :: (putUint32 n ++ rest)) : ∃ r', r'.flatten = rest ∧ ReadAgentFrame r =
      if agentMaxFramePayload < n % 2 ^ 32 then .error (.tooLarge (n % 2 ^ 32))
      else if 0 < n % 2 ^ 32 then
        match readFull (n % 2 ^ 32) r' with
        | .error err => .error (.read err)
        | .ok (payload, r) => .ok (⟨frameType, payload⟩, r)
      else .ok (⟨frameType, []⟩, r') := by
  have hlen : (putUint32 n).length = 4 := rfl
  have hle : 5 ≤ r.flatten.length := by
    rw [hr, List.length_cons, List.length_append]
    omega
  obtain ⟨r', hread, hrest⟩ := readFull_ok hle
  have hheader : r.flatten.take 5 = frameType :: putUint32 n := by
    rw [hr, List.take_succ_cons, List.take_left' hlen]
  have hsize : getUint32 (putUint32 n) = n % 2 ^ 32 := by
    have h := getUint32_putUint32_mod n []
    rwa [List.append_nil] at h
  refine ⟨r', ?_, ?_⟩
  · rw [hrest, hr, List.drop_succ_cons, List.drop_left' hlen]
  · unfold ReadAgentFrame
    rw [hread, hheader]
    simp only [List.drop_succ_cons, List.drop_zero, hsize, List.headD_cons]

theorem ReadAgentFrame_bytes {frame : Frame} (hle : frame.payload.length ≤ agentMaxFramePayload) {rest : Bytes}
    {r : GoReader UInt8} (hr : r.flatten = frame.bytes ++ rest) :
    ∃ r', ReadAgentFrame r = .ok (frame, r') ∧ r'.flatten = rest := by
  have hmod : frame.payload.length % 2 ^ 32 = frame.payload.length := by
    unfold agentMaxFramePayload at hle
    omega
  have hbytes : r.flatten = frame.frameType :: (putUint32 frame.payload.length ++ (frame.payload ++ rest)) := by
    rw [hr, Frame.bytes, List.cons_append, List.append_assoc]
  obtain ⟨r', hrest, hread⟩ := ReadAgentFrame_header hbytes
  rw [hmod, if_neg (Nat.not_lt.mpr hle)] at hread
  by_cases hpos : 0 < frame.payload.length
  · rw [if_pos hpos] at hread
    obtain ⟨r'', hpayload, hafter⟩ := readFull_ok (n := frame.payload.length) (r := r') (by
      rw [hrest, List.length_append]
      omega)
    rw [hpayload, hrest, List.take_left] at hread
    refine ⟨r'', hread, ?_⟩
    rw [hafter, hrest, List.drop_left]
  · have hnil : frame.payload = [] := List.eq_nil_of_length_eq_zero (by omega)
    rw [if_neg hpos] at hread
    refine ⟨r', ?_, ?_⟩
    · rw [hread, ← hnil]
    · rw [hrest, hnil, List.nil_append]

theorem ReadAgentFrames_bytes {frames : List Frame}
    (hle : ∀ frame ∈ frames, frame.payload.length ≤ agentMaxFramePayload) {rest : Bytes} {r : GoReader UInt8}
    (hr : r.flatten = frames.flatMap Frame.bytes ++ rest) :
    ∃ r', ReadAgentFrames frames.length r = .ok (frames, r') ∧ r'.flatten = rest := by
  induction frames generalizing r with
  | nil => exact ⟨r, rfl, hr⟩
  | cons frame frames ih =>
    rw [List.flatMap_cons, List.append_assoc] at hr
    obtain ⟨r', hread, hrest⟩ := ReadAgentFrame_bytes (hle frame (List.mem_cons_self ..)) hr
    obtain ⟨r'', hreads, hafter⟩ := ih (fun f hf => hle f (List.mem_cons_of_mem _ hf)) hrest
    refine ⟨r'', ?_, hafter⟩
    rw [List.length_cons, ReadAgentFrames, hread]
    simp only [hreads]

theorem ReadAgentFrame_empty {r : GoReader UInt8} (hr : r.flatten = []) : ReadAgentFrame r = .error (.read .eof) := by
  have hread : readFull 5 r = .error (if r.flatten.isEmpty then .eof else .unexpectedEOF) :=
    readFull_error (by rw [hr]; decide)
  rw [hr] at hread
  unfold ReadAgentFrame
  rw [hread]
  rfl

/-- A part of a frame is none. -/
theorem ReadAgentFrame_prefix {frame : Frame} (hle : frame.payload.length ≤ agentMaxFramePayload) {part : Bytes}
    (hp : part <+: frame.bytes) (hne : part ≠ frame.bytes) {r : GoReader UInt8} (hr : r.flatten = part) :
    ∃ err, ReadAgentFrame r = .error (.read err) := by
  have hlen : (putUint32 frame.payload.length).length = 4 := rfl
  have hshort : part.length < frame.bytes.length :=
    Nat.lt_of_le_of_ne hp.length_le fun he => hne (hp.eq_of_length he)
  by_cases hheader : part.length < 5
  · have hread : readFull 5 r = .error (if r.flatten.isEmpty then .eof else .unexpectedEOF) :=
      readFull_error (by rw [hr]; exact hheader)
    unfold ReadAgentFrame
    rw [hread]
    exact ⟨_, rfl⟩
  · obtain ⟨rest, hsplit⟩ : ∃ rest, part = frame.frameType :: (putUint32 frame.payload.length ++ rest) := by
      have hpre : (frame.frameType :: putUint32 frame.payload.length) <+: frame.bytes := by
        unfold Frame.bytes
        rw [← List.cons_append]
        exact List.prefix_append ..
      obtain ⟨rest, hrest⟩ := List.prefix_of_prefix_length_le hpre hp (by rw [List.length_cons, hlen]; omega)
      exact ⟨rest, by rw [← hrest, List.cons_append]⟩
    have hmod : frame.payload.length % 2 ^ 32 = frame.payload.length := by
      unfold agentMaxFramePayload at hle
      omega
    have hrest : rest.length < frame.payload.length := by
      rw [hsplit, Frame.bytes] at hshort
      simp only [List.length_cons, List.length_append] at hshort
      omega
    obtain ⟨r', hflat, hread⟩ := ReadAgentFrame_header (hr.trans hsplit)
    rw [hmod, if_neg (Nat.not_lt.mpr hle), if_pos (by omega), readFull_error (by rw [hflat]; exact hrest)] at hread
    exact ⟨_, hread⟩

/-! ## The codec -/

/-- Frames are read as they were written, parts of frames are refused, and below 4 GiB the reader
refuses the size of what the writer refuses. -/
theorem agentFrames_codec :
    (∀ frames data, WriteAgentFrames frames [] = .ok data → ∀ r : GoReader UInt8, r.flatten = data →
      ∃ r', ReadAgentFrames frames.length r = .ok (frames, r') ∧ ReadAgentFrame r' = .error (.read .eof)) ∧
    (∀ frame data, WriteAgentFrame buffer [] frame = .ok data → ∀ part, part <+: data → part ≠ data →
      ∀ r : GoReader UInt8, r.flatten = part → ∃ err, ReadAgentFrame r = .error (.read err)) ∧
    ∀ frame : Frame, frame.payload.length < 2 ^ 32 →
      ((∃ err, WriteAgentFrame buffer [] frame = .error err) ↔
        ∀ r : GoReader UInt8, r.flatten = frame.bytes → ∃ size, ReadAgentFrame r = .error (.tooLarge size)) := by
  refine ⟨fun frames data hw r hr => ?_, fun frame data hw part hp hne r hr => ?_, fun frame hlt => ?_⟩
  · obtain ⟨hle, hdata⟩ := WriteAgentFrames_ok hw
    rw [List.nil_append] at hdata
    obtain ⟨r', hread, hrest⟩ := ReadAgentFrames_bytes hle (hr.trans (hdata.trans (List.append_nil _).symm))
    exact ⟨r', hread, ReadAgentFrame_empty hrest⟩
  · obtain ⟨hle, hdata⟩ := WriteAgentFrame_ok hw
    rw [List.nil_append] at hdata
    subst hdata
    exact ReadAgentFrame_prefix hle hp hne hr
  · rw [WriteAgentFrame_error]
    constructor
    · intro hbig r hr
      obtain ⟨r', -, hread⟩ := ReadAgentFrame_header hr
      rw [Nat.mod_eq_of_lt hlt, if_pos hbig] at hread
      exact ⟨_, hread⟩
    · intro hrefuses
      by_contra hle
      obtain ⟨size, hsize⟩ := hrefuses [frame.bytes] (by simp)
      have hwhole : ([frame.bytes] : GoReader UInt8).flatten = frame.bytes ++ [] := by simp
      obtain ⟨r', hread, -⟩ := ReadAgentFrame_bytes (Nat.le_of_not_lt hle) hwhole
      rw [hread] at hsize
      cases hsize

theorem agentFrames_codec_cut : ∃ r', ReadAgentFrames 2 [[84, 0, 0], [0, 2, 1], [], [2, 66, 0, 0, 0, 0]] =
    .ok ([⟨84, [1, 2]⟩, ⟨66, []⟩], r') ∧ ReadAgentFrame r' = .error (.read .eof) :=
  agentFrames_codec.1 [⟨84, [1, 2]⟩, ⟨66, []⟩] [84, 0, 0, 0, 2, 1, 2, 66, 0, 0, 0, 0] rfl _ rfl

/-- A payload of 4 GiB is refused, but the length in its header is 0. -/
theorem agentFrames_length_wraps : ¬ ∀ frame : Frame,
    ((∃ err, WriteAgentFrame buffer [] frame = .error err) ↔
      ∀ r : GoReader UInt8, r.flatten = frame.bytes → ∃ size, ReadAgentFrame r = .error (.tooLarge size)) := by
  intro h
  obtain ⟨payload, hlen⟩ : ∃ payload : Bytes, payload.length = 2 ^ 32 := ⟨_, List.length_replicate (a := 0)⟩
  have hrefused : ∃ err, WriteAgentFrame buffer [] ⟨66, payload⟩ = .error err := by
    rw [WriteAgentFrame_error, hlen]
    decide
  have hwhole : ([Frame.bytes ⟨66, payload⟩] : GoReader UInt8).flatten =
      66 :: (putUint32 payload.length ++ payload) := by simp [Frame.bytes]
  obtain ⟨r', -, hread⟩ := ReadAgentFrame_header hwhole
  obtain ⟨size, hsize⟩ := (h ⟨66, payload⟩).mp hrefused [Frame.bytes ⟨66, payload⟩] (by simp)
  rw [hlen, Nat.mod_self, if_neg (by decide), if_neg (by decide), hsize] at hread
  cases hread

end Wire

end Webshell
