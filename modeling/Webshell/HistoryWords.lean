import Webshell.History

/-!
# The history on machine words

The agent counts with an `int` and two `uint64` cursors. While the output is
shorter than 2^63 bytes no counter wraps, and the words follow the numbers of
`PaneHistory` through every append, trim and read.
-/

namespace Webshell

open Slice

structure WordHistory where
  chunks : List Bytes
  bytes : Int64
  base : UInt64
  /-- `end` in the source. -/
  stop : UInt64
  deriving DecidableEq

structure WordSnapshot where
  chunks : List Bytes
  serverBase : UInt64
  serverEnd : UInt64
  deltaFrom : UInt64
  deltaTo : UInt64
  deriving DecidableEq

namespace WordHistory

def empty : WordHistory := { chunks := [], bytes := 0, base := 0, stop := 0 }

def append (h : WordHistory) (chunk : Bytes) : WordHistory :=
  if chunk = [] then h
  else { h with
    chunks := h.chunks ++ [chunk]
    bytes := h.bytes + Int64.ofNat chunk.length
    stop := h.stop + UInt64.ofNat chunk.length }

/-- The loop of `trim`, over the chunks that are left. -/
def dropLoop (h : WordHistory) : List Bytes → Int64 → WordHistory
  | [], _ => { h with chunks := [] }
  | chunk :: chunks, dropBytes =>
    if dropBytes ≤ 0 then { h with chunks := chunk :: chunks }
    else if Int64.ofNat chunk.length ≤ dropBytes then
      dropLoop { h with
        bytes := h.bytes - Int64.ofNat chunk.length
        base := h.base + UInt64.ofNat chunk.length } chunks (dropBytes - Int64.ofNat chunk.length)
    else { h with
      chunks := chunk.drop dropBytes.toNatClampNeg :: chunks
      bytes := h.bytes - dropBytes
      base := h.base + dropBytes.toUInt64 }

def trim (h : WordHistory) (limit : Int64) : WordHistory :=
  if limit ≤ 0 ∨ h.bytes ≤ limit then h
  else
    let h := dropLoop h h.chunks (h.bytes - limit)
    if h.bytes < 0 then { h with bytes := 0 } else h

def snapshot (h : WordHistory) : WordSnapshot where
  chunks := h.chunks
  serverBase := h.base
  serverEnd := h.stop
  deltaFrom := h.base
  deltaTo := h.stop

/-- The loop of `snapshotFrom`; once `skip` is used up it only copies. -/
def skipLoop : List Bytes → UInt64 → List Bytes
  | [], _ => []
  | chunk :: chunks, skip =>
    if UInt64.ofNat chunk.length ≤ skip then skipLoop chunks (skip - UInt64.ofNat chunk.length)
    else (if 0 < skip then chunk.drop skip.toNat else chunk) :: skipLoop chunks 0

def snapshotFrom (h : WordHistory) (cursor : UInt64) : WordSnapshot :=
  let cursor := if cursor < h.base then h.base else cursor
  let cursor := if h.stop < cursor then h.stop else cursor
  { chunks := if h.stop ≤ cursor then [] else skipLoop h.chunks (cursor - h.base)
    serverBase := h.base, serverEnd := h.stop, deltaFrom := cursor, deltaTo := h.stop }

end WordHistory

inductive HistoryOp
  | append (chunk : Bytes)
  | trim (limit : Int64)
  | snapshot
  | snapshotFrom (cursor : UInt64)

namespace HistoryOp

def apply (h : WordHistory) : HistoryOp → WordHistory
  | .append chunk => h.append chunk
  | .trim limit => h.trim limit
  | .snapshot => h
  | .snapshotFrom _ => h

def output : HistoryOp → Bytes
  | .append chunk => chunk
  | .trim _ | .snapshot | .snapshotFrom _ => []

end HistoryOp

def runHistory (ops : List HistoryOp) : WordHistory := ops.foldl HistoryOp.apply .empty

def historyOutput (ops : List HistoryOp) : Bytes := ops.flatMap HistoryOp.output

/-! ## Words that hold their numbers -/

theorem toInt_ofNat_length {n : Nat} (h : n < 2 ^ 63) : (Int64.ofNat n).toInt = n := Int64.toInt_ofNat_of_lt h

theorem toNat_ofNat_length {n : Nat} (h : n < 2 ^ 63) : (UInt64.ofNat n).toNat = n := by
  rw [UInt64.toNat_ofNat', Nat.mod_eq_of_lt (by omega)]

theorem toInt_add_small {a b : Int64} (ha : 0 ≤ a.toInt) (hb : 0 ≤ b.toInt) (h : a.toInt + b.toInt < 2 ^ 63) :
    (a + b).toInt = a.toInt + b.toInt := by
  rw [Int64.toInt_add, Int.bmod_eq_of_le (by omega) (by omega)]

theorem toInt_sub_small {a b : Int64} (hb : 0 ≤ b.toInt) (h : b.toInt ≤ a.toInt) :
    (a - b).toInt = a.toInt - b.toInt := by
  have := a.toInt_lt
  rw [Int64.toInt_sub, Int.bmod_eq_of_le (by omega) (by omega)]

theorem toNat_add_small {a b : UInt64} (h : a.toNat + b.toNat < 2 ^ 63) : (a + b).toNat = a.toNat + b.toNat := by
  rw [UInt64.toNat_add, Nat.mod_eq_of_lt (by omega)]

theorem toNat_toUInt64 {a : Int64} (h : 0 ≤ a.toInt) : a.toUInt64.toNat = a.toInt.toNat := by
  have hlt := a.toInt_lt
  have ha : 0 ≤ a := Int64.le_iff_toInt_le.mpr h
  conv_lhs => rw [← Int64.ofNat_toNatClampNeg a ha, Int64.toUInt64_ofNat']
  exact toNat_ofNat_length (by change a.toInt.toNat < _; omega)

/-- The word counters hold the numbers. -/
structure Words (w : WordHistory) (h : PaneHistory) : Prop where
  chunks : w.chunks = h.chunks
  bytes : w.bytes.toInt = h.bytes
  base : w.base.toNat = h.base
  stop : w.stop.toNat = h.stop

theorem dropLoop_spec : ∀ (chunks : List Bytes) (w : WordHistory) (d : Int64), 0 ≤ d.toInt →
    (chunks.flatten.length : Int) ≤ w.bytes.toInt → w.base.toNat + chunks.flatten.length < 2 ^ 63 →
      d.toInt ≤ chunks.flatten.length →
      (w.dropLoop chunks d).chunks = (PaneHistory.dropChunks chunks d.toInt.toNat).1 ∧
        (w.dropLoop chunks d).bytes.toInt = w.bytes.toInt - (PaneHistory.dropChunks chunks d.toInt.toNat).2 ∧
        (w.dropLoop chunks d).base.toNat = w.base.toNat + (PaneHistory.dropChunks chunks d.toInt.toNat).2 ∧
        (w.dropLoop chunks d).stop = w.stop
  | [], w, d, hd, hb, hbase, hle => by simp [WordHistory.dropLoop, PaneHistory.dropChunks]
  | chunk :: chunks, w, d, hd, hb, hbase, hle => by
    rw [List.flatten_cons, List.length_append] at hb hbase hle
    have hlen : chunk.length < 2 ^ 63 := by omega
    have hi := toInt_ofNat_length hlen
    have hu := toNat_ofNat_length hlen
    by_cases hz : d.toInt ≤ 0
    · have hword : d ≤ 0 := Int64.le_iff_toInt_le.mpr hz
      have hnat : d.toInt.toNat = 0 := by omega
      simp only [WordHistory.dropLoop, PaneHistory.dropChunks, hword, hnat, ite_true]
      simp
    · have hword : ¬ d ≤ 0 := fun h => hz (Int64.le_iff_toInt_le.mp h)
      have hnat : ¬ d.toInt.toNat = 0 := by omega
      by_cases hc : (chunk.length : Int) ≤ d.toInt
      · have hsub := toInt_sub_small (a := d) (b := Int64.ofNat chunk.length) (by omega) (by omega)
        have hbytes := toInt_sub_small (a := w.bytes) (b := Int64.ofNat chunk.length) (by omega) (by omega)
        have hnext := toNat_add_small (a := w.base) (b := UInt64.ofNat chunk.length) (by omega)
        have hcw : Int64.ofNat chunk.length ≤ d := by rw [Int64.le_iff_toInt_le, hi]; exact hc
        have hcn : chunk.length ≤ d.toInt.toNat := by omega
        have hn : (d - Int64.ofNat chunk.length).toInt.toNat = d.toInt.toNat - chunk.length := by omega
        obtain ⟨h1, h2, h3, h4⟩ := dropLoop_spec chunks
          { w with bytes := w.bytes - Int64.ofNat chunk.length, base := w.base + UInt64.ofNat chunk.length }
          (d - Int64.ofNat chunk.length) (by omega) (by simp only; omega) (by simp only; omega) (by omega)
        simp only [WordHistory.dropLoop, PaneHistory.dropChunks, hword, hnat, hcw, hcn, ite_true, ite_false, ← hn]
        refine ⟨h1, ?_, ?_, h4⟩
        · rw [h2, hbytes]; omega
        · rw [h3, hnext, hu]; omega
      · have hbytes := toInt_sub_small (a := w.bytes) (b := d) (by omega) (by omega)
        have hd64 := toNat_toUInt64 (a := d) (by omega)
        have hnext := toNat_add_small (a := w.base) (b := d.toUInt64) (by omega)
        have hcw : ¬ Int64.ofNat chunk.length ≤ d := by rw [Int64.le_iff_toInt_le, hi]; exact hc
        have hcn : ¬ chunk.length ≤ d.toInt.toNat := by omega
        simp only [WordHistory.dropLoop, PaneHistory.dropChunks, hword, hnat, hcw, hcn, ite_false]
        refine ⟨rfl, ?_, ?_, trivial⟩
        · omega
        · omega

theorem skipLoop_flatten : ∀ (chunks : List Bytes) (skip : UInt64), chunks.flatten.length < 2 ^ 63 →
    (WordHistory.skipLoop chunks skip).flatten = chunks.flatten.drop skip.toNat
  | [], skip, _ => by simp [WordHistory.skipLoop]
  | chunk :: chunks, skip, h => by
    rw [List.flatten_cons, List.length_append] at h
    have hu := toNat_ofNat_length (n := chunk.length) (by omega)
    rw [WordHistory.skipLoop, List.flatten_cons, List.drop_append]
    split
    · rename_i hle
      rw [UInt64.le_iff_toNat_le, hu] at hle
      rw [skipLoop_flatten chunks _ (by omega), UInt64.toNat_sub_of_le _ _ (UInt64.le_iff_toNat_le.mpr (by omega)), hu,
        List.drop_of_length_le hle, List.nil_append]
    · rename_i hlt
      rw [UInt64.le_iff_toNat_le, hu] at hlt
      have hz : skip.toNat - chunk.length = 0 := by omega
      rw [List.flatten_cons, skipLoop_flatten chunks 0 (by omega), hz]
      split
      · rfl
      · rename_i hs
        have hs : skip.toNat = 0 := by rw [UInt64.lt_iff_toNat_lt] at hs; simpa using hs
        rw [hs]; rfl

namespace Words

variable {w : WordHistory} {h : PaneHistory} {out : Bytes}

theorem append (hw : Words w h) (hi : HistoryInv out h) {chunk : Bytes} (hlen : (out ++ chunk).length < 2 ^ 63) :
    Words (w.append chunk) (h.append chunk) := by
  rw [List.length_append] at hlen
  have hbytes : h.bytes ≤ out.length := by rw [hi.bytes_eq, hi.kept, List.length_drop]; omega
  have hstop := hi.stop_eq
  unfold WordHistory.append PaneHistory.append
  split
  · exact hw
  · have hn := toInt_ofNat_length (n := chunk.length) (by omega)
    have hu := toNat_ofNat_length (n := chunk.length) (by omega)
    have hwb := hw.bytes
    have hws := hw.stop
    constructor
    · rw [hw.chunks]
    · rw [toInt_add_small (by omega) (by omega) (by omega)]; simp only; omega
    · exact hw.base
    · rw [toNat_add_small (by omega)]; simp only; omega

theorem trim (hw : Words w h) (hi : HistoryInv out h) (hlen : out.length < 2 ^ 63) (limit : Int64) :
    Words (w.trim limit) (h.trim limit.toInt) := by
  have hwb := hw.bytes
  have hwbase := hw.base
  have hflat : h.chunks.flatten.length = out.length - h.base := by rw [hi.kept, List.length_drop]
  have hbytes := hi.bytes_eq
  have hbase := hi.base_le
  have hiff : limit ≤ 0 ∨ w.bytes ≤ limit ↔ limit.toInt ≤ 0 ∨ (h.bytes : Int) ≤ limit.toInt := by
    rw [Int64.le_iff_toInt_le, Int64.le_iff_toInt_le, hwb]; rfl
  unfold WordHistory.trim PaneHistory.trim
  by_cases hno : limit.toInt ≤ 0 ∨ (h.bytes : Int) ≤ limit.toInt
  · rw [if_pos hno, if_pos (hiff.mpr hno)]
    exact hw
  · rw [if_neg hno, if_neg (fun hyes => hno (hiff.mp hyes))]
    rw [not_or] at hno
    have hsub := toInt_sub_small (a := w.bytes) (b := limit) (by omega) (by omega)
    have hn : (w.bytes - limit).toInt.toNat = h.bytes - limit.toInt.toNat := by omega
    obtain ⟨h1, h2, h3, h4⟩ := dropLoop_spec h.chunks w (w.bytes - limit) (by omega) (by omega) (by omega) (by omega)
    obtain ⟨-, hdrop⟩ := dropChunks_spec h.chunks (w.bytes - limit).toInt.toNat
    have hpos : ¬ (w.dropLoop h.chunks (w.bytes - limit)).bytes < 0 := by
      rw [Int64.lt_iff_toInt_lt, h2]; change ¬ _ < (0 : Int); omega
    simp only [hw.chunks]
    rw [if_neg hpos, ← hn]
    exact ⟨h1, by simp only; rw [h2]; omega, by simp only; rw [h3]; omega, by rw [h4]; exact hw.stop⟩

theorem snapshotFrom (hw : Words w h) (hi : HistoryInv out h) (hlen : out.length < 2 ^ 63) (cursor : UInt64) :
    (w.snapshotFrom cursor).deltaFrom.toNat = max h.base (min cursor.toNat h.stop) ∧
      (w.snapshotFrom cursor).deltaTo = w.stop ∧
      (w.snapshotFrom cursor).chunks.flatten = slice out (max h.base (min cursor.toNat h.stop)) h.stop := by
  have hwbase := hw.base
  have hwstop := hw.stop
  have hstop := hi.stop_eq
  have hbase := hi.base_le
  have hflat : h.chunks.flatten.length = out.length - h.base := by rw [hi.kept, List.length_drop]
  have hcursor : ((w.snapshotFrom cursor).deltaFrom).toNat = max h.base (min cursor.toNat h.stop) := by
    unfold WordHistory.snapshotFrom
    simp only [UInt64.lt_iff_toNat_lt]
    split <;> split <;> omega
  refine ⟨hcursor, rfl, ?_⟩
  have hchunks : (w.snapshotFrom cursor).chunks = if w.stop ≤ (w.snapshotFrom cursor).deltaFrom then []
      else WordHistory.skipLoop w.chunks ((w.snapshotFrom cursor).deltaFrom - w.base) := rfl
  rw [hchunks, ← hcursor]
  generalize (w.snapshotFrom cursor).deltaFrom = start at hcursor
  split
  · rename_i hle
    rw [UInt64.le_iff_toNat_le] at hle
    have he : start.toNat = h.stop := by omega
    rw [he, slice_self]; rfl
  · rename_i hlt
    rw [UInt64.le_iff_toNat_le] at hlt
    rw [hw.chunks, skipLoop_flatten _ _ (by omega), UInt64.toNat_sub_of_le _ _ (UInt64.le_iff_toNat_le.mpr (by omega)),
      hi.kept, List.drop_drop, hstop, slice_to_end]
    congr 1; omega

end Words

/-! ## Runs -/

theorem trim_bounds {out : Bytes} {h : PaneHistory} (hi : HistoryInv out h) {limit : Int} (hpos : 0 < limit) :
    ((h.trim limit).bytes : Int) ≤ limit ∧ ((h.trim limit).base : Int) = max (h.base : Int) (h.stop - limit) := by
  have hflat : h.chunks.flatten.length = out.length - h.base := by rw [hi.kept, List.length_drop]
  have hbytes := hi.bytes_eq
  have hstop := hi.stop_eq
  have hbase := hi.base_le
  unfold PaneHistory.trim
  by_cases hno : limit ≤ 0 ∨ (h.bytes : Int) ≤ limit
  · rw [if_pos hno]
    omega
  · rw [if_neg hno]
    obtain ⟨-, hdrop⟩ := dropChunks_spec h.chunks (h.bytes - limit.toNat)
    simp only
    omega

/-- The word history is a suffix of the output, with counters that say which. -/
structure SuffixOf (out : Bytes) (w : WordHistory) : Prop where
  base_le : w.base.toNat ≤ w.stop.toNat
  stop_eq : w.stop.toNat = out.length
  bytes_eq : w.bytes.toInt = w.stop.toNat - w.base.toNat
  chunks_eq : w.chunks.flatten = slice out w.base.toNat w.stop.toNat

theorem Words.suffixOf {w : WordHistory} {h : PaneHistory} {out : Bytes} (hw : Words w h) (hi : HistoryInv out h) :
    SuffixOf out w := by
  have hflat : h.chunks.flatten.length = out.length - h.base := by rw [hi.kept, List.length_drop]
  have hbytes := hi.bytes_eq
  have hstop := hi.stop_eq
  have hbase := hi.base_le
  constructor
  · rw [hw.base, hw.stop]; omega
  · rw [hw.stop]; exact hstop
  · rw [hw.bytes, hw.base, hw.stop]; omega
  · rw [hw.chunks, hw.base, hw.stop, hstop, slice_to_end, hi.kept]

theorem historyOutput_append (before after : List HistoryOp) :
    historyOutput (before ++ after) = historyOutput before ++ historyOutput after := List.flatMap_append

theorem runHistory_append (before after : List HistoryOp) :
    runHistory (before ++ after) = after.foldl HistoryOp.apply (runHistory before) := List.foldl_append

/-- One operation keeps the words on the numbers and never moves the base back. -/
theorem apply_words {w : WordHistory} {h : PaneHistory} {out : Bytes} (hw : Words w h) (hi : HistoryInv out h)
    (op : HistoryOp) (hlen : (out ++ op.output).length < 2 ^ 63) :
    ∃ h', Words (op.apply w) h' ∧ HistoryInv (out ++ op.output) h' ∧ h.base ≤ h'.base := by
  cases op with
  | append chunk =>
    refine ⟨h.append chunk, hw.append hi hlen, hi.append chunk, ?_⟩
    unfold PaneHistory.append
    split <;> exact Nat.le_refl _
  | trim limit =>
    rw [HistoryOp.output, List.append_nil] at hlen ⊢
    refine ⟨h.trim limit.toInt, hw.trim hi hlen limit, hi.trim _, ?_⟩
    unfold PaneHistory.trim
    split
    · exact Nat.le_refl _
    · exact Nat.le_add_right ..
  | snapshot =>
    rw [HistoryOp.output, List.append_nil]
    exact ⟨h, hw, hi, Nat.le_refl _⟩
  | snapshotFrom cursor =>
    rw [HistoryOp.output, List.append_nil]
    exact ⟨h, hw, hi, Nat.le_refl _⟩

theorem run_words : ∀ (ops : List HistoryOp) {w : WordHistory} {h : PaneHistory} {out : Bytes}, Words w h →
    HistoryInv out h → (out ++ historyOutput ops).length < 2 ^ 63 →
      ∃ h', Words (ops.foldl HistoryOp.apply w) h' ∧ HistoryInv (out ++ historyOutput ops) h' ∧ h.base ≤ h'.base
  | [], w, h, out, hw, hi, _ => ⟨h, hw, by simpa [historyOutput] using hi, Nat.le_refl _⟩
  | op :: ops, w, h, out, hw, hi, hlen => by
    rw [show historyOutput (op :: ops) = op.output ++ historyOutput ops from List.flatMap_cons, ← List.append_assoc]
      at hlen ⊢
    obtain ⟨h₁, hw₁, hi₁, hle₁⟩ := apply_words hw hi op (by rw [List.length_append] at hlen; omega)
    obtain ⟨h₂, hw₂, hi₂, hle₂⟩ := run_words ops hw₁ hi₁ hlen
    exact ⟨h₂, hw₂, hi₂, Nat.le_trans hle₁ hle₂⟩

theorem empty_words : Words .empty .empty := ⟨rfl, rfl, rfl, rfl⟩

/-- After any appends, trims and reads the history is the end of the output, and every read is a piece of it. -/
theorem runHistory_suffix (ops : List HistoryOp) (hlen : (historyOutput ops).length < 2 ^ 63) :
    SuffixOf (historyOutput ops) (runHistory ops) ∧
      (∀ before after, ops = before ++ after → (runHistory before).base ≤ (runHistory ops).base) ∧
      (∀ limit : Int64, 0 < limit → ((runHistory ops).trim limit).bytes ≤ limit ∧
        (((runHistory ops).trim limit).base.toNat : Int) =
          max ((runHistory ops).base.toNat : Int) ((runHistory ops).stop.toNat - limit.toInt)) ∧
      (∀ cursor : UInt64, let s := (runHistory ops).snapshotFrom cursor
        s.deltaFrom.toNat = max (runHistory ops).base.toNat (min cursor.toNat (runHistory ops).stop.toNat) ∧
          s.deltaTo = (runHistory ops).stop ∧
          s.chunks.flatten = slice (historyOutput ops) s.deltaFrom.toNat (runHistory ops).stop.toNat) ∧
      (runHistory ops).snapshot.chunks.flatten =
        slice (historyOutput ops) (runHistory ops).base.toNat (runHistory ops).stop.toNat ∧
      ∀ d : Bytes, (makeHistoryChunks d).flatten = d ∧
        ∀ chunk ∈ makeHistoryChunks d, chunk ≠ [] ∧ chunk.length ≤ historyChunkMaxBytes := by
  obtain ⟨h, hw, hi, -⟩ := run_words ops empty_words HistoryInv.empty hlen
  change Words (runHistory ops) h at hw
  rw [List.nil_append] at hi
  have hs := Words.suffixOf hw hi
  refine ⟨hs, ?_, ?_, ?_, hs.chunks_eq, fun d => ⟨makeHistoryChunks_flatten d, fun chunk hc => chunksOf_nonempty _ d chunk hc⟩⟩
  · rintro before after rfl
    rw [historyOutput_append] at hlen
    obtain ⟨h₁, hw₁, hi₁, -⟩ := run_words before empty_words HistoryInv.empty
      (by rw [List.nil_append]; rw [List.length_append] at hlen; omega)
    obtain ⟨h₂, hw₂, -, hle⟩ := run_words after hw₁ hi₁ hlen
    change Words (runHistory before) h₁ at hw₁
    change Words (after.foldl HistoryOp.apply (runHistory before)) h₂ at hw₂
    rw [runHistory_append, UInt64.le_iff_toNat_le, hw₁.base, hw₂.base]
    exact hle
  · intro limit hpos
    have hpos' : 0 < limit.toInt := Int64.lt_iff_toInt_lt.mp hpos
    have ht := hw.trim hi hlen limit
    obtain ⟨hb, hbase⟩ := trim_bounds hi hpos'
    refine ⟨?_, ?_⟩
    · rw [Int64.le_iff_toInt_le, ht.bytes]; exact hb
    · rw [ht.base, hw.base, hw.stop]; exact hbase
  · intro cursor
    obtain ⟨hfrom, hto, hchunks⟩ := hw.snapshotFrom hi hlen cursor
    simp only
    rw [hfrom, hw.base, hw.stop]
    exact ⟨rfl, hto, hchunks⟩

/-- A history trimmed in the middle of a chunk and read in the middle of the next one. -/
theorem runHistory_suffix_cut :
    SuffixOf [1, 2, 3, 4, 5, 6] (runHistory [.append [1, 2, 3], .trim 2, .append [4, 5, 6], .snapshotFrom 4]) ∧
      ((runHistory [.append [1, 2, 3], .trim 2, .append [4, 5, 6], .snapshotFrom 4]).snapshotFrom 4).chunks.flatten =
        [5, 6] := by
  obtain ⟨hs, -, -, hread, -⟩ := runHistory_suffix [.append [1, 2, 3], .trim 2, .append [4, 5, 6], .snapshotFrom 4]
    (by decide)
  refine ⟨hs, ?_⟩
  rw [(hread 4).2.2]
  decide

end Webshell
