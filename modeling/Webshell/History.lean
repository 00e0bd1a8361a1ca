import Webshell.Slice
import Webshell.Checkpoint
import Mathlib.Algebra.Group.Int.Defs
import Mathlib.Algebra.Group.Nat.Defs

/-!
# The pane history

Output is kept in chunks of at most `historyChunkMaxBytes`; trimming drops
bytes from the front until the limit holds. Cursors count bytes since the pane
started, so the chunks are always the end of the whole output.
-/

namespace Webshell

open Slice

def historyChunkMaxBytes : Nat := 32 * 1024

def averageHistoryBytesPerLine : Int := 350

def defaultTerminalScrollback : Int := 5000

def historyLimitBytesForTerminalScrollback (scrollback : Int) : Int :=
  let scrollback := if scrollback < 100 ∨ 100000 < scrollback then defaultTerminalScrollback else scrollback
  scrollback * averageHistoryBytesPerLine

/-- The loop of `makeHistoryChunks`, with the bytes counted down. -/
def chunksOf : Nat → Bytes → List Bytes
  | 0, _ => []
  | n + 1, data =>
    if data = [] then []
    else data.take historyChunkMaxBytes :: chunksOf n (data.drop historyChunkMaxBytes)

def makeHistoryChunks (data : Bytes) : List Bytes := chunksOf data.length data

structure PaneHistory where
  chunks : List Bytes
  bytes : Nat
  base : Nat
  /-- `end` in the source. -/
  stop : Nat
  deriving DecidableEq

/-- What an attach is told about the history; `SyncMode` is the text on the wire. -/
structure PaneHistorySnapshot where
  checkpoint : Option TerminalMemoryCheckpoint := none
  checkpointFallback : Bool := false
  chunks : List Bytes
  generation : String := ""
  syncMode : String := ""
  serverBase : Nat
  serverEnd : Nat
  deltaFrom : Nat
  deltaTo : Nat
  resizeEpoch : Nat := 0
  cols : Int := 0
  rows : Int := 0
  pixelWidth : Int := 0
  pixelHeight : Int := 0
  deriving DecidableEq

namespace PaneHistory

def empty : PaneHistory := { chunks := [], bytes := 0, base := 0, stop := 0 }

def append (h : PaneHistory) (chunk : Bytes) : PaneHistory :=
  if chunk = [] then h
  else { h with chunks := h.chunks ++ [chunk], bytes := h.bytes + chunk.length, stop := h.stop + chunk.length }

/-- The loop of `trim`: the chunks left and the bytes dropped. -/
def dropChunks : List Bytes → Nat → List Bytes × Nat
  | [], _ => ([], 0)
  | chunk :: chunks, dropBytes =>
    if dropBytes = 0 then (chunk :: chunks, 0)
    else if chunk.length ≤ dropBytes then
      let rest := dropChunks chunks (dropBytes - chunk.length)
      (rest.1, chunk.length + rest.2)
    else (chunk.drop dropBytes :: chunks, dropBytes)

def trim (h : PaneHistory) (limit : Int) : PaneHistory :=
  if limit ≤ 0 ∨ (h.bytes : Int) ≤ limit then h
  else
    let kept := dropChunks h.chunks (h.bytes - limit.toNat)
    { h with chunks := kept.1, bytes := h.bytes - kept.2, base := h.base + kept.2 }

def snapshot (h : PaneHistory) : PaneHistorySnapshot where
  chunks := h.chunks
  serverBase := h.base
  serverEnd := h.stop
  deltaFrom := h.base
  deltaTo := h.stop

/-- The loop of `snapshotFrom`. -/
def skipChunks : List Bytes → Nat → List Bytes
  | [], _ => []
  | chunk :: chunks, skip =>
    if chunk.length ≤ skip then skipChunks chunks (skip - chunk.length)
    else chunk.drop skip :: chunks

def snapshotFrom (h : PaneHistory) (cursor : Nat) : PaneHistorySnapshot :=
  let cursor := if cursor < h.base then h.base else cursor
  let cursor := if h.stop < cursor then h.stop else cursor
  { chunks := if h.stop ≤ cursor then [] else skipChunks h.chunks (cursor - h.base)
    serverBase := h.base, serverEnd := h.stop, deltaFrom := cursor, deltaTo := h.stop }

end PaneHistory

/-! ## The chunks are the end of the output -/

theorem chunksOf_flatten : ∀ (n : Nat) (data : Bytes), data.length ≤ n → (chunksOf n data).flatten = data
  | 0, data, h => by
    have hd : data = [] := List.eq_nil_of_length_eq_zero (by omega)
    simp [chunksOf, hd]
  | n + 1, data, h => by
    rw [chunksOf]
    split
    · rename_i hd; rw [hd]; rfl
    · rename_i hd
      have hpos : 0 < data.length := List.length_pos_of_ne_nil hd
      have hle : (data.drop historyChunkMaxBytes).length ≤ n := by
        rw [List.length_drop]; unfold historyChunkMaxBytes; omega
      rw [List.flatten_cons, chunksOf_flatten n _ hle, List.take_append_drop]

theorem makeHistoryChunks_flatten (data : Bytes) : (makeHistoryChunks data).flatten = data :=
  chunksOf_flatten _ _ (Nat.le_refl _)

theorem chunksOf_nonempty : ∀ (n : Nat) (data : Bytes), ∀ chunk ∈ chunksOf n data,
    chunk ≠ [] ∧ chunk.length ≤ historyChunkMaxBytes
  | 0, data, chunk, h => by cases h
  | n + 1, data, chunk, h => by
    rw [chunksOf] at h
    split at h
    · cases h
    · rename_i hd
      rcases List.mem_cons.mp h with rfl | h
      · refine ⟨?_, List.length_take_le ..⟩
        rw [Ne, List.take_eq_nil_iff, not_or]
        exact ⟨by decide, hd⟩
      · exact chunksOf_nonempty n _ chunk h

/-- `h` is what is left of the output `out`. -/
structure HistoryInv (out : Bytes) (h : PaneHistory) : Prop where
  kept : h.chunks.flatten = out.drop h.base
  stop_eq : h.stop = out.length
  base_le : h.base ≤ out.length
  bytes_eq : h.bytes = h.chunks.flatten.length

theorem dropChunks_spec : ∀ (chunks : List Bytes) (n : Nat),
    (PaneHistory.dropChunks chunks n).1.flatten = chunks.flatten.drop (PaneHistory.dropChunks chunks n).2 ∧
      (PaneHistory.dropChunks chunks n).2 = min n chunks.flatten.length
  | [], n => by simp [PaneHistory.dropChunks]
  | chunk :: chunks, n => by
    rw [PaneHistory.dropChunks]
    split
    · rename_i hz; simp [hz]
    · split
      · rename_i hle
        obtain ⟨hf, hn⟩ := dropChunks_spec chunks (n - chunk.length)
        refine ⟨?_, ?_⟩
        · simp only [hf, List.flatten_cons, List.drop_append, Nat.add_sub_cancel_left]
          rw [List.drop_of_length_le (Nat.le_add_right ..), List.nil_append]
        · simp only [hn, List.flatten_cons, List.length_append]; omega
      · rename_i hlt
        have hle : n ≤ chunk.length := by omega
        refine ⟨?_, ?_⟩
        · rw [List.flatten_cons, List.flatten_cons, List.drop_append_of_le_length hle]
        · rw [List.flatten_cons, List.length_append]; omega

theorem skipChunks_flatten : ∀ (chunks : List Bytes) (n : Nat),
    (PaneHistory.skipChunks chunks n).flatten = chunks.flatten.drop n
  | [], n => by simp [PaneHistory.skipChunks]
  | chunk :: chunks, n => by
    rw [PaneHistory.skipChunks, List.flatten_cons, List.drop_append]
    split
    · rename_i hle
      rw [skipChunks_flatten chunks, List.drop_of_length_le hle, List.nil_append]
    · rename_i hlt
      have hz : n - chunk.length = 0 := by omega
      rw [List.flatten_cons, hz, List.drop_zero]

namespace HistoryInv

variable {out : Bytes} {h : PaneHistory}

theorem empty : HistoryInv [] PaneHistory.empty := ⟨rfl, rfl, Nat.le_refl _, rfl⟩

theorem append (hi : HistoryInv out h) (chunk : Bytes) : HistoryInv (out ++ chunk) (h.append chunk) := by
  unfold PaneHistory.append
  split
  · rename_i hc; rw [hc, List.append_nil]; exact hi
  · constructor
    · simp only
      rw [List.flatten_append, hi.kept, List.drop_append_of_le_length hi.base_le]; simp
    · simp [hi.stop_eq]
    · simp only [List.length_append]; have := hi.base_le; omega
    · simp [hi.bytes_eq]

theorem appendAll (hi : HistoryInv out h) (chunks : List Bytes) :
    HistoryInv (out ++ chunks.flatten) (chunks.foldl PaneHistory.append h) := by
  induction chunks generalizing out h with
  | nil => rw [List.flatten_nil, List.append_nil]; exact hi
  | cons chunk chunks ih =>
    have := ih (hi.append chunk)
    rwa [List.append_assoc] at this

theorem trim (hi : HistoryInv out h) (limit : Int) : HistoryInv out (h.trim limit) := by
  unfold PaneHistory.trim
  split
  · exact hi
  · obtain ⟨hf, hn⟩ := dropChunks_spec h.chunks (h.bytes - limit.toNat)
    have hk := hi.kept
    have hb := hi.bytes_eq
    have hle := hi.base_le
    have hlen : h.chunks.flatten.length = out.length - h.base := by rw [hk, List.length_drop]
    constructor
    · simp only
      rw [hf, hk, List.drop_drop]
    · exact hi.stop_eq
    · simp only; omega
    · simp only
      rw [hf, List.length_drop]; omega

theorem snapshot_chunks (hi : HistoryInv out h) :
    h.snapshot.chunks.flatten = slice out h.snapshot.deltaFrom h.snapshot.deltaTo := by
  show h.chunks.flatten = slice out h.base h.stop
  rw [hi.stop_eq, slice_to_end, hi.kept]

theorem snapshotFrom_chunks (hi : HistoryInv out h) {cursor : Nat} (hb : h.base ≤ cursor) (he : cursor ≤ h.stop) :
    (h.snapshotFrom cursor).deltaFrom = cursor ∧ (h.snapshotFrom cursor).deltaTo = h.stop ∧
      (h.snapshotFrom cursor).chunks.flatten = slice out cursor h.stop := by
  unfold PaneHistory.snapshotFrom
  rw [if_neg (by omega : ¬ cursor < h.base)]
  simp only
  rw [if_neg (by omega : ¬ h.stop < cursor)]
  refine ⟨rfl, trivial, ?_⟩
  split
  · have hc : cursor = h.stop := by omega
    rw [hc, slice_self]; rfl
  · rw [skipChunks_flatten, hi.kept, List.drop_drop, hi.stop_eq, slice_to_end]
    congr 1; omega

end HistoryInv

end Webshell
