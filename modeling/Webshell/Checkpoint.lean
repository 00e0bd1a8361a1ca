import Mathlib.Algebra.Group.Int.Defs
import Mathlib.Algebra.Group.Nat.Defs
import Mathlib.Data.List.Basic

/-!
# The checkpoint engine

A shadow terminal parser fed with the pane's output up to the last boundary at
which a new decoder can start; the bytes after it wait in `pending`. The parser
is a WASM module: whether a call into it fails is the environment's answer.
-/

namespace Webshell

abbrev Bytes := List UInt8

/-! ## UTF-8 -/

/-- Size and range of the second byte of a sequence that starts with this byte; none for
ASCII and for bytes that start nothing. -/
def runeStart (b : UInt8) : Option (Nat × UInt8 × UInt8) :=
  if b < 0xc2 then none
  else if b ≤ 0xdf then some (2, 0x80, 0xbf)
  else if b = 0xe0 then some (3, 0xa0, 0xbf)
  else if b = 0xed then some (3, 0x80, 0x9f)
  else if b ≤ 0xef then some (3, 0x80, 0xbf)
  else if b = 0xf0 then some (4, 0x90, 0xbf)
  else if b ≤ 0xf3 then some (4, 0x80, 0xbf)
  else if b = 0xf4 then some (4, 0x80, 0x8f)
  else none

def isContinuation (b : UInt8) : Bool := 0x80 ≤ b && b ≤ 0xbf

/-- `utf8.FullRune`: false only for a proper prefix of a valid sequence. -/
def fullRune : Bytes → Bool
  | [] => false
  | b :: rest =>
    match runeStart b with
    | none => true
    | some (size, low, high) =>
      if size ≤ rest.length + 1 then true
      else
        match rest with
        | [] => false
        | c :: rest =>
          if c < low || high < c then true
          else
            match rest with
            | [] => false
            | d :: _ => !isContinuation d

/-- The size `utf8.DecodeRune` answers: one for an invalid byte. -/
def decodeRuneSize : Bytes → Nat
  | [] => 0
  | b :: rest =>
    match runeStart b with
    | none => 1
    | some (size, low, high) =>
      match rest with
      | [] => 1
      | c :: rest =>
        if rest.length + 2 < size || c < low || high < c then 1
        else if (rest.take (size - 2)).all isContinuation then size
        else 1

/-! ## The boundary -/

inductive ScanState
  | ground
  | escape
  | csi
  | string
  | stringEscape
  deriving DecidableEq

/-- The state after a byte, and whether the string that is open is an OSC. -/
def scanByte (b : UInt8) (osc : Bool) : ScanState → ScanState × Bool
  | .ground => (if b = 0x1b then .escape else .ground, osc)
  | .escape =>
    if b = 0x5b then (.csi, osc)
    else if b = 0x5d ∨ b = 0x50 ∨ b = 0x5f ∨ b = 0x5e ∨ b = 0x58 then (.string, b = 0x5d)
    else if 0x30 ≤ b ∧ b ≤ 0x7e then (.ground, osc)
    else (.escape, osc)
  | .csi =>
    if b = 0x1b then (.escape, osc)
    else if 0x40 ≤ b ∧ b ≤ 0x7e then (.ground, osc)
    else (.csi, osc)
  | .string =>
    if b = 0x1b then (.stringEscape, osc)
    else if osc = true ∧ b = 7 then (.ground, osc)
    else (.string, osc)
  | .stringEscape =>
    if b = 0x5c then (.ground, osc)
    else if b ≠ 0x1b then (.string, osc)
    else (.stringEscape, osc)

/-- The loop at position `i`; `skip` bytes still belong to a decoded rune. -/
def boundaryLoop : Bytes → Nat → Nat → Nat → ScanState → Bool → Nat
  | [], _, _, safe, _, _ => safe
  | _ :: rest, skip + 1, i, safe, state, osc => boundaryLoop rest skip (i + 1) safe state osc
  | b :: rest, 0, i, safe, state, osc =>
    if state = .ground ∧ 0x80 ≤ b then
      if !fullRune (b :: rest) then safe
      else
        let size := decodeRuneSize (b :: rest)
        boundaryLoop rest (size - 1) (i + 1) (i + size) .ground osc
    else
      let state := if b = 0x18 ∨ b = 0x1a then .ground else state
      let next := scanByte b osc state
      boundaryLoop rest 0 (i + 1) (if next.1 = .ground then i + 1 else safe) next.1 next.2

def terminalCheckpointBoundary (data : Bytes) : Nat := boundaryLoop data 0 0 0 .ground false

/-- `bytes.Contains` of the start of a graphics command. -/
def containsGraphics : Bytes → Bool
  | 0x1b :: 0x5f :: 0x47 :: _ => true
  | _ :: rest => containsGraphics rest
  | [] => false

/-! ## The engine -/

structure CheckpointEngine where
  cols : Int
  rows : Int
  scrollback : Int
  capacity : Int
  pending : Bytes
  err : Option String
  legacyGraphics : Bool
  /-- The module is gone. -/
  closed : Bool
  deriving DecidableEq

structure TerminalMemoryCheckpoint where
  cols : Int
  rows : Int
  scrollbackLines : Int
  scrollbackBytes : Int
  cursor : Nat
  deriving DecidableEq

/-- What the calls into the WASM module answer, when they are made. -/
structure ParserAnswers where
  /-- Allocating, writing and draining responses. -/
  write : Option String := none
  setScrollbackLimit : Option String := none
  resize : Option String := none
  /-- Reading and compressing the memory. -/
  snapshot : Option String := none

namespace CheckpointEngine

def scrollbackCapacity (scrollback cols rows : Int) : Int :=
  min (128 * 2 ^ 20) (max (2 ^ 20) ((scrollback + max 1 rows) * (max 1 cols + 64) * 16 + 512 * 2 ^ 10))

def new (cols rows lines : Int) : CheckpointEngine where
  cols := cols
  rows := rows
  scrollback := lines
  capacity := scrollbackCapacity lines cols rows
  pending := []
  err := none
  legacyGraphics := false
  closed := false

def close (e : CheckpointEngine) : CheckpointEngine :=
  if e.closed then e else { e with closed := true, pending := [] }

/-- The engine still follows the output. -/
def healthy (e : CheckpointEngine) : Bool := !e.closed && e.err.isNone && !e.legacyGraphics

def write (e : CheckpointEngine) (data : Bytes) (answers : ParserAnswers) : CheckpointEngine :=
  if !e.healthy then e
  else
    let input := e.pending ++ data
    if containsGraphics input then { e with legacyGraphics := true, pending := [] }.close
    else
      let boundary := terminalCheckpointBoundary input
      let e := { e with pending := input.drop boundary }
      if 2 ^ 20 < e.pending.length then { e with err := some "checkpoint control sequence exceeds limit" }
      else if boundary = 0 then e
      else { e with err := answers.write }

def resize (e : CheckpointEngine) (cols rows lines : Int) (answers : ParserAnswers) : CheckpointEngine :=
  if !e.healthy then e
  else
    let capacity := scrollbackCapacity lines cols rows
    let e := { e with scrollback := lines }
    let e := if e.capacity < capacity then { e with err := answers.setScrollbackLimit, capacity := capacity } else e
    if e.err.isSome then e
    else if cols = e.cols ∧ rows = e.rows then e
    else
      match answers.resize with
      | some err => { e with err := some err }
      | none => { e with cols := cols, rows := rows }

def snapshot (e : CheckpointEngine) (cursor : Nat) (answers : ParserAnswers) :
    Except String (Option TerminalMemoryCheckpoint) :=
  match e.err with
  | some err => .error err
  | none =>
    if e.legacyGraphics then .ok none
    else if e.closed then .error "checkpoint terminal is closed"
    else
      match answers.snapshot with
      | some err => .error err
      | none => .ok (some {
          cols := e.cols, rows := e.rows, scrollbackLines := e.scrollback, scrollbackBytes := e.capacity
          cursor := cursor - e.pending.length })

end CheckpointEngine

example : terminalCheckpointBoundary [0x61, 0x1b, 0x5b, 0x33, 0x31] = 1 := by decide

/-! ## The pending bytes end the output -/

/-- While it follows the output, the engine holds back the end of it. -/
def PendingInv (out : Bytes) (e : CheckpointEngine) : Prop := e.healthy = true → e.pending <:+ out

theorem PendingInv.write {out : Bytes} {e : CheckpointEngine} (h : PendingInv out e) (data : Bytes)
    (answers : ParserAnswers) : PendingInv (out ++ data) (e.write data answers) := by
  unfold CheckpointEngine.write
  split
  · rename_i hs
    intro hh; rw [hh] at hs; cases hs
  · rename_i hs
    have hs : e.healthy = true := by simpa using hs
    obtain ⟨front, hf⟩ := h hs
    have hin : e.pending ++ data <:+ out ++ data := ⟨front, by rw [← List.append_assoc, hf]⟩
    simp only
    split
    · intro hh
      unfold CheckpointEngine.close CheckpointEngine.healthy at hh
      split at hh <;> simp at hh
    · have hsuf : (e.pending ++ data).drop (terminalCheckpointBoundary (e.pending ++ data)) <:+ out ++ data :=
        (List.drop_suffix ..).trans hin
      split
      · exact fun _ => hsuf
      · split <;> exact fun _ => hsuf

/-- Resizing and closing keep what is pending, or stop the engine. -/
theorem PendingInv.of_pending {out : Bytes} {e e' : CheckpointEngine} (h : PendingInv out e)
    (hp : e'.healthy = true → e.healthy = true ∧ e'.pending = e.pending) : PendingInv out e' := by
  intro hh
  obtain ⟨hs, he⟩ := hp hh
  rw [he]; exact h hs

theorem PendingInv.resize {out : Bytes} {e : CheckpointEngine} (h : PendingInv out e) (cols rows lines : Int)
    (answers : ParserAnswers) : PendingInv out (e.resize cols rows lines answers) := by
  refine h.of_pending fun hh => ?_
  unfold CheckpointEngine.resize at hh ⊢
  split at hh
  · rename_i hs; rw [hh] at hs; cases hs
  · rename_i hs
    rw [if_neg hs]
    refine ⟨by simpa using hs, ?_⟩
    simp only
    split <;> split <;> first | rfl | (split <;> first | rfl | (split <;> rfl))

theorem PendingInv.close {out : Bytes} {e : CheckpointEngine} : PendingInv out e.close := by
  intro hh
  unfold CheckpointEngine.close CheckpointEngine.healthy at hh
  split at hh
  · rename_i hc; rw [hc] at hh; simp at hh
  · simp at hh

/-- A checkpoint is only taken of an engine that follows the output. -/
theorem snapshot_healthy {e : CheckpointEngine} {cursor : Nat} {answers : ParserAnswers}
    {checkpoint : TerminalMemoryCheckpoint} (h : e.snapshot cursor answers = .ok (some checkpoint)) :
    e.healthy = true := by
  unfold CheckpointEngine.snapshot at h
  unfold CheckpointEngine.healthy
  split at h
  · cases h
  · rename_i herr
    split at h
    · cases h
    · rename_i hg
      split at h
      · cases h
      · rename_i hc
        simp [herr, hg, hc]

end Webshell
