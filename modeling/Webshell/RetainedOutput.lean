import Webshell.Machine
import Mathlib.Algebra.Group.Nat.Defs

/-!
# The replay of a retained shell

A shell that is kept has the end of its output in a window, which moves on as
the shell writes. The loop of the session that is attached reads chunk after
chunk behind its own cursor, and is told when the window has passed it.
-/

namespace Webshell

def replayLimit : Nat := 2 ^ 20

/-- The largest chunk, and the size of the buffer the shell is read with. -/
def replayChunk : Nat := 32 * 2 ^ 10

/-- A retained shell, as far as its output goes. -/
structure ReplayWindow where
  history : List UInt8 := []
  base : Nat := 0
  ended : Bool := false
  deriving DecidableEq

structure ReplayTurn where
  data : List UInt8
  next : Nat
  ended : Bool
  lost : Bool
  deriving DecidableEq

namespace ReplayWindow

/-- `readOutput`, when the shell has been read. -/
def append (r : ReplayWindow) (data : List UInt8) : ReplayWindow :=
  let history := r.history ++ data
  if replayLimit < history.length then
    let drop := history.length - replayLimit
    { r with history := history.drop drop, base := r.base + drop }
  else { r with history := history }

/-- None when the bounds of the slice are not in its range. -/
def chunk (r : ReplayWindow) (cursor : Nat) : Option ReplayTurn :=
  let lost := cursor < r.base
  let cursor := if lost then r.base else cursor
  let offset : Int := cursor - r.base
  let n : Int := min (r.history.length - offset) replayChunk
  if 0 ≤ offset ∧ offset ≤ offset + n ∧ offset + n ≤ r.history.length then
    some {
      data := (r.history.drop offset.toNat).take n.toNat
      next := cursor + n.toNat
      ended := r.ended
      lost := lost }
  else none

end ReplayWindow

/-! ## The loop -/

inductive ReplayEvent
  | output (data : List UInt8)
  | ended
  /-- The loop is at its head. -/
  | turn

/-- `output` is all that the shell has ever written, `turns` is what `chunk` has returned. -/
structure ReplayLoop where
  shell : ReplayWindow := {}
  cursor : Nat := 0
  exited : Bool := false
  output : List UInt8 := []
  turns : List ReplayTurn := []

namespace ReplayLoop

def turn (l : ReplayLoop) (t : ReplayTurn) : ReplayLoop :=
  let l := { l with turns := l.turns ++ [t] }
  if t.data ≠ [] then { l with cursor := t.next }
  else if t.ended = true then { l with exited := true }
  else l

end ReplayLoop

def replayLoopMachine : Machine ReplayLoop ReplayEvent where
  step l
    | .output data =>
      if data ≠ [] ∧ data.length ≤ replayChunk ∧ l.shell.ended = false then
        some { l with shell := l.shell.append data, output := l.output ++ data }
      else none
    | .ended => if l.shell.ended = false then some { l with shell := { l.shell with ended := true } } else none
    | .turn => if l.exited = false then (l.shell.chunk l.cursor).map l.turn else none

/-- The output, with a gap before the data of every turn that was told of a loss and of no other. -/
inductive Replayed : List ReplayTurn → List UInt8 → Prop
  | start : Replayed [] []
  | turn {turns : List ReplayTurn} {output : List UInt8} (gap : List UInt8) (t : ReplayTurn) (h : Replayed turns output)
      (hgap : gap ≠ [] ↔ t.lost = true) : Replayed (turns ++ [t]) (output ++ gap ++ t.data)

/-! ## The window -/

/-- The window is the end of the output, and it is full once it has moved. -/
structure ReplayWindow.Shows (r : ReplayWindow) (output : List UInt8) : Prop where
  history : r.history = output.drop r.base
  base : r.base ≤ output.length
  full : r.base ≠ 0 → r.history.length = replayLimit

namespace ReplayWindow

variable {r : ReplayWindow} {output : List UInt8}

theorem Shows.append (h : r.Shows output) (data : List UInt8) : (r.append data).Shows (output ++ data) := by
  obtain ⟨hhistory, hbase, hfull⟩ := h
  have hall : r.history ++ data = (output ++ data).drop r.base := by
    rw [List.drop_append_of_le_length hbase, hhistory]
  have hlength := congrArg List.length hall
  simp only [List.length_drop, List.length_append] at hlength
  unfold ReplayWindow.append
  simp only
  split
  · refine ⟨?_, ?_, fun _ => ?_⟩
    · simp only
      rw [hall, List.drop_drop]
    · simp only [List.length_append] at *
      omega
    · simp only [List.length_drop, List.length_append] at *
      omega
  · rename_i hle
    refine ⟨hall, ?_, fun hne => ?_⟩
    · change r.base ≤ _
      rw [List.length_append]
      omega
    · have hlen := hfull hne
      simp only [List.length_append] at *
      omega

/-- The slice is in its range, and the chunk starts where the window does if it has passed the cursor. -/
theorem Shows.chunk (h : r.Shows output) {cursor : Nat} (hc : cursor ≤ output.length) :
    ∃ n, r.chunk cursor = some {
        data := (output.drop (max cursor r.base)).take n, next := max cursor r.base + n, ended := r.ended,
        lost := cursor < r.base } ∧
      n = min (output.length - max cursor r.base) replayChunk := by
  obtain ⟨hhistory, hbase, -⟩ := h
  have hlength := congrArg List.length hhistory
  rw [List.length_drop] at hlength
  have hcursor : (if cursor < r.base then r.base else cursor) = max cursor r.base := by
    split <;> omega
  refine ⟨_, ?_, rfl⟩
  unfold ReplayWindow.chunk
  simp only [hcursor]
  rw [if_pos (by omega)]
  have hdrop : r.history.drop ((max cursor r.base : Nat) - r.base : Int).toNat = output.drop (max cursor r.base) := by
    rw [hhistory, List.drop_drop]
    congr 1
    omega
  have hn : (min ((r.history.length : Int) - ((max cursor r.base : Nat) - r.base)) replayChunk).toNat =
      min (output.length - max cursor r.base) replayChunk := by
    omega
  rw [hdrop, hn]

end ReplayWindow

/-! ## All runs -/

structure ReplayLoop.Inv (l : ReplayLoop) : Prop where
  shows : l.shell.Shows l.output
  cursor : l.cursor ≤ l.output.length
  replayed : Replayed l.turns (l.output.take l.cursor)
  exited : l.exited = true → l.shell.ended = true ∧ l.cursor = l.output.length

variable {l l' : ReplayLoop}

/-- A turn that is told of a loss has data, as the window is full: the loop never hears of one loss twice. -/
theorem ReplayLoop.Inv.chunk (h : l.Inv) :
    ∃ p t, l.shell.chunk l.cursor = some t ∧ l.cursor ≤ p ∧ p ≤ l.output.length ∧
      Replayed (l.turns ++ [t]) (l.output.take (p + t.data.length)) ∧
      t.next = p + t.data.length ∧ t.next ≤ l.output.length ∧ t.ended = l.shell.ended ∧
      (t.data = [] → p = l.cursor ∧ l.cursor = l.output.length) := by
  obtain ⟨n, hchunk, hn⟩ := h.shows.chunk h.cursor
  obtain ⟨hshows, hcursor, hreplayed, -⟩ := h
  have hlength := congrArg List.length hshows.history
  have hbase := hshows.base
  have hfull := hshows.full
  rw [List.length_drop] at hlength
  have hpos : 0 < replayLimit ∧ 0 < replayChunk := by decide
  obtain ⟨p, hp⟩ : ∃ p, p = max l.cursor l.shell.base := ⟨_, rfl⟩
  rw [← hp] at hchunk hn
  have hdata : ((l.output.drop p).take n).length = n := by
    rw [List.length_take, List.length_drop]
    omega
  have hupTo := hreplayed.turn ((l.output.take p).drop l.cursor)
    ⟨(l.output.drop p).take n, p + n, l.shell.ended, l.cursor < l.shell.base⟩ (by
      rw [List.ne_nil_iff_length_pos, List.length_drop, List.length_take, decide_eq_true_iff]
      omega)
  have hfront := List.take_append_drop l.cursor (l.output.take p)
  rw [List.take_take, Nat.min_eq_left (by omega)] at hfront
  rw [hfront, ← List.take_add] at hupTo
  refine ⟨p, _, hchunk, by omega, by omega, ?_, ?_, ?_, rfl, fun hempty => ?_⟩
  · simp only [hdata]
    exact hupTo
  · exact congrArg (p + ·) hdata.symm
  · simp only
    omega
  · simp only at hempty
    rw [hempty, List.length_nil] at hdata
    by_cases hb : l.shell.base = 0
    · omega
    · have := hfull hb
      omega

theorem replayLoopMachine_step {e : ReplayEvent} (h : l.Inv) (hs : replayLoopMachine.step l e = some l') : l'.Inv := by
  cases e with
  | output data =>
    unfold replayLoopMachine at hs
    simp only at hs
    split at hs
    · rename_i hc
      cases hs
      refine ⟨h.shows.append data, ?_, ?_, fun he => ?_⟩
      · have hcursor := h.cursor
        simp only [List.length_append]
        omega
      · simp only
        rw [List.take_append_of_le_length h.cursor]
        exact h.replayed
      · cases hc.2.2.symm.trans (h.exited he).1
    · cases hs
  | ended =>
    unfold replayLoopMachine at hs
    simp only at hs
    split at hs
    · cases hs
      exact ⟨⟨h.shows.history, h.shows.base, h.shows.full⟩, h.cursor, h.replayed, fun he => ⟨rfl, (h.exited he).2⟩⟩
    · cases hs
  | turn =>
    unfold replayLoopMachine at hs
    simp only at hs
    split at hs
    · rename_i hrunning
      obtain ⟨t, ht, rfl⟩ := Option.map_eq_some_iff.mp hs
      obtain ⟨p, t', ht', -, -, hreplayed, hnext, hle, hended, hend⟩ := h.chunk
      cases ht.symm.trans ht'
      unfold ReplayLoop.turn
      simp only
      by_cases hdata : t.data ≠ []
      · rw [if_pos hdata]
        refine ⟨h.shows, hle, ?_, fun he => ?_⟩
        · simp only
          rw [hnext]
          exact hreplayed
        · cases hrunning.symm.trans he
      · obtain ⟨hp, hcursor⟩ := hend (not_not.mp hdata)
        rw [if_neg hdata]
        rw [not_not.mp hdata, hp, List.length_nil, Nat.add_zero] at hreplayed
        split
        · rename_i he
          exact ⟨h.shows, h.cursor, hreplayed, fun _ => ⟨hended.symm.trans he, hcursor⟩⟩
        · exact ⟨h.shows, h.cursor, hreplayed, h.exited⟩
    · cases hs

theorem ReplayLoop.inv_start : ({} : ReplayLoop).Inv where
  shows := ⟨rfl, Nat.le_refl _, fun hne => absurd rfl hne⟩
  cursor := Nat.le_refl _
  replayed := .start
  exited he := by cases he

/-- **What a loop that is attached sees.** The bounds of the chunk are in range wherever the loop stands; what it has got
is the output up to its cursor, with a gap exactly where it was told of a loss; and no data at the end of the output means
that nothing is left. -/
theorem retained_output {events : List ReplayEvent} (h : replayLoopMachine.run {} events = some l) :
    Replayed l.turns (l.output.take l.cursor) ∧
      (∃ t, l.shell.chunk l.cursor = some t ∧ (t.data = [] → t.lost = false ∧ l.cursor = l.output.length)) ∧
      (l.exited = true → l.cursor = l.output.length) := by
  have hinv := replayLoopMachine.run_inv (I := ReplayLoop.Inv) (fun _ _ _ => replayLoopMachine_step) h ReplayLoop.inv_start
  obtain ⟨p, t, ht, -, -, -, -, -, -, hend⟩ := hinv.chunk
  refine ⟨hinv.replayed, ⟨t, ht, fun hempty => ⟨?_, (hend hempty).2⟩⟩, fun he => (hinv.exited he).2⟩
  obtain ⟨n, hchunk, -⟩ := hinv.shows.chunk hinv.cursor
  cases ht.symm.trans hchunk
  have hbase := hinv.shows.base
  have hcursor := (hend hempty).2
  apply decide_eq_false
  omega

/-- A loop that starts when the shell has written twice. -/
theorem retained_output_attached :
    ∃ l, replayLoopMachine.run {} [.output [104, 105], .output [10], .turn, .output [36], .ended, .turn, .turn] = some l ∧
      l.cursor = l.output.length := by
  have hrun : (replayLoopMachine.run {} [.output [104, 105], .output [10], .turn, .output [36], .ended, .turn, .turn]).map
      (fun l => l.exited) = some true := by
    decide
  obtain ⟨l, hl, he⟩ := Option.map_eq_some_iff.mp hrun
  exact ⟨l, hl, (retained_output hl).2.2 he⟩

end Webshell
