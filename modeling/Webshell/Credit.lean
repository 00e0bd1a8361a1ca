import Webshell.Slice
import Mathlib.Algebra.BigOperators.Group.List.Basic
import Mathlib.Algebra.GroupWithZero.Nat
import Mathlib.Algebra.Ring.Int.Defs

/-!
# Cumulative credit

A sender takes credit for each item of a growing list of sizes, groups what it
took under marks, and gets it back by marks: position `p` returned means the
first `p` items are. A ledger is what is still out: the marks not returned, and
the credit taken since the last of them.
-/

namespace Credit

open Slice

variable {β : Type} (pos : β → Nat) (amount : β → Int)

/-- `Ledger sizes a marks current`: of `sizes`, those from position `a` on are out,
split by the marks in order, with `current` for those after the last mark. -/
def Ledger (sizes : List Nat) : Nat → List β → Int → Prop
  | a, [], current => a ≤ sizes.length ∧ current = (sizes.drop a).sum
  | a, b :: marks, current =>
    a < pos b ∧ pos b ≤ sizes.length ∧ amount b = (slice sizes a (pos b)).sum ∧ Ledger sizes (pos b) marks current

/-- The position up to which everything is under a mark. -/
def closed : Nat → List β → Nat
  | a, [] => a
  | _, b :: marks => closed (pos b) marks

variable {pos amount} {sizes : List Nat} {a : Nat} {marks : List β} {current : Int}

theorem closed_append (a : Nat) (marks : List β) (b : β) : closed pos a (marks ++ [b]) = pos b := by
  induction marks generalizing a with
  | nil => rfl
  | cons c marks ih => exact ih (pos c)

theorem closed_split (a : Nat) (before : List β) (b : β) (after : List β) :
    closed pos a (before ++ b :: after) = closed pos (pos b) after := by
  induction before generalizing a with
  | nil => rfl
  | cons c before ih => exact ih (pos c)

theorem sum_slice_drop (sizes : List Nat) {a b : Nat} (hab : a ≤ b) (hb : b ≤ sizes.length) :
    (slice sizes a b).sum + (sizes.drop b).sum = (sizes.drop a).sum := by
  rw [← slice_to_end sizes b, ← slice_to_end sizes a, ← slice_join hab hb, List.sum_append]

namespace Ledger

theorem start_le (h : Ledger pos amount sizes a marks current) : a ≤ sizes.length := by
  cases marks with
  | nil => exact h.1
  | cons b marks => exact Nat.le_trans (Nat.le_of_lt h.1) h.2.1

theorem closed_le (h : Ledger pos amount sizes a marks current) : closed pos a marks ≤ sizes.length := by
  induction marks generalizing a with
  | nil => exact h.1
  | cons b marks ih => exact ih h.2.2.2

/-- **Conservation.** The marks and the credit since the last of them make up what is out. -/
theorem total (h : Ledger pos amount sizes a marks current) :
    (marks.map amount).sum + current = (sizes.drop a).sum := by
  induction marks generalizing a with
  | nil => simpa using h.2
  | cons b marks ih =>
    obtain ⟨hlt, hle, hb, hrest⟩ := h
    have hsum := sum_slice_drop sizes (Nat.le_of_lt hlt) hle
    rw [List.map_cons, List.sum_cons, add_assoc, ih hrest, hb, ← hsum, Int.natCast_add]

theorem current_eq (h : Ledger pos amount sizes a marks current) :
    current = (sizes.drop (closed pos a marks)).sum := by
  induction marks generalizing a with
  | nil => exact h.2
  | cons b marks ih => exact ih h.2.2.2

theorem current_zero (h : Ledger pos amount sizes a marks current) (hc : closed pos a marks = sizes.length) :
    current = 0 := by
  rw [h.current_eq, hc, List.drop_length]; rfl

theorem empty : Ledger pos amount [] 0 [] 0 := ⟨Nat.le_refl 0, rfl⟩

/-- Credit is taken for one more item. -/
theorem take (h : Ledger pos amount sizes a marks current) (n : Nat) :
    Ledger pos amount (sizes ++ [n]) a marks (current + n) := by
  induction marks generalizing a with
  | nil =>
    obtain ⟨hle, hc⟩ := h
    refine ⟨by rw [List.length_append]; omega, ?_⟩
    rw [List.drop_append_of_le_length hle, List.sum_append, hc]; simp
  | cons b marks ih =>
    obtain ⟨hlt, hle, hb, hrest⟩ := h
    refine ⟨hlt, by rw [List.length_append]; omega, ?_, ih hrest⟩
    rw [slice_append hle]; exact hb

/-- What was taken since the last mark is put under a new one. -/
theorem mark (h : Ledger pos amount sizes a marks current) {b : β} (hlt : closed pos a marks < sizes.length)
    (hpos : pos b = sizes.length) (hamount : amount b = current) :
    Ledger pos amount sizes a (marks ++ [b]) 0 := by
  induction marks generalizing a with
  | nil =>
    obtain ⟨hle, hc⟩ := h
    refine ⟨hpos ▸ hlt, Nat.le_of_eq hpos, ?_, ?_⟩
    · rw [hamount, hc, hpos, slice_to_end]
    · exact ⟨Nat.le_of_eq hpos, by rw [hpos, List.drop_length]; rfl⟩
  | cons c marks ih =>
    obtain ⟨hlt', hle, hc, hrest⟩ := h
    exact ⟨hlt', hle, hc, ih hrest hlt⟩

/-- Returning a mark returns those before it, and leaves those after it out. -/
theorem release {before : List β} {b : β} {after : List β}
    (h : Ledger pos amount sizes a (before ++ b :: after) current) : Ledger pos amount sizes (pos b) after current := by
  induction before generalizing a with
  | nil => exact h.2.2.2
  | cons c before ih => exact ih h.2.2.2

theorem lt_pos (h : Ledger pos amount sizes a marks current) {b : β} (hb : b ∈ marks) : a < pos b := by
  induction marks generalizing a with
  | nil => cases hb
  | cons c marks ih =>
    rcases List.mem_cons.mp hb with rfl | hb
    · exact h.1
    · exact Nat.lt_trans h.1 (ih h.2.2.2 hb)

theorem pos_lt {before : List β} {b : β} {after : List β}
    (h : Ledger pos amount sizes a (before ++ b :: after) current) {c : β} (hc : c ∈ before) : pos c < pos b := by
  induction before generalizing a with
  | nil => cases hc
  | cons d before ih =>
    rcases List.mem_cons.mp hc with rfl | hc
    · exact lt_pos h.2.2.2 (List.mem_append_right _ (List.mem_cons_self ..))
    · exact ih h.2.2.2 hc

/-- What comes back with a mark is the sum of the marks returned. -/
theorem returned {before : List β} {b : β} {after : List β}
    (h : Ledger pos amount sizes a (before ++ b :: after) current) :
    ((sizes.drop a).sum : Int) - ((before ++ [b]).map amount).sum = (sizes.drop (pos b)).sum := by
  have ht := h.total
  have hr := h.release.total
  simp only [List.map_append, List.sum_append, List.map_cons, List.sum_cons, List.map_nil, List.sum_nil] at ht ⊢
  omega

end Ledger

end Credit
