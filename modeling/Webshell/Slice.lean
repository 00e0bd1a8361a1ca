import Mathlib.Data.List.Basic
import Mathlib.Data.List.TakeDrop

/-!
# Ranges of a growing list

`slice l a b` is `l` from position `a` up to, but not including, `b`. The list
is one that only grows at its end, so a range once complete never changes.
-/

namespace Slice

variable {α : Type}

def slice (l : List α) (a b : Nat) : List α := (l.drop a).take (b - a)

@[simp] theorem slice_self (l : List α) (a : Nat) : slice l a a = [] := by simp [slice]

theorem slice_to_end (l : List α) (a : Nat) : slice l a l.length = l.drop a := by
  unfold slice
  exact List.take_of_length_le (Nat.le_of_eq List.length_drop)

theorem length_slice {l : List α} {a b : Nat} (hb : b ≤ l.length) : (slice l a b).length = b - a := by
  unfold slice
  rw [List.length_take, List.length_drop]
  omega

/-- Growth at the end leaves a complete range alone. -/
theorem slice_append {l : List α} {b : Nat} (hb : b ≤ l.length) (a : Nat) (m : List α) :
    slice (l ++ m) a b = slice l a b := by
  unfold slice
  rcases Nat.le_total a l.length with ha | ha
  · rw [List.drop_append_of_le_length ha, List.take_append_of_le_length]
    rw [List.length_drop]; omega
  · have hz : b - a = 0 := by omega
    rw [hz, List.take_zero, List.take_zero]

theorem slice_join {l : List α} {a b c : Nat} (hab : a ≤ b) (hbc : b ≤ c) :
    slice l a b ++ slice l b c = slice l a c := by
  unfold slice
  have hd : l.drop b = (l.drop a).drop (b - a) := by rw [List.drop_drop]; congr 1; omega
  have hc : c - a = (b - a) + (c - b) := by omega
  rw [hd, hc, List.take_add]

/-- Reading on by a piece that stands at position `b`. -/
theorem slice_extend {l m r : List α} {a b : Nat} (hab : a ≤ b) (hr : l.drop b = m ++ r) :
    slice l a b ++ m = slice l a (b + m.length) := by
  have hm : slice l b (b + m.length) = m := by
    unfold slice
    rw [hr, Nat.add_sub_cancel_left, List.take_left]
  rw [← slice_join hab (Nat.le_add_right b m.length), hm]

/-- Reading on where the list repeats one value. -/
theorem slice_replicate {l : List α} {a b n : Nat} {x : α} (hab : a ≤ b) (hn : b + n ≤ l.length)
    (hx : ∀ y ∈ l.drop b, y = x) : slice l a (b + n) = slice l a b ++ List.replicate n x := by
  have hd : l.drop b = List.replicate (l.length - b) x :=
    List.eq_replicate_iff.mpr ⟨List.length_drop, hx⟩
  have hr : l.drop b = List.replicate n x ++ List.replicate (l.length - b - n) x := by
    rw [hd, List.replicate_append_replicate]
    congr 1
    omega
  rw [slice_extend hab hr, List.length_replicate]

end Slice
