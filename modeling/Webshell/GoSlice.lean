import Mathlib.Data.List.Basic
import Mathlib.Data.List.TakeDrop

/-!
# Slices of the Go language

A slice is the first cells of an array. Cutting a slice keeps its array, and
appending writes into it while there is room, so the cells behind the slice are
overwritten. What is appended or copied is read before anything is written.
-/

structure GoSlice (α : Type) where
  cells : List α
  length : Nat
  bounded : length ≤ cells.length

namespace GoSlice

variable {α : Type}

def view (s : GoSlice α) : List α := s.cells.take s.length

theorem length_view (s : GoSlice α) : s.view.length = s.length := by
  unfold view
  rw [List.length_take]
  have := s.bounded
  omega

/-- `s[:n]`. -/
def upTo (s : GoSlice α) (n : Nat) : GoSlice α where
  cells := s.cells
  length := min n s.length
  bounded := Nat.le_trans (Nat.min_le_right ..) s.bounded

theorem view_upTo (s : GoSlice α) (n : Nat) : (s.upTo n).view = s.view.take n := by
  unfold view upTo
  rw [List.take_take]

/-- `append(s, xs...)`. -/
def append (s : GoSlice α) (xs : List α) : GoSlice α where
  cells :=
    if s.length + xs.length ≤ s.cells.length then
      s.cells.take s.length ++ (xs ++ s.cells.drop (s.length + xs.length))
    else s.view ++ xs
  length := s.length + xs.length
  bounded := by
    have := s.bounded
    split
    · simp only [List.length_append, List.length_take, List.length_drop]
      omega
    · rewrite [List.length_append, length_view]
      exact Nat.le_refl _

theorem view_append (s : GoSlice α) (xs : List α) : (s.append xs).view = s.view ++ xs := by
  have hlen : (s.view ++ xs).length = s.length + xs.length := by rw [List.length_append, length_view]
  show List.take (s.length + xs.length) _ = s.view ++ xs
  simp only [append]
  split
  · rw [← List.append_assoc, ← hlen]
    exact List.take_left
  · rw [← hlen]
    exact List.take_length

/-- `copy(s[i:], xs)`. -/
def copyAt (s : GoSlice α) (i : Nat) (xs : List α) : GoSlice α where
  cells := s.cells.take i ++ (xs.take (s.length - i) ++ s.cells.drop (i + (xs.take (s.length - i)).length))
  length := s.length
  bounded := by
    have := s.bounded
    simp only [List.length_append, List.length_take, List.length_drop]
    omega

theorem view_copyAt (s : GoSlice α) {i : Nat} {xs : List α} (hi : i ≤ s.length) (hxs : s.length ≤ i + xs.length) :
    (s.copyAt i xs).view = s.view.take i ++ xs.take (s.length - i) := by
  have hcells : (s.copyAt i xs).cells = s.cells.take i ++ (xs.take (s.length - i) ++
      s.cells.drop (i + (xs.take (s.length - i)).length)) := rfl
  have hlen : (s.cells.take i ++ xs.take (s.length - i)).length = s.length := by
    have := s.bounded
    rw [List.length_append, List.length_take, List.length_take]
    omega
  show (s.copyAt i xs).cells.take s.length = _
  rw [hcells, ← List.append_assoc, List.take_left' hlen]
  unfold view
  rw [List.take_take, Nat.min_eq_left hi]

/-- `s[i] = x`. -/
def setAt (s : GoSlice α) (i : Nat) (x : α) : GoSlice α where
  cells := s.cells.set i x
  length := s.length
  bounded := by
    rw [List.length_set]
    exact s.bounded

theorem view_setAt (s : GoSlice α) (i : Nat) (x : α) : (s.setAt i x).view = s.view.set i x := List.take_set

/-! ## Taking out and putting in -/

/-- `append(s[:i], s[i+1:]...)`. -/
def removeAt (s : GoSlice α) (i : Nat) : GoSlice α := (s.upTo i).append (s.view.drop (i + 1))

/-- `append(s[:i], append([]T{x}, s[i:]...)...)`: the inner slice has an array of its own. -/
def insertAt (s : GoSlice α) (i : Nat) (x : α) : GoSlice α := (s.upTo i).append (x :: s.view.drop i)

/-- A cell more at the end, the cells from `i` on moved up, and `x` in the gap. -/
def openAt (s : GoSlice α) (i : Nat) (x zero : α) : GoSlice α :=
  let s := s.append [zero]
  (s.copyAt (i + 1) (s.view.drop i)).setAt i x

theorem view_removeAt (s : GoSlice α) (i : Nat) : (s.removeAt i).view = s.view.eraseIdx i := by
  unfold removeAt
  rw [view_append, view_upTo, List.eraseIdx_eq_take_drop_succ]

theorem insertIdx_split {p q : List α} {i : Nat} (hi : p.length = i) (x : α) :
    (p ++ q).insertIdx i x = p ++ x :: q := by
  subst hi
  induction p with
  | nil => exact List.insertIdx_zero
  | cons y p ih => rw [List.cons_append, List.length_cons, List.insertIdx_succ_cons, ih, List.cons_append]

theorem view_insertAt (s : GoSlice α) {i : Nat} (hi : i ≤ s.length) (x : α) :
    (s.insertAt i x).view = s.view.insertIdx i x := by
  have hlen : (s.view.take i).length = i := by
    rw [List.length_take, length_view]
    omega
  unfold insertAt
  rw [view_append, view_upTo, ← insertIdx_split hlen, List.take_append_drop]

theorem view_openAt (s : GoSlice α) {i : Nat} (hi : i ≤ s.length) (x zero : α) :
    (s.openAt i x zero).view = s.view.insertIdx i x := by
  obtain ⟨p, q, hview, hp⟩ : ∃ p q, s.view = p ++ q ∧ p.length = i :=
    ⟨_, _, (List.take_append_drop i s.view).symm, by rw [List.length_take, length_view]; omega⟩
  have hlen : i + q.length = s.length := by rw [← length_view, hview, List.length_append, hp]
  have happended : (s.append [zero]).view = p ++ (q ++ [zero]) := by rw [view_append, hview, List.append_assoc]
  have hdrop : (s.append [zero]).view.drop i = q ++ [zero] := by rw [happended, ← hp, List.drop_left]
  have hgap : (p ++ (q ++ [zero])).take (i + 1) = p ++ (q ++ [zero]).take 1 := by
    rw [← hp, List.take_length_add_append]
  have hcopied : ((s.append [zero]).copyAt (i + 1) (q ++ [zero])).view = p ++ (q ++ [zero]).take 1 ++ q := by
    have hmore : s.length + 1 ≤ i + 1 + (q ++ [zero]).length := by
      rw [List.length_append, List.length_singleton]
      omega
    rw [view_copyAt (s.append [zero]) (Nat.succ_le_succ hi) hmore, happended, hgap]
    congr 1
    apply List.take_left'
    show q.length = s.length + 1 - (i + 1)
    omega
  unfold openAt
  simp only
  rw [view_setAt, hdrop, hcopied, hview, insertIdx_split hp]
  have hfirst : ∃ y, (q ++ [zero]).take 1 = [y] := by cases q <;> exact ⟨_, rfl⟩
  obtain ⟨y, hy⟩ := hfirst
  rw [hy, List.append_assoc, List.set_append_right _ _ (Nat.le_of_eq hp), hp, Nat.sub_self]
  rfl

end GoSlice
