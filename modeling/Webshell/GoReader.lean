import Mathlib.Data.List.Basic
import Mathlib.Data.List.TakeDrop

/-!
# Readers of the Go language

A reader is what its reads will return, one piece after the other, until the
end of the input. How the input is cut is not the caller's choice.
-/

abbrev GoReader (α : Type) := List (List α)

namespace GoReader

variable {α : Type}

inductive ReadError
  | eof
  | unexpectedEOF
  deriving DecidableEq

/-- `io.ReadFull`, for a buffer of `n`. -/
def readFull : Nat → GoReader α → Except ReadError (List α × GoReader α)
  | n, [] => if n = 0 then .ok ([], []) else .error .eof
  | n, piece :: r =>
    if n ≤ piece.length then .ok (piece.take n, piece.drop n :: r)
    else
      match readFull (n - piece.length) r with
      | .ok (data, r') => .ok (piece ++ data, r')
      | .error err => .error (if piece.isEmpty then err else .unexpectedEOF)

/-- What is there is read, wherever it is cut. -/
theorem readFull_ok {n : Nat} {r : GoReader α} (h : n ≤ r.flatten.length) :
    ∃ r', readFull n r = .ok (r.flatten.take n, r') ∧ r'.flatten = r.flatten.drop n := by
  induction r generalizing n with
  | nil =>
    have hn : n = 0 := Nat.le_zero.mp h
    subst hn
    exact ⟨[], rfl, rfl⟩
  | cons piece r ih =>
    rw [List.flatten_cons, List.length_append] at h
    unfold readFull
    by_cases hp : n ≤ piece.length
    · refine ⟨piece.drop n :: r, ?_, ?_⟩
      · rw [if_pos hp, List.flatten_cons, List.take_append_of_le_length hp]
      · rw [List.flatten_cons, List.flatten_cons, List.drop_append_of_le_length hp]
    · have hn : n = piece.length + (n - piece.length) := by omega
      obtain ⟨r', hread, hrest⟩ := ih (n := n - piece.length) (by omega)
      refine ⟨r', ?_, ?_⟩
      · rw [if_neg hp, hread, List.flatten_cons, List.take_append, List.take_of_length_le (Nat.le_of_not_le hp)]
      · rw [hrest, List.flatten_cons, hn, List.drop_length_add_append, ← hn]

theorem readFull_error {n : Nat} {r : GoReader α} (h : r.flatten.length < n) :
    readFull n r = .error (if r.flatten.isEmpty then .eof else .unexpectedEOF) := by
  induction r generalizing n with
  | nil =>
    rw [List.flatten_nil, List.length_nil] at h
    unfold readFull
    rw [if_neg (by omega)]
    rfl
  | cons piece r ih =>
    rw [List.flatten_cons, List.length_append] at h
    unfold readFull
    rw [if_neg (by omega), ih (by omega)]
    cases piece with
    | nil => rfl
    | cons b piece => rfl

end GoReader
