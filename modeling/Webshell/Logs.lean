import Mathlib.Data.List.Basic

/-!
# Logs

What stands in a log, seen from the entries before it.
-/

namespace Log

variable {α : Type} {P : List α → α → Prop} {log : List α} {entry : α}

/-- An entry is added that may stand where it is put. -/
theorem concat (h : ∀ before m after, log = before ++ m :: after → P before m) (hentry : P log entry) :
    ∀ before m after, log ++ [entry] = before ++ m :: after → P before m := by
  intro before m after heq
  rcases List.eq_nil_or_concat after with rfl | ⟨after, last, rfl⟩
  · obtain ⟨hlog, hlast⟩ := List.append_inj' heq rfl
    cases hlast
    exact hlog ▸ hentry
  · apply h before m after
    rw [List.concat_eq_append, ← List.cons_append, ← List.append_assoc] at heq
    exact (List.append_inj' heq rfl).1

/-- The same of the entries of one kind. -/
theorem concat_kind {β : Type} {f : β → α} {P : List α → β → Prop}
    (h : ∀ before b after, log = before ++ f b :: after → P before b) (hentry : ∀ b, entry = f b → P log b) :
    ∀ before b after, log ++ [entry] = before ++ f b :: after → P before b := by
  have hall : ∀ before m after, log ++ [entry] = before ++ m :: after → ∀ b, m = f b → P before b :=
    concat (fun before m after heq b hm => h before b after (hm ▸ heq)) hentry
  exact fun before b after heq => hall before (f b) after heq b rfl

end Log
