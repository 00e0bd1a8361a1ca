import Mathlib.Data.List.Basic
import Mathlib.Data.List.TakeDrop

/-!
# Event-driven machines

A machine answers an event with the next state, or refuses it. Interleavings
are lists of events: whatever the environment chooses is written into the
event, so a run is determined by its events.
-/

structure Machine (σ ε : Type) where
  step : σ → ε → Option σ

namespace Machine

variable {σ ε : Type} (M : Machine σ ε)

def run : σ → List ε → Option σ
  | s, [] => some s
  | s, e :: es =>
    match M.step s e with
    | none => none
    | some s' => run s' es

/-- Every step that the run from `s` takes starts in a state, with an event,
satisfying `P`. -/
def Along (P : σ → ε → Prop) : σ → List ε → Prop
  | _, [] => True
  | s, e :: es => P s e ∧ ∀ s', M.step s e = some s' → Along P s' es

def Reachable (s t : σ) : Prop := ∃ es, M.run s es = some t

@[simp] theorem run_nil (s : σ) : M.run s [] = some s := rfl

theorem run_cons {s t : σ} {e : ε} {es : List ε} (h : M.run s (e :: es) = some t) :
    ∃ s', M.step s e = some s' ∧ M.run s' es = some t := by
  simp only [run] at h
  cases hs : M.step s e with
  | none => rw [hs] at h; cases h
  | some s' => rw [hs] at h; exact ⟨s', rfl, h⟩

theorem run_cons_of_step {s s' : σ} {e : ε} (es : List ε) (h : M.step s e = some s') :
    M.run s (e :: es) = M.run s' es := by
  simp only [run, h]

theorem run_append {s t u : σ} {es fs : List ε} (h : M.run s es = some t) (h' : M.run t fs = some u) :
    M.run s (es ++ fs) = some u := by
  induction es generalizing s with
  | nil => rw [run_nil] at h; cases h; exact h'
  | cons e es ih =>
    obtain ⟨s', hs, hr⟩ := run_cons M h
    rw [List.cons_append, run_cons_of_step M _ hs]
    exact ih hr

theorem run_split {s u : σ} {es fs : List ε} (h : M.run s (es ++ fs) = some u) :
    ∃ t, M.run s es = some t ∧ M.run t fs = some u := by
  induction es generalizing s with
  | nil => exact ⟨s, rfl, h⟩
  | cons e es ih =>
    rw [List.cons_append] at h
    obtain ⟨s', hs, hr⟩ := run_cons M h
    obtain ⟨t, ht, hu⟩ := ih hr
    exact ⟨t, by rw [run_cons_of_step M _ hs]; exact ht, hu⟩

/-- **Invariant rule.** What every step preserves, every run preserves. -/
theorem run_inv {I : σ → Prop} (hI : ∀ s e s', I s → M.step s e = some s' → I s')
    {s t : σ} {es : List ε} (h : M.run s es = some t) (hs : I s) : I t := by
  induction es generalizing s with
  | nil => rw [run_nil] at h; cases h; exact hs
  | cons e es ih =>
    obtain ⟨s', hs', hr⟩ := run_cons M h
    exact ih hr (hI s e s' hs hs')

/-- The invariant rule for runs all of whose steps meet a condition. -/
theorem run_inv_along {I : σ → Prop} {P : σ → ε → Prop}
    (hI : ∀ s e s', I s → P s e → M.step s e = some s' → I s')
    {s t : σ} {es : List ε} (h : M.run s es = some t) (hP : M.Along P s es) (hs : I s) : I t := by
  induction es generalizing s with
  | nil => rw [run_nil] at h; cases h; exact hs
  | cons e es ih =>
    obtain ⟨s', hs', hr⟩ := run_cons M h
    exact ih hr (hP.2 s' hs') (hI s e s' hs hP.1 hs')

theorem reachable_inv {I : σ → Prop} (hI : ∀ s e s', I s → M.step s e = some s' → I s')
    {s t : σ} (h : M.Reachable s t) (hs : I s) : I t := by
  obtain ⟨es, he⟩ := h
  exact run_inv M hI he hs

theorem reachable_step {s t u : σ} {e : ε} (h : M.Reachable s t) (hs : M.step t e = some u) : M.Reachable s u := by
  obtain ⟨es, he⟩ := h
  exact ⟨es ++ [e], run_append M he (run_cons_of_step M [] hs)⟩

theorem along_mono {P Q : σ → ε → Prop} (hPQ : ∀ s e, P s e → Q s e) {s : σ} {es : List ε}
    (h : M.Along P s es) : M.Along Q s es := by
  induction es generalizing s with
  | nil => trivial
  | cons e es ih => exact ⟨hPQ s e h.1, fun s' hs => ih (h.2 s' hs)⟩

/-- Two step conditions that agree wherever an invariant holds agree along a run, if the
invariant is kept by the steps that meet the first; `R` is known of every step. -/
theorem along_iff {I : σ → Prop} {P Q R : σ → ε → Prop} (hPQ : ∀ s e, I s → R s e → (P s e ↔ Q s e))
    (hI : ∀ s e s', I s → R s e → P s e → M.step s e = some s' → I s') {s : σ} {es : List ε} (hs : I s)
    (hR : M.Along R s es) : M.Along P s es ↔ M.Along Q s es := by
  induction es generalizing s with
  | nil => exact Iff.rfl
  | cons e es ih =>
    have hpq := hPQ s e hs hR.1
    have hnext (hp : P s e) (s' : σ) (hs' : M.step s e = some s') := ih (hI s e s' hs hR.1 hp hs') (hR.2 s' hs')
    constructor
    · intro h
      exact ⟨hpq.mp h.1, fun s' hs' => (hnext h.1 s' hs').mp (h.2 s' hs')⟩
    · intro h
      have hp := hpq.mpr h.1
      exact ⟨hp, fun s' hs' => (hnext hp s' hs').mpr (h.2 s' hs')⟩

/-- A condition on events alone, met by all of them. -/
theorem along_of_forall {P : ε → Prop} {es : List ε} (h : ∀ e ∈ es, P e) (s : σ) : M.Along (fun _ e => P e) s es := by
  induction es generalizing s with
  | nil => trivial
  | cons e es ih => exact ⟨h e (List.mem_cons_self ..), fun s' _ => ih (fun e he => h e (List.mem_cons_of_mem _ he)) s'⟩

/-- What holds of every step that an invariant and a condition allow holds along every run that meets
the condition. -/
theorem along_of_inv {I : σ → Prop} {P Q : σ → ε → Prop} (hQ : ∀ s e, I s → P s e → Q s e)
    (hI : ∀ s e s', I s → P s e → M.step s e = some s' → I s') {s : σ} {es : List ε} (hs : I s)
    (hP : M.Along P s es) : M.Along Q s es := by
  induction es generalizing s with
  | nil => trivial
  | cons e es ih => exact ⟨hQ s e hs hP.1, fun s' hs' => ih (hI s e s' hs hP.1 hs') (hP.2 s' hs')⟩

/-- What holds along a run holds of each of its steps. -/
theorem along_at {P : σ → ε → Prop} {s t : σ} {es fs : List ε} {e : ε} (hP : M.Along P s (es ++ e :: fs))
    (h : M.run s es = some t) : P t e := by
  induction es generalizing s with
  | nil => rw [run_nil] at h; cases h; exact hP.1
  | cons x es ih =>
    obtain ⟨s', hs', hr⟩ := run_cons M h
    exact ih (hP.2 s' hs') hr

theorem along_true (s : σ) (es : List ε) : M.Along (fun _ _ => True) s es := by
  induction es generalizing s with
  | nil => trivial
  | cons e es ih => exact ⟨trivial, fun s' _ => ih s'⟩

/-- What every step keeps from there on exactly if it meets a condition, a run keeps exactly if all its steps do. -/
theorem run_iff_along {I Q : σ → Prop} {P : σ → ε → Prop} (hI : ∀ s e s', I s → M.step s e = some s' → I s')
    (hQ : ∀ s e s', I s → M.step s e = some s' → Q s → (Q s' ↔ P s e))
    (hback : ∀ s e s', I s → M.step s e = some s' → Q s' → Q s) {s t : σ} {es : List ε} (h : M.run s es = some t)
    (hs : I s) (hq : Q s) : Q t ↔ M.Along P s es := by
  induction es generalizing s with
  | nil =>
    rw [run_nil] at h
    cases h
    exact ⟨fun _ => trivial, fun _ => hq⟩
  | cons e es ih =>
    obtain ⟨s', hs', hr⟩ := run_cons M h
    have hi := hI s e s' hs hs'
    constructor
    · intro ht
      have hq' : Q s' := by
        by_contra hn
        have hnever := run_inv M (I := fun s => I s ∧ ¬Q s)
          (fun s e s' hb hs => ⟨hI s e s' hb.1 hs, fun hq => hb.2 (hback s e s' hb.1 hs hq)⟩) hr ⟨hi, hn⟩
        exact hnever.2 ht
      refine ⟨(hQ s e s' hs hs' hq).mp hq', fun u hu => ?_⟩
      rw [hs'] at hu
      cases hu
      exact (ih hr hi hq').mp ht
    · intro ha
      have hq' := (hQ s e s' hs hs' hq).mpr ha.1
      exact (ih hr hi hq').mpr (ha.2 s' hs')

end Machine
