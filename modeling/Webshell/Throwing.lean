/-!
# Methods that may throw

A method reads and writes its object and may throw; what it wrote before it
threw stays. Rules for the methods that leave their object alone, and for
those that leave it alone when they throw.
-/

namespace Throwing

variable {ε σ α β : Type}

/-- What is computed without the object. -/
def lift : Except ε α → EStateM ε σ α
  | .ok a => pure a
  | .error e => throw e

/-- The object after the call. -/
def after (m : EStateM ε σ α) (s : σ) : σ :=
  match m s with
  | .ok _ s' => s'
  | .error _ s' => s'

def returned (m : EStateM ε σ α) (s : σ) : Bool :=
  match m s with
  | .ok _ _ => true
  | .error _ _ => false

/-- What Go defers: `last` happens however the method ends. -/
def deferred (last : σ → σ) (m : EStateM ε σ α) : EStateM ε σ α := fun s =>
  match m s with
  | .ok a t => .ok a (last t)
  | .error e t => .error e (last t)

def Reads (m : EStateM ε σ α) : Prop := ∀ s, after m s = s

/-- A call that throws changes nothing. -/
def Clean (m : EStateM ε σ α) : Prop := ∀ s, returned m s = false → after m s = s

/-! ## Calls in a row -/

theorem bind_ok {m : EStateM ε σ α} {f : α → EStateM ε σ β} {s s' : σ} {b : β} :
    (m >>= f) s = .ok b s' ↔ ∃ a t, m s = .ok a t ∧ f a t = .ok b s' := by
  simp only [bind, EStateM.bind]
  cases hm : m s with
  | ok a t =>
    constructor
    · intro h
      exact ⟨a, t, rfl, h⟩
    · rintro ⟨_, _, ⟨⟩, h⟩
      exact h
  | error e t => simp

theorem bind_of_ok {m : EStateM ε σ α} {s t : σ} {a : α} (h : m s = .ok a t) (f : α → EStateM ε σ β) :
    (m >>= f) s = f a t := by
  simp only [bind, EStateM.bind, h]

theorem bind_of_error {m : EStateM ε σ α} {s t : σ} {e : ε} (h : m s = .error e t) (f : α → EStateM ε σ β) :
    (m >>= f) s = .error e t := by
  simp only [bind, EStateM.bind, h]

theorem bind_lift_ok {x : Except ε α} {f : α → EStateM ε σ β} {s s' : σ} {b : β} :
    (lift x >>= f) s = .ok b s' ↔ ∃ a, x = .ok a ∧ f a s = .ok b s' := by
  rw [bind_ok]
  cases x with
  | ok a =>
    constructor
    · rintro ⟨_, _, ⟨⟩, h⟩
      exact ⟨a, rfl, h⟩
    · rintro ⟨_, ⟨⟩, h⟩
      exact ⟨a, s, rfl, h⟩
  | error e =>
    constructor
    · rintro ⟨_, _, ⟨⟩, _⟩
    · rintro ⟨_, ⟨⟩, _⟩

theorem bind_get_ok {f : σ → EStateM ε σ β} {s s' : σ} {b : β} : (get >>= f) s = .ok b s' ↔ f s s = .ok b s' := Iff.rfl

theorem throw_ok {e : ε} {s s' : σ} {a : α} : ¬ (throw e : EStateM ε σ α) s = .ok a s' := by
  intro h
  cases h

theorem ok_of_isOk {x : Except ε α} (h : x.isOk = true) : ∃ a, x = .ok a := by
  cases x with
  | ok a => exact ⟨a, rfl⟩
  | error e => cases h

/-! ## Methods that only read -/

theorem Reads.pure (a : α) : Reads (Pure.pure a : EStateM ε σ α) := fun _ => rfl

theorem Reads.get : Reads (MonadState.get : EStateM ε σ σ) := fun _ => rfl

theorem Reads.throw (e : ε) : Reads (MonadExcept.throw e : EStateM ε σ α) := fun _ => rfl

theorem Reads.lift (x : Except ε α) : Reads (Throwing.lift x : EStateM ε σ α) := by
  cases x with
  | ok a => exact .pure a
  | error e => exact .throw e

theorem Reads.bind {m : EStateM ε σ α} {f : α → EStateM ε σ β} (hm : Reads m) (hf : ∀ a, Reads (f a)) :
    Reads (m >>= f) := by
  intro s
  have hs := hm s
  unfold after at hs
  cases h : m s with
  | ok a t =>
    simp only [h] at hs
    subst hs
    unfold after
    rw [bind_of_ok h]
    exact hf a t
  | error e t =>
    simp only [h] at hs
    unfold after
    rw [bind_of_error h]
    exact hs

theorem Reads.ite {P : Prop} [Decidable P] {m m' : EStateM ε σ α} (hm : Reads m) (hm' : Reads m') :
    Reads (if P then m else m') := by
  by_cases hp : P
  · rw [if_pos hp]
    exact hm
  · rw [if_neg hp]
    exact hm'

theorem Reads.bind_ok {m : EStateM ε σ α} (hm : Reads m) {f : α → EStateM ε σ β} {s s' : σ} {b : β}
    (h : (m >>= f) s = .ok b s') : ∃ a, m s = .ok a s ∧ f a s = .ok b s' := by
  obtain ⟨a, t, ha, hf⟩ := Throwing.bind_ok.mp h
  have ht := hm s
  unfold after at ht
  rw [ha] at ht
  exact ⟨a, ht ▸ ha, ht ▸ hf⟩

theorem Reads.same {m : EStateM ε σ α} (hm : Reads m) {s s' : σ} {a : α} (h : m s = .ok a s') : s' = s := by
  have hs := hm s
  unfold after at hs
  rwa [h] at hs

/-! ## Methods that change nothing when they throw -/

theorem Reads.clean {m : EStateM ε σ α} (hm : Reads m) : Clean m := fun s _ => hm s

theorem Clean.returns {m : EStateM ε σ α} (hm : ∀ s, returned m s = true) : Clean m := by
  intro s hs
  rw [hm s] at hs
  cases hs

/-- What is read first may throw, and so may what comes then. -/
theorem Clean.bind {m : EStateM ε σ α} {f : α → EStateM ε σ β} (hm : Reads m) (hf : ∀ a, Clean (f a)) :
    Clean (m >>= f) := by
  intro s hs
  cases h : m s with
  | ok a t =>
    obtain rfl := hm.same h
    unfold returned at hs
    unfold after
    rw [bind_of_ok h] at hs ⊢
    exact hf a t hs
  | error e t =>
    have hr := hm s
    unfold after at hr ⊢
    rw [bind_of_error h]
    rwa [h] at hr

theorem Clean.ite {P : Prop} [Decidable P] {m m' : EStateM ε σ α} (hm : Clean m) (hm' : Clean m') :
    Clean (if P then m else m') := by
  by_cases hp : P
  · rw [if_pos hp]
    exact hm
  · rw [if_neg hp]
    exact hm'

/-! ## Triples -/

/-- What holds before a method, after it returns, and after it throws. -/
def Triple (P : σ → Prop) (m : EStateM ε σ α) (Q : α → σ → Prop) (E : ε → σ → Prop) : Prop :=
  ∀ s, P s → match m s with
    | .ok a t => Q a t
    | .error e t => E e t

variable {P P' : σ → Prop} {m : EStateM ε σ α} {Q Q' : α → σ → Prop} {E E' : ε → σ → Prop}

theorem Triple.pure {a : α} (h : ∀ s, P s → Q a s) : Triple P (Pure.pure a : EStateM ε σ α) Q E := h

theorem Triple.throw {e : ε} (h : ∀ s, P s → E e s) : Triple P (MonadExcept.throw e : EStateM ε σ α) Q E := h

theorem Triple.bind {f : α → EStateM ε σ β} {R : β → σ → Prop} (hm : Triple P m Q E)
    (hf : ∀ a, Triple (Q a) (f a) R E) : Triple P (m >>= f) R E := by
  intro s hs
  have h := hm s hs
  simp only [Bind.bind, EStateM.bind]
  cases hr : m s with
  | ok a t =>
    rw [hr] at h
    exact hf a t h
  | error e t =>
    rw [hr] at h
    exact h

/-- The method first reads its object. -/
theorem Triple.get {f : σ → EStateM ε σ α} (h : ∀ s, Triple (fun t => P t ∧ t = s) (f s) Q E) :
    Triple P (MonadState.get >>= f) Q E := fun s hs => h s s ⟨hs, rfl⟩

theorem Triple.set {t : σ} {f : PUnit → EStateM ε σ α} {R : σ → Prop} (ht : ∀ s, P s → R t)
    (h : Triple R (f ⟨⟩) Q E) : Triple P (MonadState.set t >>= f) Q E := fun s hs => h t (ht s hs)

theorem Triple.modify {g : σ → σ} {R : PUnit → σ → Prop} (h : ∀ s, P s → R ⟨⟩ (g s)) :
    Triple P (modify g : EStateM ε σ PUnit) R E := h

theorem Triple.weaken (h : Triple P m Q E) (hP : ∀ s, P' s → P s) (hQ : ∀ a s, Q a s → Q' a s)
    (hE : ∀ e s, E e s → E' e s) : Triple P' m Q' E' := by
  intro s hs
  have hm := h s (hP s hs)
  cases hr : m s with
  | ok a t =>
    rw [hr] at hm
    exact hQ a t hm
  | error e t =>
    rw [hr] at hm
    exact hE e t hm

theorem Triple.deferred {last : σ → σ} (h : Triple P m Q E) (hQ : ∀ a s, Q a s → Q a (last s))
    (hE : ∀ e s, E e s → E e (last s)) : Triple P (deferred last m) Q E := by
  intro s hs
  have hm := h s hs
  simp only [Throwing.deferred]
  cases hr : m s with
  | ok a t =>
    rw [hr] at hm
    exact hQ a t hm
  | error e t =>
    rw [hr] at hm
    exact hE e t hm

/-- What is known whatever the object is. -/
theorem Triple.of_fact {p : Prop} (h : p → Triple P m Q E) : Triple (fun s => p ∧ P s) m Q E :=
  fun s hs => h hs.1 s hs.2

theorem Triple.of_exists {ι : Type} {P : ι → σ → Prop} (h : ∀ i, Triple (P i) m Q E) :
    Triple (fun s => ∃ i, P i s) m Q E := by
  rintro s ⟨i, hs⟩
  exact h i s hs

end Throwing
