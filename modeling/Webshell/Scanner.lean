import Mathlib.Data.List.Basic
import Mathlib.Data.List.TakeDrop

/-!
# Scanning in pieces

A scanner looks at the whole of a buffer and decides what to do with its front:
take some elements, give all of them up, or hold the buffer until more has
arrived. A stream may be fed to it in pieces, the held elements in front of the
next piece. Where each decision stands whatever follows, the pieces do not show.
-/

namespace Scanner

inductive Decision (β : Type)
  | hold
  | flush
  | take (n : Nat) (shown : Bool) (actions : List β)
  deriving DecidableEq

@[ext] structure Result (α β : Type) where
  output : List α
  actions : List β
  pending : List α
  deriving DecidableEq

variable {α β : Type}

namespace Result

def empty : Result α β := ⟨[], [], []⟩

/-- What a second piece adds. -/
def andThen (r s : Result α β) : Result α β := ⟨r.output ++ s.output, r.actions ++ s.actions, s.pending⟩

theorem andThen_assoc (r s t : Result α β) : (r.andThen s).andThen t = r.andThen (s.andThen t) := by
  simp [andThen]

end Result

/-- The front of a buffer, taken. -/
def taken (buffer : List α) (n : Nat) (shown : Bool) (actions : List β) : Result α β :=
  ⟨if shown then buffer.take n else [], actions, []⟩

theorem taken_append {buffer : List α} {n : Nat} (hn : n ≤ buffer.length) (shown : Bool) (actions : List β)
    (more : List α) : taken (buffer ++ more) n shown actions = taken buffer n shown actions := by
  unfold taken
  rw [List.take_append_of_le_length hn]

variable (next : List α → Decision β)

def scan : Nat → List α → Result α β
  | 0, _ => .empty
  | _ + 1, [] => .empty
  | fuel + 1, a :: buffer =>
    match next (a :: buffer) with
    | .hold => ⟨[], [], a :: buffer⟩
    | .flush => ⟨a :: buffer, [], []⟩
    | .take n shown actions => (taken (a :: buffer) n shown actions).andThen (scan fuel ((a :: buffer).drop n))

/-- The whole buffer is scanned. -/
def run (buffer : List α) : Result α β := scan next buffer.length buffer

/-- The scanner gets on: it takes something, and no more than there is. -/
def Progress : Prop :=
  ∀ buffer n shown actions, buffer ≠ [] → next buffer = .take n shown actions → 0 < n ∧ n ≤ buffer.length

variable {next}

/-! ## One decision at a time -/

theorem scan_enough (hp : Progress next) : ∀ {fuel : Nat} {buffer : List α}, buffer.length ≤ fuel →
    scan next fuel buffer = run next buffer
  | 0, [], _ => rfl
  | _ + 1, [], _ => rfl
  | fuel + 1, a :: buffer, hl => by
    unfold run
    rw [List.length_cons, scan, scan]
    cases hd : next (a :: buffer) with
    | hold => rfl
    | flush => rfl
    | take n shown actions =>
      obtain ⟨hpos, -⟩ := hp _ _ _ _ (List.cons_ne_nil _ _) hd
      have hdrop : ((a :: buffer).drop n).length ≤ buffer.length := by
        rw [List.length_drop, List.length_cons]; omega
      simp only
      rw [scan_enough hp (Nat.le_trans hdrop (Nat.le_of_succ_le_succ hl)), scan_enough hp hdrop]
termination_by fuel => fuel
decreasing_by all_goals first | exact Nat.lt_succ_self _ | exact hl

@[simp] theorem run_nil : run next ([] : List α) = .empty := rfl

theorem run_hold {buffer : List α} (h : next buffer = .hold) : run next buffer = ⟨[], [], buffer⟩ := by
  cases buffer with
  | nil => rfl
  | cons a buffer => unfold run; rw [List.length_cons, scan, h]

theorem run_flush {buffer : List α} (h : next buffer = .flush) : run next buffer = ⟨buffer, [], []⟩ := by
  cases buffer with
  | nil => rfl
  | cons a buffer => unfold run; rw [List.length_cons, scan, h]

theorem run_take (hp : Progress next) {buffer : List α} {n : Nat} {shown : Bool} {actions : List β}
    (hne : buffer ≠ []) (h : next buffer = .take n shown actions) :
    run next buffer = (taken buffer n shown actions).andThen (run next (buffer.drop n)) := by
  obtain ⟨hpos, -⟩ := hp _ _ _ _ hne h
  cases buffer with
  | nil => exact absurd rfl hne
  | cons a buffer =>
    have hdrop : ((a :: buffer).drop n).length ≤ buffer.length := by
      rw [List.length_drop, List.length_cons]; omega
    unfold run
    rw [List.length_cons, scan, h]
    simp only
    rw [scan_enough hp hdrop]
    rfl

/-- What is held is the end of the buffer. -/
theorem run_pending_suffix (hp : Progress next) (buffer : List α) : (run next buffer).pending <:+ buffer := by
  by_cases hne : buffer = []
  · subst hne; exact List.suffix_refl _
  · cases h : next buffer with
    | hold => simp only [run_hold h, List.suffix_refl]
    | flush => simp only [run_flush h, List.nil_suffix]
    | take n shown actions =>
      obtain ⟨hpos, hle⟩ := hp _ _ _ _ hne h
      rw [run_take hp hne h]
      exact (run_pending_suffix hp (buffer.drop n)).trans (List.drop_suffix ..)
termination_by buffer.length
decreasing_by rw [List.length_drop]; omega

/-! ## Cuts -/

variable (next)

/-- Feeding `buffer` and then `more` is feeding both at once. -/
def Agrees (buffer more : List α) : Prop :=
  run next (buffer ++ more) = (run next buffer).andThen (run next ((run next buffer).pending ++ more))

variable {next}

theorem agrees_nil (more : List α) : Agrees next [] more := rfl

theorem agrees_hold {buffer : List α} (h : next buffer = .hold) (more : List α) : Agrees next buffer more := by
  unfold Agrees
  rw [run_hold h]
  rfl

/-- A decision that stands leaves the question to what follows. -/
theorem agrees_take (hp : Progress next) {buffer : List α} {n : Nat} {shown : Bool} {actions : List β}
    (hne : buffer ≠ []) (h : next buffer = .take n shown actions) {more : List α}
    (hs : next (buffer ++ more) = .take n shown actions) :
    Agrees next buffer more ↔ Agrees next (buffer.drop n) more := by
  obtain ⟨-, hn⟩ := hp _ _ _ _ hne h
  have hne' : buffer ++ more ≠ [] := by
    intro hnil
    exact hne (List.append_eq_nil_iff.mp hnil).1
  unfold Agrees
  rw [run_take hp hne' hs, run_take hp hne h, taken_append hn, List.drop_append_of_le_length hn, Result.andThen_assoc]
  constructor
  · intro ha
    simp only [Result.andThen, Result.mk.injEq] at ha ⊢
    exact Result.ext (List.append_cancel_left ha.1) (List.append_cancel_left ha.2.1) ha.2.2
  · intro ha
    rw [ha]
    rfl

variable (next)

/-- A decision to take something stands, whatever follows. -/
def Stands : Prop :=
  ∀ buffer n shown actions, next buffer = .take n shown actions → ∀ more, next (buffer ++ more) = .take n shown actions

variable {next}

theorem agrees_of_stands (hp : Progress next) (hs : Stands next) (hf : ∀ buffer, next buffer ≠ .flush)
    (buffer more : List α) : Agrees next buffer more := by
  by_cases hne : buffer = []
  · subst hne
    exact agrees_nil more
  · cases h : next buffer with
    | hold => exact agrees_hold h more
    | flush => exact absurd h (hf buffer)
    | take n shown actions =>
      obtain ⟨hpos, hle⟩ := hp _ _ _ _ hne h
      rw [agrees_take hp hne h (hs _ _ _ _ h more)]
      exact agrees_of_stands hp hs hf (buffer.drop n) more
termination_by buffer.length
decreasing_by rw [List.length_drop]; omega

/-- Everything is shown as it comes, until the scanner holds the rest. -/
inductive Quiet (next : List α → Decision β) (held : List α → Prop) : List α → Prop
  | hold {buffer : List α} : buffer ≠ [] → next buffer = .hold → held buffer → Quiet next held buffer
  | take {buffer : List α} {n : Nat} : buffer ≠ [] → next buffer = .take n true [] → Quiet next held (buffer.drop n) →
    Quiet next held buffer

theorem Quiet.run {held : List α → Prop} (hp : Progress next) {buffer : List α} (h : Quiet next held buffer) :
    ∃ shown rest, run next buffer = ⟨shown, [], rest⟩ ∧ shown ++ rest = buffer ∧ rest ≠ [] ∧ next rest = .hold ∧
      held rest := by
  induction h with
  | hold hne hd hh => exact ⟨[], _, run_hold hd, rfl, hne, hd, hh⟩
  | take hne hd _ ih =>
    rename_i buffer n _
    obtain ⟨shown, rest, hr, ha, hi⟩ := ih
    refine ⟨buffer.take n ++ shown, rest, ?_, ?_, hi⟩
    · rw [run_take hp hne hd, hr]
      rfl
    · rw [List.append_assoc, ha, List.take_append_drop]

end Scanner
