import Mathlib.Data.List.Basic
import Mathlib.Data.List.TakeDrop

/-!
# Finding a part of a list

The first place where a part stands, and what it has to do with what is put
behind the list.
-/

namespace Search

variable {α : Type} [DecidableEq α] {part text : List α} {n : Nat}

def indexOf (part : List α) : List α → Option Nat
  | [] => if part = [] then some 0 else none
  | c :: rest => if part.isPrefixOf (c :: rest) then some 0 else (indexOf part rest).map (· + 1)

theorem indexOf_some : ∀ {text : List α} {n : Nat}, indexOf part text = some n →
    n + part.length ≤ text.length ∧ part <+: text.drop n ∧ ∀ m < n, ¬ part <+: text.drop m
  | [], n, h => by
    unfold indexOf at h
    split at h
    · rename_i hp
      cases h
      subst hp
      exact ⟨Nat.le_refl _, List.nil_prefix, nofun⟩
    · cases h
  | c :: rest, n, h => by
    unfold indexOf at h
    split at h
    · rename_i hp
      cases h
      have hp := List.isPrefixOf_iff_prefix.mp hp
      exact ⟨by rw [Nat.zero_add]; exact hp.length_le, hp, nofun⟩
    · rename_i hp
      obtain ⟨k, hk, rfl⟩ := Option.map_eq_some_iff.mp h
      obtain ⟨hle, hpre, hmin⟩ := indexOf_some hk
      refine ⟨by rw [List.length_cons]; omega, hpre, fun m hm => ?_⟩
      cases m with
      | zero => exact fun h0 => hp (List.isPrefixOf_iff_prefix.mpr h0)
      | succ m => exact hmin m (by omega)

theorem indexOf_none : ∀ {text : List α}, indexOf part text = none → ∀ m, ¬ part <+: text.drop m
  | [], h, m => by
    unfold indexOf at h
    split at h
    · cases h
    · rename_i hp
      rw [List.drop_nil, List.prefix_nil]
      exact hp
  | c :: rest, h, m => by
    unfold indexOf at h
    split at h
    · cases h
    · rename_i hp
      cases m with
      | zero => exact fun h0 => hp (List.isPrefixOf_iff_prefix.mpr h0)
      | succ m => exact indexOf_none (Option.map_eq_none_iff.mp h) m

theorem indexOf_eq (hle : n ≤ text.length) (hp : part <+: text.drop n) (hmin : ∀ m < n, ¬ part <+: text.drop m) :
    indexOf part text = some n := by
  cases h : indexOf part text with
  | none => exact absurd hp (indexOf_none h n)
  | some k =>
    obtain ⟨hk, hpk, hmink⟩ := indexOf_some h
    congr 1
    rcases Nat.lt_trichotomy k n with hlt | rfl | hlt
    · exact absurd hpk (hmin k hlt)
    · rfl
    · exact absurd hp (hmink n hlt)

omit [DecidableEq α] in
/-- A part that stands in a list followed by more, and ends in the list, stands in the list. -/
theorem prefix_drop_of_append {more : List α} (hle : n + part.length ≤ text.length) (h : part <+: (text ++ more).drop n) :
    part <+: text.drop n := by
  rw [List.drop_append_of_le_length (by omega)] at h
  exact List.prefix_of_prefix_length_le h (List.prefix_append ..) (by rw [List.length_drop]; omega)

theorem indexOf_append (h : indexOf part text = some n) (more : List α) : indexOf part (text ++ more) = some n := by
  obtain ⟨hle, hp, hmin⟩ := indexOf_some h
  apply indexOf_eq
  · rw [List.length_append]
    omega
  · rw [List.drop_append_of_le_length (by omega)]
    exact hp.trans (List.prefix_append ..)
  · intro m hm hpm
    exact hmin m hm (prefix_drop_of_append (by omega) hpm)

/-- What stands nowhere in a list, and does once more is behind it, ends in what is behind. -/
theorem lt_of_indexOf_append {more : List α} (h : indexOf part text = none) (h' : indexOf part (text ++ more) = some n) :
    text.length < n + part.length := by
  by_contra hlt
  exact indexOf_none h n (prefix_drop_of_append (by omega) (indexOf_some h').2.1)

/-- The list up to a part, the part, and what follows. -/
theorem indexOf_split (h : indexOf part text = some n) :
    text = text.take n ++ (part ++ text.drop (n + part.length)) := by
  obtain ⟨-, ⟨rest, hrest⟩, -⟩ := indexOf_some h
  have hdrop : text.drop (n + part.length) = rest := by
    rw [← List.drop_drop, ← hrest, List.drop_left' rfl]
  rw [hdrop, hrest, List.take_append_drop]

theorem indexOf_cons_none {c : α} {rest : List α} (h : indexOf part (c :: rest) = none) :
    ¬ part <+: c :: rest ∧ indexOf part rest = none := by
  unfold indexOf at h
  split at h
  · cases h
  · rename_i hp
    exact ⟨fun hpre => hp (List.isPrefixOf_iff_prefix.mpr hpre), Option.map_eq_none_iff.mp h⟩

/-! ## All places -/

/-- `text.indexOf(part, start)`. -/
def indexFrom (part text : List α) (start : Nat) : Option Nat := (indexOf part (text.drop start)).map (start + ·)

theorem indexFrom_some {start : Nat} (h : indexFrom part text start = some n) :
    start ≤ n ∧ part <+: text.drop n ∧ ∀ m, start ≤ m → m < n → ¬ part <+: text.drop m := by
  obtain ⟨k, hk, rfl⟩ := Option.map_eq_some_iff.mp h
  obtain ⟨-, hp, hmin⟩ := indexOf_some hk
  rw [List.drop_drop] at hp
  refine ⟨by omega, hp, fun m hle hlt hm => hmin (m - start) (by omega) ?_⟩
  rw [List.drop_drop, show start + (m - start) = m by omega]
  exact hm

theorem indexFrom_none {start : Nat} (h : indexFrom part text start = none) {m : Nat} (hm : start ≤ m) : ¬ part <+: text.drop m := by
  have hnone := indexOf_none (Option.map_eq_none_iff.mp h) (m - start)
  rwa [List.drop_drop, show start + (m - start) = m by omega] at hnone

/-- The places a search finds that goes on behind each of them. -/
def occurrences (part text : List α) : Nat → Nat → List Nat
  | 0, _ => []
  | fuel + 1, start =>
    match indexFrom part text start with
    | none => []
    | some n => n :: occurrences part text fuel (n + part.length)

omit [DecidableEq α] in
/-- The leftmost places from a start on where a part stands, without overlaps. -/
structure Leftmost (part text : List α) (start : Nat) (places : List Nat) : Prop where
  behind : ∀ n ∈ places, start ≤ n
  stands : ∀ n ∈ places, part <+: text.drop n
  apart : places.Pairwise fun a b => a + part.length ≤ b
  all : ∀ m, start ≤ m → part <+: text.drop m → ∃ n ∈ places, n ≤ m ∧ m < n + part.length

omit [DecidableEq α] in
theorem lt_of_prefix_drop (hne : part ≠ []) (h : part <+: text.drop n) : n < text.length := by
  by_contra hle
  rw [List.drop_eq_nil_of_le (by omega), List.prefix_nil] at h
  exact hne h

omit [DecidableEq α] in
theorem Leftmost.cons {start : Nat} {places : List Nat} (hle : start ≤ n) (hn : part <+: text.drop n)
    (hfirst : ∀ m, start ≤ m → m < n → ¬ part <+: text.drop m) (h : Leftmost part text (n + part.length) places) :
    Leftmost part text start (n :: places) where
  behind := List.forall_mem_cons.mpr ⟨hle, fun k hk => by have := h.behind k hk; omega⟩
  stands := List.forall_mem_cons.mpr ⟨hn, h.stands⟩
  apart := List.pairwise_cons.mpr ⟨h.behind, h.apart⟩
  all m hm hp := by
    rcases Nat.lt_or_ge m n with hlt | hge
    · exact absurd hp (hfirst m hm hlt)
    · rcases Nat.lt_or_ge m (n + part.length) with hlt | hge'
      · exact ⟨n, List.mem_cons_self, hge, hlt⟩
      · obtain ⟨k, hk, hkm⟩ := h.all m hge' hp
        exact ⟨k, List.mem_cons_of_mem _ hk, hkm⟩

theorem occurrences_leftmost (hne : part ≠ []) : ∀ fuel start, text.length < start + fuel →
    Leftmost part text start (occurrences part text fuel start) := by
  intro fuel
  induction fuel with
  | zero =>
    intro start hlen
    exact ⟨nofun, nofun, .nil, fun m hm hp => absurd (lt_of_prefix_drop hne hp) (by omega)⟩
  | succ fuel ih =>
    intro start hlen
    rw [occurrences]
    cases h : indexFrom part text start with
    | none => exact ⟨nofun, nofun, .nil, fun m hm hp => absurd hp (indexFrom_none h hm)⟩
    | some n =>
      obtain ⟨hle, hn, hfirst⟩ := indexFrom_some h
      have hpos := List.length_pos_of_ne_nil hne
      exact .cons hle hn hfirst (ih (n + part.length) (by omega))

omit [DecidableEq α] in
/-- There is one such list of places. -/
theorem Leftmost.unique (hne : part ≠ []) : ∀ {start : Nat} {a b : List Nat}, Leftmost part text start a → Leftmost part text start b → a = b
  | _, [], [], _, _ => rfl
  | _, [], k :: b, ha, hb => by
    obtain ⟨n, hn, -⟩ := ha.all k (hb.behind k List.mem_cons_self) (hb.stands k List.mem_cons_self)
    cases hn
  | _, k :: a, [], ha, hb => by
    obtain ⟨n, hn, -⟩ := hb.all k (ha.behind k List.mem_cons_self) (ha.stands k List.mem_cons_self)
    cases hn
  | start, k :: a, l :: b, ha, hb => by
    have hpos := List.length_pos_of_ne_nil hne
    obtain ⟨hka, hapart⟩ := List.pairwise_cons.mp ha.apart
    obtain ⟨hlb, hbpart⟩ := List.pairwise_cons.mp hb.apart
    have hkl : k = l := by
      obtain ⟨n, hn, hle, -⟩ := ha.all l (hb.behind l List.mem_cons_self) (hb.stands l List.mem_cons_self)
      obtain ⟨m, hm, hle', -⟩ := hb.all k (ha.behind k List.mem_cons_self) (ha.stands k List.mem_cons_self)
      rcases List.mem_cons.mp hn with rfl | hn
      · rcases List.mem_cons.mp hm with rfl | hm
        · omega
        · have := hlb m hm
          omega
      · have := hka n hn
        rcases List.mem_cons.mp hm with rfl | hm
        · omega
        · have := hlb m hm
          omega
    subst hkl
    have tail : ∀ {c : List Nat}, Leftmost part text start (k :: c) → (∀ n ∈ c, k + part.length ≤ n) →
        Leftmost part text (k + part.length) c := by
      intro c hc hbehind
      refine ⟨hbehind, fun n hn => hc.stands n (List.mem_cons_of_mem _ hn), (List.pairwise_cons.mp hc.apart).2, fun m hm hp => ?_⟩
      have := hc.behind k List.mem_cons_self
      obtain ⟨n, hn, hle, hlt⟩ := hc.all m (by omega) hp
      rcases List.mem_cons.mp hn with rfl | hn
      · omega
      · exact ⟨n, hn, hle, hlt⟩
    rw [Leftmost.unique hne (tail ha hka) (tail hb hlb)]

end Search
