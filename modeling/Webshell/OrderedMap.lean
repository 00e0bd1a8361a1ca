import Mathlib.Algebra.Ring.Int.Defs
import Mathlib.Data.List.Nodup

/-!
# Maps in the order of insertion

A map as JavaScript has them: a new key goes behind all others, a key that is
there keeps its place. Sums over the values are what resources are counted with.
-/

/-- No two entries have one key. -/
structure OrderedMap (K V : Type) where
  entries : List (K × V) := []
  nodup : (entries.map Prod.fst).Nodup := by exact List.nodup_nil

namespace OrderedMap

variable {K V : Type} [DecidableEq K]

instance : EmptyCollection (OrderedMap K V) := ⟨{}⟩

def lookup (k : K) : List (K × V) → Option V
  | [] => none
  | entry :: entries => if entry.1 = k then some entry.2 else lookup k entries

def insert (k : K) (v : V) : List (K × V) → List (K × V)
  | [] => [(k, v)]
  | entry :: entries => if entry.1 = k then (k, v) :: entries else entry :: insert k v entries

theorem insert_keys (k : K) (v : V) (entries : List (K × V)) : ∀ x ∈ (insert k v entries).map Prod.fst,
    x = k ∨ x ∈ entries.map Prod.fst := by
  induction entries with
  | nil =>
    intro x hx
    exact .inl (List.mem_singleton.mp hx)
  | cons entry entries ih =>
    intro x hx
    rw [insert] at hx
    split at hx
    · rename_i he
      rw [List.map_cons, List.mem_cons] at hx
      rcases hx with hx | hx
      · exact .inl hx
      · exact .inr (List.mem_cons_of_mem _ hx)
    · rw [List.map_cons, List.mem_cons] at hx
      rcases hx with hx | hx
      · exact .inr (by rw [hx]; exact List.mem_cons_self ..)
      · exact (ih x hx).imp_right (List.mem_cons_of_mem _)

theorem insert_nodup (k : K) (v : V) {entries : List (K × V)} (h : (entries.map Prod.fst).Nodup) :
    ((insert k v entries).map Prod.fst).Nodup := by
  induction entries with
  | nil => exact List.nodup_singleton k
  | cons entry entries ih =>
    rw [List.map_cons, List.nodup_cons] at h
    rw [insert]
    split
    · rename_i he
      rw [List.map_cons, List.nodup_cons]
      exact ⟨he ▸ h.1, h.2⟩
    · rename_i he
      rw [List.map_cons, List.nodup_cons]
      refine ⟨fun hm => ?_, ih h.2⟩
      rcases insert_keys k v entries _ hm with hk | hk
      · exact he hk
      · exact h.1 hk

def get (m : OrderedMap K V) (k : K) : Option V := lookup k m.entries

def set (m : OrderedMap K V) (k : K) (v : V) : OrderedMap K V := ⟨insert k v m.entries, insert_nodup k v m.nodup⟩

def delete (m : OrderedMap K V) (k : K) : OrderedMap K V :=
  ⟨m.entries.filter fun entry => entry.1 ≠ k, m.nodup.sublist (List.filter_sublist.map _)⟩

/-- The entries whose values `keep` lets stay. -/
def retain (m : OrderedMap K V) (keep : V → Bool) : OrderedMap K V :=
  ⟨m.entries.filter fun entry => keep entry.2, m.nodup.sublist (List.filter_sublist.map _)⟩

/-- Every value changed in its place. -/
def mapValues (m : OrderedMap K V) (f : V → V) : OrderedMap K V :=
  ⟨m.entries.map fun entry => (entry.1, f entry.2), by
    rw [List.map_map]
    exact m.nodup⟩

def values (m : OrderedMap K V) : List V := m.entries.map Prod.snd

def keys (m : OrderedMap K V) : List K := m.entries.map Prod.fst

def size (m : OrderedMap K V) : Nat := m.entries.length

def first (m : OrderedMap K V) : Option V := m.entries.head?.map Prod.snd

def has (m : OrderedMap K V) (k : K) : Bool := (m.get k).isSome

/-- The sum of `f` over the values. -/
def weight (m : OrderedMap K V) (f : V → Int) : Int := (m.values.map f).sum

/-! ## What changes a sum -/

section Weight

variable (m : OrderedMap K V) (k : K) (f : V → Int)

omit [DecidableEq K] in
theorem weight_empty : (∅ : OrderedMap K V).weight f = 0 := rfl

omit [DecidableEq K] in
theorem size_eq_weight : (m.size : Int) = m.weight fun _ => 1 := by
  unfold size weight values
  induction m.entries with
  | nil => rfl
  | cons entry entries ih =>
    simp only [List.length_cons, List.map_cons, List.sum_cons]
    omega

/-- What a key weighs, if it is there. -/
def weightAt : Int := ((m.get k).map f).getD 0

theorem weight_set (v : V) : (m.set k v).weight f = m.weight f - m.weightAt k f + f v := by
  obtain ⟨entries, hn⟩ := m
  unfold weight weightAt values set get
  simp only
  induction entries with
  | nil => simp [insert, lookup]
  | cons entry entries ih =>
    rw [List.map_cons, List.nodup_cons] at hn
    rw [insert, lookup]
    split
    · rename_i he
      simp only [List.map_cons, List.sum_cons, Option.map_some, Option.getD_some]
      omega
    · have hrest := ih hn.2
      simp only [List.map_cons, List.sum_cons] at hrest ⊢
      omega

theorem weight_delete : (m.delete k).weight f = m.weight f - m.weightAt k f := by
  obtain ⟨entries, hn⟩ := m
  unfold weight weightAt values delete get
  simp only
  induction entries with
  | nil => rfl
  | cons entry entries ih =>
    rw [List.map_cons, List.nodup_cons] at hn
    rw [lookup]
    by_cases he : entry.1 = k
    · have hsame : entries.filter (fun e => e.1 ≠ k) = entries := by
        apply List.filter_eq_self.mpr
        intro e hm
        apply decide_eq_true
        intro hk
        exact hn.1 (he ▸ hk ▸ List.mem_map_of_mem hm)
      rw [List.filter_cons_of_neg (by simpa using he), hsame, if_pos he]
      simp only [List.map_cons, List.sum_cons, Option.map_some, Option.getD_some]
      omega
    · have hrest := ih hn.2
      rw [List.filter_cons_of_pos (by simpa using he), if_neg he]
      simp only [List.map_cons, List.sum_cons] at hrest ⊢
      omega

omit [DecidableEq K] in
theorem size_retain_le (keep : V → Bool) : (m.retain keep).size ≤ m.size := List.length_filter_le ..

theorem size_delete_le : (m.delete k).size ≤ m.size := List.length_filter_le ..

omit [DecidableEq K] in
theorem size_mapValues (g : V → V) : (m.mapValues g).size = m.size := List.length_map _

theorem size_set (v : V) : (m.set k v).size = if (m.get k).isSome then m.size else m.size + 1 := by
  have hset := m.weight_set k (fun _ => 1) v
  rw [← size_eq_weight, ← size_eq_weight] at hset
  unfold weightAt at hset
  cases hg : m.get k with
  | none =>
    rw [hg] at hset
    simp only [Option.map_none, Option.getD_none] at hset
    simp only [Option.isSome_none, Bool.false_eq_true, if_false]
    omega
  | some old =>
    rw [hg] at hset
    simp only [Option.map_some, Option.getD_some] at hset
    simp only [Option.isSome_some, if_true]
    omega

theorem weightAt_some {v : V} (h : m.get k = some v) : m.weightAt k f = f v := by
  unfold weightAt
  rw [h]
  rfl

theorem weightAt_none (h : m.get k = none) : m.weightAt k f = 0 := by
  unfold weightAt
  rw [h]
  rfl

end Weight

/-! ## What is at a key -/

section Get

variable (m : OrderedMap K V) {k : K} {v : V}

theorem get_set : (m.set k v).get k = some v := by
  unfold get set
  simp only
  induction m.entries with
  | nil => simp [insert, lookup]
  | cons entry entries ih =>
    rw [insert]
    split
    · simp [lookup]
    · rename_i he
      rw [lookup, if_neg he, ih]

theorem get_set_of_ne {k' : K} (h : k' ≠ k) : (m.set k v).get k' = m.get k' := by
  unfold get set
  simp only
  induction m.entries with
  | nil => simp [insert, lookup, Ne.symm h]
  | cons entry entries ih =>
    rw [insert]
    split
    · rename_i he
      rw [lookup, lookup, if_neg (Ne.symm h), if_neg (he ▸ Ne.symm h)]
    · rw [lookup, lookup, ih]

theorem get_of_mem (h : (k, v) ∈ m.entries) : m.get k = some v := by
  obtain ⟨entries, hn⟩ := m
  unfold get
  simp only at h ⊢
  induction entries with
  | nil => exact absurd h List.not_mem_nil
  | cons entry entries ih =>
    rw [List.map_cons, List.nodup_cons] at hn
    rw [lookup]
    rcases List.mem_cons.mp h with rfl | h
    · rw [if_pos rfl]
    · rw [if_neg, ih hn.2 h]
      intro he
      exact hn.1 (he ▸ List.mem_map_of_mem h)

theorem mem_keys_of_lookup : ∀ {entries : List (K × V)}, lookup k entries = some v → k ∈ entries.map Prod.fst
  | [], h => by cases h
  | entry :: entries, h => by
    rw [lookup] at h
    split at h
    · rename_i he
      rw [List.map_cons, he]
      exact List.mem_cons_self ..
    · exact List.mem_cons_of_mem _ (mem_keys_of_lookup h)

theorem lookup_filter (keep : K × V → Bool) : ∀ {entries : List (K × V)}, (entries.map Prod.fst).Nodup →
    lookup k (entries.filter keep) = (lookup k entries).filter fun v => keep (k, v)
  | [], _ => rfl
  | entry :: entries, hn => by
    rw [List.map_cons, List.nodup_cons] at hn
    have ih := lookup_filter keep hn.2
    rw [lookup]
    by_cases he : entry.1 = k
    · have hnone : lookup k entries = none := by
        cases hl : lookup k entries with
        | none => rfl
        | some w =>
          apply absurd (mem_keys_of_lookup hl)
          rw [← he]
          exact hn.1
      rw [if_pos he]
      by_cases hk : keep entry = true
      · rw [List.filter_cons_of_pos hk, lookup, if_pos he, ← he, Option.filter_some]
        exact (if_pos hk).symm
      · rw [List.filter_cons_of_neg hk, ih, hnone, ← he, Option.filter_some]
        exact (if_neg hk).symm
    · rw [if_neg he]
      by_cases hk : keep entry = true
      · rw [List.filter_cons_of_pos hk, lookup, if_neg he, ih]
      · rw [List.filter_cons_of_neg hk, ih]

theorem get_delete (k' : K) : (m.delete k).get k' = if k' = k then none else m.get k' := by
  unfold get delete
  simp only
  rw [lookup_filter _ m.nodup]
  by_cases h : k' = k
  · rw [if_pos h]
    cases lookup k' m.entries with
    | none => rfl
    | some w => simp [h]
  · rw [if_neg h]
    cases lookup k' m.entries with
    | none => rfl
    | some w => simp [h]

theorem get_retain (keep : V → Bool) : (m.retain keep).get k = (m.get k).filter keep :=
  lookup_filter _ m.nodup

theorem entry_of_get (h : m.get k = some v) : (k, v) ∈ m.entries := by
  obtain ⟨entries, hn⟩ := m
  unfold get at h
  simp only at h ⊢
  clear hn
  induction entries with
  | nil => cases h
  | cons entry entries ih =>
    rw [lookup] at h
    split at h
    · rename_i he
      cases h
      rw [← he]
      exact List.mem_cons_self ..
    · exact List.mem_cons_of_mem _ (ih h)

theorem mem_of_get (h : m.get k = some v) : v ∈ m.values := List.mem_map_of_mem (m.entry_of_get h)

theorem has_iff {k : K} : m.has k = true ↔ ∃ v, m.get k = some v := Option.isSome_iff_exists

theorem has_iff_mem_keys {k : K} : m.has k = true ↔ k ∈ m.keys := by
  rw [has_iff]
  constructor
  · rintro ⟨v, h⟩
    exact mem_keys_of_lookup h
  · intro h
    obtain ⟨entry, hm, rfl⟩ := List.mem_map.mp h
    exact ⟨entry.2, m.get_of_mem hm⟩

theorem keys_perm {l : List K} (hn : l.Nodup) (h : ∀ k, m.has k = true ↔ k ∈ l) : m.keys.Perm l :=
  (List.perm_ext_iff_of_nodup m.nodup hn).mpr fun k => m.has_iff_mem_keys.symm.trans (h k)

theorem exists_of_mem_values (h : v ∈ m.values) : ∃ k, m.get k = some v := by
  obtain ⟨entry, hm, rfl⟩ := List.mem_map.mp h
  exact ⟨entry.1, m.get_of_mem hm⟩

omit [DecidableEq K] in
theorem first_mem {v : V} (h : m.first = some v) : v ∈ m.values := by
  obtain ⟨entry, he, rfl⟩ := Option.map_eq_some_iff.mp h
  exact List.mem_map_of_mem (List.mem_of_head? he)

omit [DecidableEq K] in
theorem first_eq_none : m.first = none ↔ m.values = [] := by
  unfold first values
  rw [Option.map_eq_none_iff, List.head?_eq_none_iff, List.map_eq_nil_iff]

end Get

end OrderedMap
