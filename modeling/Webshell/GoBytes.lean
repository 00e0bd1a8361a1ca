import Mathlib.Algebra.Group.Nat.Defs
import Mathlib.Data.List.DropRight
import Mathlib.Data.List.Find
import Mathlib.Data.List.Infix

/-!
# Byte strings and paths of the Go standard library

`strings` and `path/filepath` on strings that need not be UTF-8. A string is
the list of its bytes.
-/

namespace GoBytes

abbrev Str := List UInt8

def slash : UInt8 := 47

def dot : UInt8 := 46

/-! ## `strings` -/

/-- The encodings of what `unicode.IsSpace` answers true for. -/
def spaces : List Str :=
  [[0x09], [0x0a], [0x0b], [0x0c], [0x0d], [0x20], [0xc2, 0x85], [0xc2, 0xa0], [0xe1, 0x9a, 0x80], [0xe2, 0x80, 0x80],
    [0xe2, 0x80, 0x81], [0xe2, 0x80, 0x82], [0xe2, 0x80, 0x83], [0xe2, 0x80, 0x84], [0xe2, 0x80, 0x85],
    [0xe2, 0x80, 0x86], [0xe2, 0x80, 0x87], [0xe2, 0x80, 0x88], [0xe2, 0x80, 0x89], [0xe2, 0x80, 0x8a],
    [0xe2, 0x80, 0xa8], [0xe2, 0x80, 0xa9], [0xe2, 0x80, 0xaf], [0xe2, 0x81, 0x9f], [0xe3, 0x80, 0x80]]

/-- Takes off the front what begins with one of the units. -/
def dropUnits (units : List Str) : Nat → Str → Str
  | 0, s => s
  | fuel + 1, s =>
    match units.find? (·.isPrefixOf s) with
    | none => s
    | some unit => dropUnits units fuel (s.drop unit.length)

def trimLeftSpace (s : Str) : Str := dropUnits spaces s.length s

def trimRightSpace (s : Str) : Str := (dropUnits (spaces.map List.reverse) s.length s.reverse).reverse

/-- `strings.TrimSpace`. No encoding of a space is the end of another, so the end is read as by `DecodeLastRune`. -/
def trimSpace (s : Str) : Str := trimRightSpace (trimLeftSpace s)

/-- `strings.Trim`, for a set of ASCII characters. -/
def trim (cutset s : Str) : Str := (s.dropWhile (· ∈ cutset)).rdropWhile (· ∈ cutset)

/-- `strings.TrimSuffix`. -/
def trimSuffix (suffix s : Str) : Str := if suffix.isSuffixOf s then s.take (s.length - suffix.length) else s

/-- `strings.FieldsFunc`, for ASCII separators. -/
def fields (separators s : Str) : List Str := (s.splitOnP (· ∈ separators)).filter (· ≠ [])

/-- `strings.Join`, with a slash. -/
def join (names : List Str) : Str := [slash].intercalate names

/-- `strings.Fields`: `field` is what is read of the field at hand, last byte first. -/
def spaceFieldsFrom : Nat → Str → Str → List Str
  | 0, field, _ => [field.reverse].filter (· ≠ [])
  | fuel + 1, field, s =>
    match spaces.find? (·.isPrefixOf s), s with
    | some unit, s => [field.reverse].filter (· ≠ []) ++ spaceFieldsFrom fuel [] (s.drop unit.length)
    | none, [] => [field.reverse].filter (· ≠ [])
    | none, b :: s => spaceFieldsFrom fuel (b :: field) s

def spaceFields (s : Str) : List Str := spaceFieldsFrom (s.length + 1) [] s

/-- `strings.SplitN`, with a separator of one byte. -/
def splitN (separator : UInt8) : Nat → Str → List Str
  | 0, _ => []
  | 1, s => [s]
  | n + 2, s =>
    if separator ∈ s then
      s.takeWhile (· ≠ separator) :: splitN separator (n + 1) (s.dropWhile (· ≠ separator)).tail
    else [s]

/-! ## `strconv` -/

/-- The value of digits, in a base of at most ten. -/
def digitsValue (base : Nat) (s : Str) : Option Nat :=
  if s = [] then none
  else s.foldlM (fun value b =>
    if 48 ≤ b.toNat ∧ b.toNat < 48 + base then some (value * base + (b.toNat - 48)) else none) 0

/-- `strconv.ParseUint`. -/
def parseUintBase (base bits : Nat) (s : Str) : Option Nat := (digitsValue base s).filter (· < 2 ^ bits)

/-- `strconv.ParseInt`, in base ten and 64 bits. -/
def parseInt64 (s : Str) : Option Int :=
  match s with
  | [] => none
  | b :: rest =>
    if b = 45 then ((digitsValue 10 rest).filter (· ≤ 2 ^ 63)).map fun value => -(value : Int)
    else ((digitsValue 10 (if b = 43 then rest else s)).filter (· < 2 ^ 63)).map fun value => (value : Int)

/-! ## `path/filepath` -/

/-- `filepath.Split`. -/
def dirOf (path : Str) : Str := path.rdropWhile (· ≠ slash)

def fileOf (path : Str) : Str := path.rtakeWhile (· ≠ slash)

/-- `filepath.Base`. -/
def base (path : Str) : Str :=
  if path = [] then [dot]
  else
    let last := fileOf (path.rdropWhile (· = slash))
    if last = [] then [slash] else last

/-- `filepath.Ext`, of a name without a slash. -/
def ext (file : Str) : Str := if dot ∈ file then dot :: file.rtakeWhile (· ≠ dot) else []

def stemOf (file : Str) : Str := file.take (file.length - (ext file).length)

/-! ## Trimming -/

theorem mem_trim {cutset s : Str} {b : UInt8} (h : b ∈ trim cutset s) : b ∈ s :=
  (List.dropWhile_suffix _).subset ((List.rdropWhile_prefix _ _).subset h)

theorem head_trim {cutset s : Str} {b : UInt8} {rest : Str} (h : trim cutset s = b :: rest) : b ∉ cutset := by
  unfold trim at h
  obtain ⟨tail, htail⟩ := List.rdropWhile_prefix (· ∈ cutset) (s.dropWhile (· ∈ cutset))
  rw [h] at htail
  have hnot := List.head?_dropWhile_not (· ∈ cutset) s
  rw [← htail] at hnot
  simpa using hnot

/-- No unit stands in front. -/
def NoUnit (units : List Str) (s : Str) : Prop := ∀ unit ∈ units, ¬unit <+: s

theorem noUnit_nil {units : List Str} (hu : ∀ unit ∈ units, unit ≠ []) : NoUnit units [] :=
  fun unit hm hfront => hu unit hm (List.prefix_nil.mp hfront)

theorem dropUnits_of_noUnit {units : List Str} {s : Str} (h : NoUnit units s) (fuel : Nat) : dropUnits units fuel s = s := by
  cases fuel with
  | zero => rfl
  | succ fuel =>
    rw [dropUnits]
    have hnone : units.find? (·.isPrefixOf s) = none := by
      rw [List.find?_eq_none]
      intro unit hm hfront
      exact h unit hm (List.isPrefixOf_iff_prefix.mp hfront)
    rw [hnone]

theorem dropUnits_noUnit {units : List Str} (hu : ∀ unit ∈ units, unit ≠ []) :
    ∀ {fuel : Nat} {s : Str}, s.length ≤ fuel → NoUnit units (dropUnits units fuel s)
  | 0, s, h => by
    intro unit hm hfront
    have hnil : s = [] := List.eq_nil_of_length_eq_zero (Nat.le_zero.mp h)
    rw [dropUnits, hnil, List.prefix_nil] at hfront
    exact hu unit hm hfront
  | fuel + 1, s, h => by
    rw [dropUnits]
    cases hf : units.find? (·.isPrefixOf s) with
    | none =>
      intro unit hm hfront
      exact List.find?_eq_none.mp hf unit hm (List.isPrefixOf_iff_prefix.mpr hfront)
    | some unit =>
      apply dropUnits_noUnit hu
      have hpos := List.length_pos_iff.mpr (hu unit (List.mem_of_find?_eq_some hf))
      rw [List.length_drop]
      omega

theorem dropUnits_enough {units : List Str} (hu : ∀ unit ∈ units, unit ≠ []) :
    ∀ {fuel fuel' : Nat} {s : Str}, s.length ≤ fuel → s.length ≤ fuel' → dropUnits units fuel s = dropUnits units fuel' s
  | 0, fuel', s, h, _ => by
    rw [List.eq_nil_of_length_eq_zero (Nat.le_zero.mp h)]
    exact (dropUnits_of_noUnit (noUnit_nil hu) fuel').symm
  | fuel + 1, 0, s, _, h => by
    rw [List.eq_nil_of_length_eq_zero (Nat.le_zero.mp h)]
    exact dropUnits_of_noUnit (noUnit_nil hu) (fuel + 1)
  | fuel + 1, fuel' + 1, s, h, h' => by
    rw [dropUnits, dropUnits]
    cases hf : units.find? (·.isPrefixOf s) with
    | none => rfl
    | some unit =>
      have hpos := List.length_pos_iff.mpr (hu unit (List.mem_of_find?_eq_some hf))
      exact dropUnits_enough hu (by rw [List.length_drop]; omega) (by rw [List.length_drop]; omega)

/-- Units are not taken out of what a byte that is in none of them stands before. -/
theorem dropUnits_append {units : List Str} {c : UInt8} (hc : ∀ unit ∈ units, c ∉ unit) (x : Str) :
    ∀ (fuel : Nat) (front : Str), ∃ front', dropUnits units fuel (front ++ c :: x) = front' ++ c :: x
  | 0, front => ⟨front, rfl⟩
  | fuel + 1, front => by
    rw [dropUnits]
    cases hf : units.find? (·.isPrefixOf (front ++ c :: x)) with
    | none => exact ⟨front, rfl⟩
    | some unit =>
      have hunit := @List.find?_some Str (fun unit => unit.isPrefixOf (front ++ c :: x)) _ _ hf
      have hfront := List.isPrefixOf_iff_prefix.mp hunit
      have hle : unit.length ≤ front.length := by
        by_contra hlt
        obtain ⟨more, rfl⟩ := List.prefix_of_prefix_length_le (List.prefix_append front (c :: x)) hfront (by omega)
        rw [List.prefix_append_right_inj] at hfront
        cases more with
        | nil => simp at hlt
        | cons b more =>
          obtain ⟨rfl, -⟩ := List.cons_prefix_cons.mp hfront
          exact hc _ (List.mem_of_find?_eq_some hf) (by simp)
      simp only
      rw [List.drop_append_of_le_length hle]
      exact dropUnits_append hc x fuel _

theorem noUnit_append {units : List Str} {c : UInt8} (hc : ∀ unit ∈ units, c ∉ unit) {x : Str} (hx : NoUnit units x)
    (rest : Str) : NoUnit units (x ++ c :: rest) := by
  intro unit hm hfront
  rcases Nat.lt_or_ge x.length unit.length with hlt | hle
  · obtain ⟨more, rfl⟩ := List.prefix_of_prefix_length_le (List.prefix_append x (c :: rest)) hfront (by omega)
    rw [List.prefix_append_right_inj] at hfront
    cases more with
    | nil => simp at hlt
    | cons b more =>
      obtain ⟨rfl, -⟩ := List.cons_prefix_cons.mp hfront
      exact hc _ hm (by simp)
  · exact hx unit hm (List.prefix_of_prefix_length_le hfront (List.prefix_append x (c :: rest)) hle)

/-- A string that begins and ends with no space. -/
structure Bare (s : Str) : Prop where
  front : NoUnit spaces s
  back : NoUnit (spaces.map List.reverse) s.reverse

theorem trimSpace_of_bare {s : Str} (h : Bare s) : trimSpace s = s := by
  unfold trimSpace trimLeftSpace trimRightSpace
  rw [dropUnits_of_noUnit h.front, dropUnits_of_noUnit h.back, List.reverse_reverse]

theorem trimSpace_bare (s : Str) : Bare (trimSpace s) := by
  have hleft : NoUnit spaces (trimLeftSpace s) := dropUnits_noUnit (by decide) (Nat.le_refl _)
  have hright : NoUnit (spaces.map List.reverse) (trimSpace s).reverse := by
    unfold trimSpace trimRightSpace
    rw [List.reverse_reverse]
    exact dropUnits_noUnit (by decide) (by rw [List.length_reverse])
  refine ⟨fun unit hm hfront => hleft unit hm (hfront.trans ?_), hright⟩
  have hsuffix : ∀ (fuel : Nat) (t : Str), dropUnits (spaces.map List.reverse) fuel t <:+ t := by
    intro fuel
    induction fuel with
    | zero => exact fun t => List.suffix_refl t
    | succ fuel ih =>
      intro t
      rw [dropUnits]
      split
      · exact List.suffix_refl t
      · exact (ih _).trans (List.drop_suffix ..)
  unfold trimSpace trimRightSpace
  rw [← List.reverse_reverse (trimLeftSpace s), List.reverse_prefix]
  simp only [List.reverse_reverse]
  exact hsuffix _ _

theorem trimSpace_idem (s : Str) : trimSpace (trimSpace s) = trimSpace s := trimSpace_of_bare (trimSpace_bare s)

/-- A line end behind a string is a space in front only of nothing. -/
theorem dropUnits_newline : ∀ {fuel : Nat} {s : Str}, s.length < fuel →
    dropUnits spaces fuel (s ++ [10]) = if dropUnits spaces fuel s = [] then [] else dropUnits spaces fuel s ++ [10]
  | 0, _, h => absurd h (Nat.not_lt_zero _)
  | fuel + 1, [], _ => by
    have hnil : dropUnits spaces (fuel + 1) [] = [] := dropUnits_of_noUnit (noUnit_nil (by decide)) _
    have hnil' : dropUnits spaces fuel [] = [] := dropUnits_of_noUnit (noUnit_nil (by decide)) _
    rw [hnil, if_pos rfl]
    exact hnil'
  | fuel + 1, b :: s, h => by
    have hsame : ∀ unit ∈ spaces, unit.isPrefixOf (b :: s ++ [10]) = unit.isPrefixOf (b :: s) := by
      intro unit hm
      rw [Bool.eq_iff_iff, List.isPrefixOf_iff_prefix, List.isPrefixOf_iff_prefix, List.prefix_concat_iff]
      refine ⟨fun hp => hp.resolve_left fun he => ?_, .inr⟩
      have hlast : ∀ unit ∈ spaces, unit.getLast? = some 10 → unit = [10] := by decide
      have := hlast unit hm (by rw [he, List.getLast?_concat])
      rw [this] at he
      simp at he
    have hfind : spaces.find? (·.isPrefixOf (b :: s ++ [10])) = spaces.find? (·.isPrefixOf (b :: s)) :=
      List.find?_congr hsame
    rw [dropUnits, dropUnits, hfind]
    cases hf : spaces.find? (·.isPrefixOf (b :: s)) with
    | none => exact (if_neg (List.cons_ne_nil _ _)).symm
    | some unit =>
      have hfront := List.isPrefixOf_iff_prefix.mp (@List.find?_some Str (·.isPrefixOf (b :: s)) _ _ hf)
      have hpos := List.length_pos_iff.mpr ((by decide : ∀ unit ∈ spaces, unit ≠ []) unit (List.mem_of_find?_eq_some hf))
      simp only
      rw [List.drop_append_of_le_length hfront.length_le]
      refine dropUnits_newline ?_
      rw [List.length_drop]
      simp only [List.length_cons] at h ⊢
      omega

theorem trimSpace_newline (s : Str) : trimSpace (s ++ [10]) = trimSpace s := by
  have hleft : trimLeftSpace (s ++ [10]) = if trimLeftSpace s = [] then [] else trimLeftSpace s ++ [10] := by
    unfold trimLeftSpace
    rw [List.length_append, List.length_singleton, dropUnits_newline (Nat.lt_succ_self _),
      dropUnits_enough (by decide) (Nat.le_succ s.length) (Nat.le_refl _)]
  unfold trimSpace
  rw [hleft]
  split
  · rename_i h
    rw [h]
  · unfold trimRightSpace
    rw [List.reverse_append, List.length_append, List.reverse_singleton, List.singleton_append]
    rfl

/-- Line ends at the end are spaces. -/
theorem trimSpace_rdropWhile (s : Str) : trimSpace (s.rdropWhile (· = 10)) = trimSpace s := by
  induction s using List.reverseRecOn with
  | nil => rfl
  | append_singleton s b ih =>
    by_cases hb : b = 10
    · rw [List.rdropWhile_concat_pos _ _ _ (by simpa using hb), ih, hb, trimSpace_newline]
    · rw [List.rdropWhile_concat_neg _ _ _ (by simpa using hb)]

/-- What is taken off the front is units. -/
theorem dropUnits_split (units : List Str) : ∀ (fuel : Nat) (s : Str),
    ∃ front, s = front ++ dropUnits units fuel s ∧ front ⊆ units.flatten
  | 0, s => ⟨[], rfl, List.nil_subset _⟩
  | fuel + 1, s => by
    rw [dropUnits]
    cases hf : units.find? (·.isPrefixOf s) with
    | none => exact ⟨[], rfl, List.nil_subset _⟩
    | some unit =>
      obtain ⟨rest, rfl⟩ := List.isPrefixOf_iff_prefix.mp (@List.find?_some Str (·.isPrefixOf s) _ _ hf)
      obtain ⟨front, hsplit, hsub⟩ := dropUnits_split units fuel rest
      refine ⟨unit ++ front, ?_, List.append_subset.mpr ⟨?_, hsub⟩⟩
      · simp only
        rw [List.drop_left, List.append_assoc, ← hsplit]
      · exact fun b hb => List.mem_flatten.mpr ⟨unit, List.mem_of_find?_eq_some hf, hb⟩

theorem trimSpace_split (s : Str) : ∃ front back, s = front ++ trimSpace s ++ back ∧ front ⊆ spaces.flatten ∧
    back ⊆ spaces.flatten := by
  obtain ⟨front, hleft, hfront⟩ := dropUnits_split spaces s.length s
  obtain ⟨back, hright, hback⟩ := dropUnits_split (spaces.map List.reverse) (trimLeftSpace s).length (trimLeftSpace s).reverse
  refine ⟨front, back.reverse, ?_, hfront, fun b hb => ?_⟩
  · have htrim : trimLeftSpace s = trimSpace s ++ back.reverse := by
      unfold trimSpace trimRightSpace
      rw [← List.reverse_append, ← hright, List.reverse_reverse]
    rw [List.append_assoc, ← htrim]
    exact hleft
  · obtain ⟨unit, hm, hb⟩ := List.mem_flatten.mp (hback (List.mem_reverse.mp hb))
    obtain ⟨space, hs, rfl⟩ := List.mem_map.mp hm
    exact List.mem_flatten.mpr ⟨space, hs, List.mem_reverse.mp hb⟩

theorem trimSpace_subset (s : Str) : trimSpace s ⊆ s := by
  obtain ⟨front, back, hsplit, -, -⟩ := trimSpace_split s
  intro b hb
  rw [hsplit]
  simp [hb]

/-- What stands behind the last slash stays, if it ends with no space. -/
theorem trimSpace_behind_slash (front : Str) {x : Str} (hx : NoUnit (spaces.map List.reverse) x.reverse) :
    ∃ front', trimSpace (front ++ slash :: x) = front' ++ slash :: x := by
  obtain ⟨front', hleft⟩ := dropUnits_append (show ∀ unit ∈ spaces, slash ∉ unit by decide) x
    (front ++ slash :: x).length front
  refine ⟨front', ?_⟩
  unfold trimSpace trimLeftSpace
  rw [hleft]
  unfold trimRightSpace
  rw [dropUnits_of_noUnit, List.reverse_reverse]
  rw [List.reverse_append, List.reverse_cons, List.append_assoc]
  exact noUnit_append (by decide) hx _

/-! ## Splitting -/

/-- The first of a separator is where a string is cut. -/
theorem append_cons_inj_left {x x' y y' : Str} {c : UInt8} (h : x ++ c :: y = x' ++ c :: y') (hx : c ∉ x) (hx' : c ∉ x') :
    x = x' ∧ y = y' := by
  have ht {x y : Str} (hx : c ∉ x) : (x ++ c :: y).takeWhile (· ≠ c) = x := by
    have hpos : ∀ b ∈ x, decide (b ≠ c) = true := fun b hb => decide_eq_true fun he => hx (he ▸ hb)
    rw [List.takeWhile_append_of_pos hpos, List.takeWhile_cons_of_neg (by simp), List.append_nil]
  have hxx : x = x' := by
    rw [← ht (y := y) hx, h, ht hx']
  rw [hxx] at h
  exact ⟨hxx, (List.cons.inj (List.append_cancel_left h)).2⟩

/-- The last of a separator is where a string is cut. -/
theorem append_cons_inj {x x' y y' : Str} {c : UInt8} (h : x ++ c :: y = x' ++ c :: y') (hy : c ∉ y) (hy' : c ∉ y') :
    x = x' ∧ y = y' := by
  have hr {x y : Str} (hy : c ∉ y) : (x ++ c :: y).rtakeWhile (· ≠ c) = y := by
    unfold List.rtakeWhile
    rw [List.reverse_append, List.reverse_cons, List.append_assoc, List.takeWhile_append_of_pos, List.singleton_append,
      List.takeWhile_cons_of_neg (by simp), List.append_nil, List.reverse_reverse]
    intro b hb
    simp only [ne_eq, decide_eq_true_eq]
    exact fun he => hy (he ▸ List.mem_reverse.mp hb)
  have hyy : y = y' := by
    rw [← hr (x := x) hy, h, hr hy']
  subst hyy
  exact ⟨List.append_cancel_right h, rfl⟩

theorem dirOf_append_fileOf (path : Str) : dirOf path ++ fileOf path = path := List.rdropWhile_append_rtakeWhile

theorem slash_not_mem_fileOf (path : Str) : slash ∉ fileOf path := by
  intro h
  have := List.mem_rtakeWhile_imp h
  simp at this

/-- What `filepath.Split` leaves in front. -/
def IsDir (dir : Str) : Prop := dir = [] ∨ ∃ front, dir = front ++ [slash]

theorem dirOf_isDir (path : Str) : IsDir (dirOf path) := by
  rcases List.eq_nil_or_concat (dirOf path) with h | ⟨front, last, h⟩
  · exact .inl h
  · have hne : path.rdropWhile (· ≠ slash) ≠ [] := by
      change dirOf path ≠ []
      rw [h]
      simp
    have hnot := List.rdropWhile_last_not _ _ hne
    refine .inr ⟨front, ?_⟩
    have hlast : (dirOf path).getLast hne = last := by
      simp [h]
    rw [h, List.concat_eq_append]
    change ¬(fun b : UInt8 => decide (b ≠ slash)) ((dirOf path).getLast hne) = true at hnot
    rw [hlast] at hnot
    simp only [ne_eq, decide_eq_true_eq, not_not] at hnot
    rw [hnot]

theorem dir_inj {dir dir' file file' : Str} (h : dir ++ file = dir' ++ file') (hd : IsDir dir) (hd' : IsDir dir')
    (hf : slash ∉ file) (hf' : slash ∉ file') : dir = dir' ∧ file = file' := by
  rcases hd with rfl | ⟨front, rfl⟩
  · rcases hd' with rfl | ⟨front', rfl⟩
    · exact ⟨rfl, h⟩
    · rw [List.nil_append] at h
      exact absurd (h ▸ by simp) hf
  · rcases hd' with rfl | ⟨front', rfl⟩
    · rw [List.nil_append] at h
      exact absurd (h ▸ by simp) hf'
    · simp only [List.append_assoc, List.singleton_append] at h
      obtain ⟨rfl, rfl⟩ := append_cons_inj h hf hf'
      exact ⟨rfl, rfl⟩

theorem fileOf_append {dir file : Str} (hd : IsDir dir) (hf : slash ∉ file) :
    dirOf (dir ++ file) = dir ∧ fileOf (dir ++ file) = file :=
  dir_inj (dirOf_append_fileOf _) (dirOf_isDir _) hd (slash_not_mem_fileOf _) hf

/-- What `filepath.Ext` answers. -/
def IsExt (stem e : Str) : Prop := e = [] ∧ dot ∉ stem ∨ ∃ tail, e = dot :: tail ∧ dot ∉ tail

theorem stemOf_append_ext (file : Str) : stemOf file ++ ext file = file ∧ IsExt (stemOf file) (ext file) := by
  unfold stemOf ext
  by_cases h : dot ∈ file
  · rw [if_pos h]
    have hsplit : file.rdropWhile (· ≠ dot) ++ file.rtakeWhile (· ≠ dot) = file := List.rdropWhile_append_rtakeWhile
    have hnot : dot ∉ file.rtakeWhile (· ≠ dot) := by
      intro hm
      have := List.mem_rtakeWhile_imp hm
      simp at this
    have hne : file.rdropWhile (· ≠ dot) ≠ [] := by
      intro hnil
      have := List.rdropWhile_eq_nil_iff.mp hnil dot h
      simp at this
    have hlast := List.rdropWhile_last_not _ _ hne
    simp only [ne_eq, decide_eq_true_eq, not_not] at hlast
    have hdrop : file.rdropWhile (· ≠ dot) = (file.rdropWhile (· ≠ dot)).dropLast ++ [dot] := by
      conv => lhs; rw [← List.dropLast_append_getLast hne]
      rw [hlast]
    have hfile : (file.rdropWhile (· ≠ dot)).dropLast ++ dot :: file.rtakeWhile (· ≠ dot) = file := by
      conv => rhs; rw [← hsplit, hdrop]
      simp
    have htake : file.take (file.length - (dot :: file.rtakeWhile (· ≠ dot)).length) =
        (file.rdropWhile (· ≠ dot)).dropLast := by
      have hlength := congrArg List.length hfile
      rw [List.length_append] at hlength
      conv => lhs; rw [← hfile]
      apply List.take_left'
      rw [hfile]
      omega
    rw [htake]
    exact ⟨hfile, .inr ⟨_, rfl, hnot⟩⟩
  · rw [if_neg h]
    simp only [List.length_nil, Nat.sub_zero, List.take_length, List.append_nil, true_and]
    exact .inl ⟨rfl, h⟩

theorem ext_inj {stem stem' e e' : Str} (h : stem ++ e = stem' ++ e') (he : IsExt stem e) (he' : IsExt stem' e') :
    stem = stem' ∧ e = e' := by
  rcases he with ⟨rfl, hs⟩ | ⟨tail, rfl, ht⟩
  · rcases he' with ⟨rfl, -⟩ | ⟨tail', rfl, -⟩
    · exact ⟨by simpa using h, rfl⟩
    · rw [List.append_nil] at h
      exact absurd (h ▸ by simp) hs
  · rcases he' with ⟨rfl, hs'⟩ | ⟨tail', rfl, ht'⟩
    · rw [List.append_nil] at h
      exact absurd (h ▸ by simp) hs'
    · obtain ⟨rfl, rfl⟩ := append_cons_inj h ht ht'
      exact ⟨rfl, rfl⟩

/-- The last name of a path. -/
theorem join_concat (names : List Str) : ∃ dir, IsDir dir ∧ ∀ name, join (names ++ [name]) = dir ++ name := by
  by_cases h : names = []
  · exact ⟨[], .inl rfl, fun name => by rw [h]; simp [join]⟩
  · refine ⟨join names ++ [slash], .inr ⟨_, rfl⟩, fun name => ?_⟩
    induction names with
    | nil => exact absurd rfl h
    | cons first names ih =>
      unfold join at ih ⊢
      by_cases hn : names = []
      · subst hn
        simp [List.intercalate]
      · rw [List.cons_append, List.intercalate_cons_of_ne_nil (by simp), ih hn, List.intercalate_cons_of_ne_nil hn]
        simp

end GoBytes
