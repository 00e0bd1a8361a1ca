import Mathlib.Algebra.GroupWithZero.Nat
import Mathlib.Data.List.Basic

/-!
# Strings of UTF-16 units

A string of JavaScript is a list of units that need not be well formed. Its code
points are its surrogate pairs and its other units, each by itself.
-/

namespace Utf16

abbrev Units := List UInt16

def isHigh (u : UInt16) : Bool := 0xd800 ≤ u.toNat && u.toNat ≤ 0xdbff

def isLow (u : UInt16) : Bool := 0xdc00 ≤ u.toNat && u.toNat ≤ 0xdfff

def codePoints : Units → List Units
  | [] => []
  | [u] => [[u]]
  | u :: v :: rest => if isHigh u && isLow v then [u, v] :: codePoints rest else [u] :: codePoints (v :: rest)

theorem codePoints_flatten (s : Units) : (codePoints s).flatten = s := by
  induction s using codePoints.induct with
  | case1 => rfl
  | case2 u => rfl
  | case3 u v rest h ih =>
    rw [codePoints, if_pos h, List.flatten_cons, ih]
    rfl
  | case4 u v rest h ih =>
    rw [codePoints, if_neg h, List.flatten_cons, ih]
    rfl

theorem codePoints_ne_nil (s : Units) : ∀ c ∈ codePoints s, c ≠ [] := by
  induction s using codePoints.induct with
  | case1 => exact nofun
  | case2 u => simp [codePoints]
  | case3 u v rest h ih =>
    rw [codePoints, if_pos h]
    exact List.forall_mem_cons.mpr ⟨by simp, ih⟩
  | case4 u v rest h ih =>
    rw [codePoints, if_neg h]
    exact List.forall_mem_cons.mpr ⟨by simp, ih⟩

/-! ## Well-formed strings -/

/-- `isWellFormed`: every surrogate is one of a pair. -/
def isWellFormed : Units → Bool
  | [] => true
  | [u] => !isHigh u && !isLow u
  | u :: v :: rest => if isHigh u && isLow v then isWellFormed rest else !isHigh u && !isLow u && isWellFormed (v :: rest)

/-- The bytes of a unit that is none of a pair; a surrogate is encoded as U+FFFD. -/
def unitBytes (u : UInt16) : Nat := if u.toNat < 0x80 then 1 else if u.toNat < 0x800 then 2 else 3

/-- The bytes of a string in UTF-8. -/
def utf8Length : Units → Nat
  | [] => 0
  | [u] => unitBytes u
  | u :: v :: rest => if isHigh u && isLow v then 4 + utf8Length rest else unitBytes u + utf8Length (v :: rest)

theorem high_not_low {u : UInt16} (h : isHigh u = true) : isLow u = false := by
  unfold isHigh at h
  simp only [Bool.and_eq_true, decide_eq_true_eq] at h
  unfold isLow
  simp only [Bool.and_eq_false_iff, decide_eq_false_iff_not]
  omega

theorem isWellFormed_cons {u : UInt16} {rest : Units} (h : isHigh u = false) :
    isWellFormed (u :: rest) = (!isLow u && isWellFormed rest) := by
  cases rest with
  | nil => simp [isWellFormed, h]
  | cons v rest => simp [isWellFormed, h]

theorem utf8Length_cons {u : UInt16} {rest : Units} (h : isHigh u = false) :
    utf8Length (u :: rest) = unitBytes u + utf8Length rest := by
  cases rest with
  | nil => simp [utf8Length]
  | cons v rest => simp [utf8Length, h]

theorem head_not_low {u : UInt16} {rest : Units} (h : isWellFormed (u :: rest) = true) : isLow u = false := by
  cases hu : isHigh u with
  | true => exact high_not_low hu
  | false =>
    rw [isWellFormed_cons hu, Bool.and_eq_true, Bool.not_eq_true'] at h
    exact h.1

/-- What follows a well-formed string does not change how it is read. -/
theorem append_wellFormed (t : Units) : ∀ {s : Units}, isWellFormed s = true →
    isWellFormed (s ++ t) = isWellFormed t ∧ utf8Length (s ++ t) = utf8Length s + utf8Length t := by
  intro s
  induction s using isWellFormed.induct with
  | case1 => simp [utf8Length]
  | case2 u =>
    intro h
    simp only [isWellFormed, Bool.and_eq_true, Bool.not_eq_true'] at h
    rw [List.singleton_append, isWellFormed_cons h.1, utf8Length_cons h.1, h.2]
    simp [utf8Length]
  | case3 u v rest hp ih =>
    intro h
    rw [isWellFormed, if_pos hp] at h
    obtain ⟨hw, hl⟩ := ih h
    simp only [List.cons_append, isWellFormed, utf8Length, if_pos hp, hw, hl, Nat.add_assoc, true_and]
  | case4 u v rest hp ih =>
    intro h
    rw [isWellFormed, if_neg hp, Bool.and_eq_true, Bool.and_eq_true, Bool.not_eq_true', Bool.not_eq_true'] at h
    obtain ⟨hw, hl⟩ := ih h.2
    rw [List.cons_append, isWellFormed_cons h.1.1, utf8Length_cons h.1.1, utf8Length_cons h.1.1, hw, hl, h.1.2, Nat.add_assoc]
    simp

theorem flatten_wellFormed : ∀ {ss : List Units}, (∀ s ∈ ss, isWellFormed s = true) →
    isWellFormed ss.flatten = true ∧ utf8Length ss.flatten = (ss.map utf8Length).sum
  | [], _ => ⟨rfl, rfl⟩
  | s :: ss, h => by
    obtain ⟨hs, hss⟩ := List.forall_mem_cons.mp h
    obtain ⟨hw, hl⟩ := flatten_wellFormed hss
    obtain ⟨hw', hl'⟩ := append_wellFormed ss.flatten hs
    rw [List.flatten_cons, hw', hl', List.map_cons, List.sum_cons, hl]
    exact ⟨hw, rfl⟩

/-- Cut where no pair is cut, both parts are well formed. -/
theorem cut_wellFormed : ∀ {s : Units} {k : Nat}, isWellFormed s = true → (∀ u ∈ s[k]?, isLow u = false) →
    isWellFormed (s.take k) = true ∧ isWellFormed (s.drop k) = true := by
  intro s
  induction s using isWellFormed.induct with
  | case1 => simp [isWellFormed]
  | case2 u =>
    intro k h hk
    cases k with
    | zero => exact ⟨rfl, h⟩
    | succ k => simpa [isWellFormed] using h
  | case3 u v rest hp ih =>
    intro k h hk
    have hrest := h
    rw [isWellFormed, if_pos hp] at hrest
    match k with
    | 0 => exact ⟨rfl, h⟩
    | 1 =>
      simp only [List.getElem?_cons_succ, List.getElem?_cons_zero, Option.mem_some_iff, forall_eq'] at hk
      rw [hk, Bool.and_false] at hp
      cases hp
    | k + 2 =>
      obtain ⟨ht, hd⟩ := ih hrest (by simpa using hk)
      rw [List.take_succ_cons, List.take_succ_cons, isWellFormed, if_pos hp]
      exact ⟨ht, hd⟩
  | case4 u v rest hp ih =>
    intro k h hk
    have hrest := h
    rw [isWellFormed, if_neg hp, Bool.and_eq_true, Bool.and_eq_true, Bool.not_eq_true', Bool.not_eq_true'] at hrest
    cases k with
    | zero => exact ⟨rfl, h⟩
    | succ k =>
      obtain ⟨ht, hd⟩ := ih hrest.2 (by simpa using hk)
      rw [List.take_succ_cons, isWellFormed_cons hrest.1.1, hrest.1.2, ht]
      exact ⟨rfl, hd⟩

/-- Behind a unit that is no high surrogate there is no low one. -/
theorem next_not_low : ∀ {s : Units} {k : Nat} {u : UInt16}, isWellFormed s = true → s[k]? = some u → isHigh u = false →
    ∀ v ∈ s[k + 1]?, isLow v = false := by
  intro s
  induction s using isWellFormed.induct with
  | case1 => simp
  | case2 u => simp
  | case3 u v rest hp ih =>
    intro k w h hu hw
    have hrest := h
    rw [isWellFormed, if_pos hp] at hrest
    rw [Bool.and_eq_true] at hp
    match k with
    | 0 =>
      cases hu
      rw [hp.1] at hw
      cases hw
    | 1 =>
      intro x hx
      cases rest with
      | nil => cases hx
      | cons y rest =>
        obtain rfl : y = x := by simpa using hx
        exact head_not_low hrest
    | k + 2 => exact fun x hx => ih hrest (by simpa using hu) hw x (by simpa using hx)
  | case4 u v rest hp ih =>
    intro k w h hu hw
    have hrest := h
    rw [isWellFormed, if_neg hp, Bool.and_eq_true, Bool.and_eq_true] at hrest
    cases k with
    | zero =>
      intro x hx
      obtain rfl : v = x := by simpa using hx
      exact head_not_low hrest.2
    | succ k => exact fun x hx => ih hrest.2 (by simpa using hu) hw x (by simpa using hx)

/-! ## Mappings of code points -/

/-- What every code point is mapped to, by what stands before and behind it: never to nothing. -/
structure Mapping where
  image : List Units → Units → List Units → Units
  image_ne_nil : ∀ before c after, c ≠ [] → image before c after ≠ []

/-- A text that was mapped, piece by piece. -/
structure Piece where
  source : Units
  image : Units

namespace Mapping

variable (f : Mapping)

def piecesFrom (before : List Units) : List Units → List Piece
  | [] => []
  | c :: cs => { source := c, image := f.image before c cs } :: piecesFrom (before ++ [c]) cs

def pieces (s : Units) : List Piece := f.piecesFrom [] (codePoints s)

def map (s : Units) : Units := ((f.pieces s).map (·.image)).flatten

theorem piecesFrom_source (cs : List Units) : ∀ before, (f.piecesFrom before cs).map (·.source) = cs := by
  induction cs with
  | nil => exact fun _ => rfl
  | cons c cs ih =>
    intro before
    rw [piecesFrom, List.map_cons, ih]

theorem pieces_source (s : Units) : ((f.pieces s).map (·.source)).flatten = s := by
  rw [pieces, piecesFrom_source, codePoints_flatten]

theorem pieces_source_ne_nil (s : Units) : ∀ p ∈ f.pieces s, p.source ≠ [] := by
  intro p hp
  have hmem := List.mem_map_of_mem (f := Piece.source) hp
  rw [pieces, piecesFrom_source] at hmem
  exact codePoints_ne_nil s _ hmem

theorem map_ne_nil {s : Units} (h : s ≠ []) : f.map s ≠ [] := by
  unfold map pieces
  cases hs : codePoints s with
  | nil =>
    have := codePoints_flatten s
    rw [hs] at this
    exact absurd this.symm h
  | cons c cs =>
    have hc := codePoints_ne_nil s c (hs ▸ List.mem_cons_self)
    have himage := f.image_ne_nil [] c cs hc
    simp [piecesFrom, himage]

end Mapping

/-- Where the piece begins in the source that has the unit at an offset of the image. -/
def origin : List Piece → Nat → Option Nat
  | [], _ => none
  | p :: ps, offset => if offset < p.image.length then some 0 else (origin ps (offset - p.image.length)).map (p.source.length + ·)

theorem origin_lt {ps : List Piece} (hne : ∀ p ∈ ps, p.source ≠ []) : ∀ {offset : Nat}, offset < (ps.map (·.image)).flatten.length →
    ∃ i, origin ps offset = some i ∧ i < (ps.map (·.source)).flatten.length := by
  induction ps with
  | nil => exact fun h => absurd h (Nat.not_lt_zero _)
  | cons p ps ih =>
    intro offset h
    obtain ⟨hp, hps⟩ := List.forall_mem_cons.mp hne
    have hpos := List.length_pos_of_ne_nil hp
    simp only [List.map_cons, List.flatten_cons, List.length_append] at h ⊢
    unfold origin
    split
    · exact ⟨0, rfl, by omega⟩
    · obtain ⟨i, hi, hlt⟩ := ih hps (show offset - p.image.length < _ by omega)
      exact ⟨p.source.length + i, by rw [hi]; rfl, by omega⟩

end Utf16
