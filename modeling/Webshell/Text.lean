import Mathlib.Algebra.Group.Int.Defs
import Mathlib.Algebra.GroupWithZero.Nat
import Mathlib.Data.List.DropRight
import Mathlib.Data.List.Infix
import Mathlib.Data.String.Basic

/-!
# Strings, numerals and paths of the Go standard library

The functions of `strings`, `strconv` and `path/filepath` the terminal core
calls. Strings are read as lists of code points; paths are the slash-separated
ones.
-/

namespace GoText

/-! ## `strings` -/

/-- `unicode.IsSpace`. -/
def isSpace (c : Char) : Bool :=
  [0x09, 0x0a, 0x0b, 0x0c, 0x0d, 0x20, 0x85, 0xa0, 0x1680, 0x2028, 0x2029, 0x202f, 0x205f, 0x3000].contains c.toNat ||
    (0x2000 ≤ c.toNat && c.toNat ≤ 0x200a)

def trimSpace (s : String) : String :=
  String.ofList ((s.toList.dropWhile isSpace).rdropWhile isSpace)

/-- A string `strings.TrimSpace` leaves alone, and not empty. -/
def Trimmed (s : String) : Prop := trimSpace s = s ∧ s ≠ ""

theorem trimSpace_empty : trimSpace "" = "" := by simp [trimSpace]

theorem trimSpace_of_ends {s : String} (hh : ∀ c, s.toList.head? = some c → isSpace c = false)
    (hl : ∀ c, s.toList.getLast? = some c → isSpace c = false) : trimSpace s = s := by
  have hd : s.toList.dropWhile isSpace = s.toList := by
    cases h : s.toList with
    | nil => rfl
    | cons c cs =>
      rw [h] at hh
      have hc : isSpace c = false := hh c rfl
      rw [List.dropWhile_cons_of_neg (by simp [hc])]
  have hr : s.toList.rdropWhile isSpace = s.toList := by
    rw [List.rdropWhile_eq_self_iff]
    intro hne
    simp [hl _ (List.getLast?_eq_getLast_of_ne_nil hne)]
  unfold trimSpace
  rw [hd, hr, String.ofList_toList]

theorem trimSpace_ends (s : String) : (∀ c, (trimSpace s).toList.head? = some c → isSpace c = false) ∧
    ∀ c, (trimSpace s).toList.getLast? = some c → isSpace c = false := by
  unfold trimSpace
  rw [String.toList_ofList]
  constructor
  · intro c hc
    obtain ⟨t, ht⟩ := List.rdropWhile_prefix (p := isSpace) (l := s.toList.dropWhile isSpace)
    have hhead : (s.toList.dropWhile isSpace).head? = some c := by
      rw [← ht, List.head?_append, hc]; rfl
    have := List.head?_dropWhile_not isSpace s.toList
    rw [hhead] at this
    simpa using this
  · intro c hc
    have hne : (s.toList.dropWhile isSpace).rdropWhile isSpace ≠ [] := by
      intro he; rw [he] at hc; cases hc
    have := List.rdropWhile_last_not isSpace _ hne
    rw [List.getLast?_eq_getLast_of_ne_nil hne] at hc
    cases hc
    simpa using this

theorem trimSpace_idem (s : String) : trimSpace (trimSpace s) = trimSpace s :=
  trimSpace_of_ends (trimSpace_ends s).1 (trimSpace_ends s).2

/-- `strings.Split`, for a separator of one character. -/
def split (s : String) (sep : Char) : List String := (s.toList.splitOn sep).map String.ofList

theorem not_mem_splitOn {α : Type*} [BEq α] [LawfulBEq α] {x : α} {l : List α} : ∀ c ∈ l.splitOn x, x ∉ c := by
  induction l with
  | nil => simp
  | cons y l ih =>
    rw [List.splitOn_cons_eq_if_modifyHead]
    split
    · rintro c hc
      rcases List.mem_cons.mp hc with rfl | hc
      · exact List.not_mem_nil
      · exact ih c hc
    · rename_i hne
      cases hs : l.splitOn x with
      | nil => exact absurd hs (List.splitOn_ne_nil x l)
      | cons first rest =>
        rw [hs] at ih
        intro c hc
        rw [List.modifyHead_cons] at hc
        rcases List.mem_cons.mp hc with rfl | hc
        · rw [List.mem_cons, not_or]
          exact ⟨fun he => hne (by simp [he]), ih first (List.mem_cons_self ..)⟩
        · exact ih c (List.mem_cons_of_mem _ hc)

theorem subset_of_mem_splitOn {α : Type*} [BEq α] [LawfulBEq α] {x : α} {l : List α} : ∀ c ∈ l.splitOn x, c ⊆ l := by
  induction l with
  | nil => simp
  | cons y l ih =>
    rw [List.splitOn_cons_eq_if_modifyHead]
    split
    · rintro c hc
      rcases List.mem_cons.mp hc with rfl | hc
      · exact List.nil_subset _
      · exact List.subset_cons_of_subset y (ih c hc)
    · cases hs : l.splitOn x with
      | nil => exact absurd hs (List.splitOn_ne_nil x l)
      | cons first rest =>
        rw [hs] at ih
        intro c hc
        rw [List.modifyHead_cons] at hc
        rcases List.mem_cons.mp hc with rfl | hc
        · exact List.cons_subset_cons y (ih first List.mem_cons_self)
        · exact List.subset_cons_of_subset y (ih c (List.mem_cons_of_mem _ hc))

theorem split_pair {s a b : String} {sep : Char} (hs : s.toList = a.toList ++ sep :: b.toList) (ha : sep ∉ a.toList)
    (hb : sep ∉ b.toList) : split s sep = [a, b] := by
  unfold split
  rw [hs, List.splitOn_append_cons_self_of_not_mem ha, List.splitOn_eq_singleton hb]
  simp

/-- `strings.Contains`. -/
def contains (s part : String) : Bool := decide (part.toList <:+: s.toList)

/-- `strings.HasPrefix` and `strings.TrimPrefix`: what follows the tag. -/
def afterTag (s tag : String) : Option String :=
  if tag.toList.isPrefixOf s.toList then some (String.ofList (s.toList.drop tag.toList.length)) else none

/-- `len(s)`. -/
def byteLength (s : String) : Nat := s.utf8ByteSize

theorem byteLength_trimSpace (s : String) : byteLength (trimSpace s) ≤ byteLength s := by
  have hsub : (s.toList.dropWhile isSpace).rdropWhile isSpace <:+: s.toList :=
    (List.rdropWhile_prefix ..).isInfix.trans (List.dropWhile_suffix _).isInfix
  have h := String.utf8Len_le_of_infix hsub
  rw [← String.utf8ByteSize_ofList, ← String.utf8ByteSize_ofList, String.ofList_toList] at h
  exact h

/-! ## `encoding/hex` -/

def hexDigit (n : Fin 16) : Char := "0123456789abcdef".toList.getD n.val '0'

instance byteNeZero : NeZero 256 := ⟨by decide⟩

def hexPair (b : Fin 256) : List Char := [hexDigit ⟨b / 16, by omega⟩, hexDigit ⟨b % 16, by omega⟩]

/-- `hex.EncodeToString`. -/
def encodeToString (data : List (Fin 256)) : String := String.ofList (data.flatMap hexPair)

theorem hexDigit_ascii : ∀ n : Fin 16, isSpace (hexDigit n) = false ∧ (hexDigit n).utf8Size = 1 := by decide

theorem byteLength_encodeToString (data : List (Fin 256)) : byteLength (encodeToString data) = 2 * data.length := by
  unfold byteLength encodeToString
  rw [String.utf8ByteSize_ofList]
  induction data with
  | nil => rfl
  | cons b data ih =>
    rw [List.flatMap_cons, String.utf8Len_append, ih]
    simp only [hexPair, String.utf8Len_cons, String.utf8Len_nil, hexDigit_ascii, List.length_cons]
    omega

/-- Bytes written in hex are a text without blanks. -/
theorem encodeToString_trimmed {data : List (Fin 256)} (h : data ≠ []) : Trimmed (encodeToString data) := by
  have hall : ∀ c ∈ (encodeToString data).toList, isSpace c = false := by
    intro c hc
    unfold encodeToString at hc
    rw [String.toList_ofList] at hc
    obtain ⟨b, -, hb⟩ := List.mem_flatMap.mp hc
    simp only [hexPair, List.mem_cons, List.not_mem_nil, or_false] at hb
    rcases hb with rfl | rfl <;> exact (hexDigit_ascii _).1
  refine ⟨trimSpace_of_ends (fun c hc => hall c (List.mem_of_head? hc)) fun c hc => hall c (List.mem_of_getLast? hc), ?_⟩
  intro he
  have hlen := byteLength_encodeToString data
  rw [he] at hlen
  have hpos := List.length_pos_of_ne_nil h
  have hzero : byteLength "" = 0 := rfl
  omega

theorem trimSpace_encodeToString {data : List (Fin 256)} (h : data ≠ []) : trimSpace (encodeToString data) ≠ "" := by
  rw [(encodeToString_trimmed h).1]
  exact (encodeToString_trimmed h).2

/-! ## `strconv` -/

def uint64Limit : Nat := 2 ^ 64

/-- `strconv.ParseUint(s, 10, 64)`. -/
def parseUint (s : String) : Option Nat :=
  if s.toList ≠ [] ∧ s.toList.all Char.isDigit = true ∧ Nat.ofDigitChars 10 s.toList 0 < uint64Limit then
    some (Nat.ofDigitChars 10 s.toList 0)
  else none

/-- The largest `int`, and the wrap-around of its arithmetic. -/
def maxInt : Int := 2 ^ 63 - 1

def wrapInt (n : Int) : Int := (n + 2 ^ 63) % 2 ^ 64 - 2 ^ 63

/-- `strconv.Atoi` on a platform with 64-bit `int`. -/
def atoi (s : String) : Option Int :=
  let digits (cs : List Char) : Option Nat :=
    if cs ≠ [] ∧ cs.all Char.isDigit = true then some (Nat.ofDigitChars 10 cs 0) else none
  match s.toList with
  | '-' :: cs => (digits cs).bind fun n => if n ≤ 2 ^ 63 then some (-(n : Int)) else none
  | '+' :: cs => (digits cs).bind fun n => if n < 2 ^ 63 then some (n : Int) else none
  | cs => (digits cs).bind fun n => if n < 2 ^ 63 then some (n : Int) else none

/-- `strconv.FormatUint(n, 10)`. -/
def formatUint (n : Nat) : String := n.repr

/-- `fmt.Sprintf("%d", n)` after a fixed tag. -/
def taggedID (tag : String) (n : Int) : String := tag ++ n.repr

theorem isDigit_not_space {c : Char} (h : c.isDigit = true) : isSpace c = false := by
  simp only [Char.isDigit, Bool.and_eq_true, decide_eq_true_eq] at h
  have h1 : 48 ≤ c.toNat := h.1
  have h2 : c.toNat ≤ 57 := h.2
  simp only [isSpace, Bool.or_eq_false_iff, Bool.and_eq_false_imp, decide_eq_true_eq,
    decide_eq_false_iff_not, List.contains_eq_mem]
  refine ⟨?_, fun _ => by omega⟩
  simp only [List.mem_cons, List.not_mem_nil, or_false]
  omega

theorem digits_isDigit (n : Nat) : ∀ c ∈ Nat.toDigits 10 n, c.isDigit = true := by
  intro c hc
  exact Nat.isDigit_of_mem_toDigits (by decide) (by decide) hc

theorem formatUint_isDigit (n : Nat) : ∀ c ∈ (formatUint n).toList, c.isDigit = true := by
  unfold formatUint
  rw [Nat.toList_repr]
  exact digits_isDigit n

theorem parseUint_formatUint {n : Nat} (h : n < uint64Limit) : parseUint (formatUint n) = some n := by
  have hd : Nat.ofDigitChars 10 (Nat.toDigits 10 n) 0 = n := Nat.ofDigitChars_ten_toDigits
  unfold parseUint formatUint
  rw [Nat.toList_repr, hd, if_pos]
  exact ⟨Nat.toDigits_ne_nil, List.all_eq_true.mpr (digits_isDigit n), h⟩

theorem int_repr_toList (n : Int) :
    n.repr.toList = Nat.toDigits 10 n.toNat ∧ 0 ≤ n ∨ n.repr.toList = '-' :: Nat.toDigits 10 n.natAbs ∧ n < 0 := by
  cases n with
  | ofNat m => left; exact ⟨by simp [Int.repr], Int.natCast_nonneg m⟩
  | negSucc m => right; exact ⟨by simp [Int.repr], Int.negSucc_lt_zero m⟩

theorem int_repr_inj {m n : Int} (h : m.repr = n.repr) : m = n := by
  have hl : m.repr.toList = n.repr.toList := by rw [h]
  have dash : ∀ (a b : Nat), Nat.toDigits 10 a ≠ '-' :: Nat.toDigits 10 b := by
    intro a b he
    have := digits_isDigit a '-' (by rw [he]; exact List.mem_cons_self ..)
    exact absurd this (by decide)
  have inj : ∀ {a b : Nat}, Nat.toDigits 10 a = Nat.toDigits 10 b → a = b := by
    intro a b he
    rw [← Nat.ofDigitChars_ten_toDigits (n := a), he, Nat.ofDigitChars_ten_toDigits]
  rcases int_repr_toList m with ⟨hm, hm0⟩ | ⟨hm, hm0⟩ <;> rcases int_repr_toList n with ⟨hn, hn0⟩ | ⟨hn, hn0⟩
  · have := inj (hm.symm.trans (hl.trans hn)); omega
  · exact absurd (hm.symm.trans (hl.trans hn)) (dash _ _)
  · exact absurd (hn.symm.trans (hl.symm.trans hm)) (dash _ _)
  · have := inj (List.cons.inj (hm.symm.trans (hl.trans hn))).2; omega

theorem taggedID_inj {tag : String} {m n : Int} : taggedID tag m = taggedID tag n ↔ m = n := by
  constructor
  · intro h
    have hl : tag.toList ++ m.repr.toList = tag.toList ++ n.repr.toList := by
      rw [← String.toList_append, ← String.toList_append]; exact congrArg String.toList h
    exact int_repr_inj (String.toList_inj.mp (List.append_cancel_left hl))
  · rintro rfl; rfl

theorem int_repr_last_digit (n : Int) : ∃ c, n.repr.toList.getLast? = some c ∧ c.isDigit = true := by
  have last : ∀ m : Nat, ∃ c, (Nat.toDigits 10 m).getLast? = some c ∧ c.isDigit = true := by
    intro m
    have hne : Nat.toDigits 10 m ≠ [] := Nat.toDigits_ne_nil
    exact ⟨_, List.getLast?_eq_getLast_of_ne_nil hne, digits_isDigit m _ (List.getLast_mem hne)⟩
  rcases int_repr_toList n with ⟨h, -⟩ | ⟨h, -⟩
  · rw [h]; exact last _
  · obtain ⟨c, hc, hd⟩ := last n.natAbs
    exact ⟨c, by rw [h, List.getLast?_cons, hc]; rfl, hd⟩

theorem taggedID_trimmed {tag : String} {c : Char} {cs : List Char} (ht : tag.toList = c :: cs)
    (hc : isSpace c = false) (n : Int) : Trimmed (taggedID tag n) := by
  have hl : (taggedID tag n).toList = c :: (cs ++ n.repr.toList) := by
    unfold taggedID; rw [String.toList_append, ht]; rfl
  constructor
  · apply trimSpace_of_ends
    · intro d hd
      rw [hl] at hd; cases hd; exact hc
    · intro d hd
      obtain ⟨e, he, hdig⟩ := int_repr_last_digit n
      rw [hl, ← List.cons_append, List.getLast?_append, he] at hd
      simp only [Option.some_or, Option.some.injEq] at hd
      exact hd ▸ isDigit_not_space hdig
  · intro he
    rw [he] at hl; cases hl

/-! ## `path/filepath` -/

/-- One component of `filepath.Clean`, on the stack of those kept so far. -/
def cleanStep (rooted : Bool) (out : List (List Char)) (component : List Char) : List (List Char) :=
  if component = [] ∨ component = ['.'] then out
  else if component = ['.', '.'] then
    match out with
    | [] => if rooted then [] else [component]
    | top :: rest => if top = ['.', '.'] then component :: out else rest
  else component :: out

/-- `filepath.Clean`. -/
def pathClean (path : String) : String :=
  let rooted := path.toList.head? = some '/'
  let kept := (path.toList.splitOn '/').foldl (cleanStep rooted) []
  let body := List.intercalate ['/'] kept.reverse
  String.ofList (if rooted then '/' :: body else if body = [] then ['.'] else body)

/-- `filepath.Base`. -/
def pathBase (path : String) : String :=
  if path = "" then "."
  else
    match ((path.toList.splitOn '/').filter (· ≠ [])).getLast? with
    | none => "/"
    | some component => String.ofList component

/-- `filepath.IsAbs`. -/
def pathIsAbs (path : String) : Bool := path.toList.head? = some '/'

example : pathClean "/a/./b/../c//" = "/a/c" := by decide

end GoText
