import Mathlib.Data.List.DropRight
import Webshell.Json

/-!
# JavaScript values read from JSON

The conversions of the browser's code on what `JSON.parse` returns. A number is
its literal: that is how the decimal integers up to `2 ^ 53 - 1` print, and no
other number is written on the queue.
-/

namespace Js

/-! ## Strings -/

/-- White space and line ends of `String.prototype.trim`. -/
def isSpace (c : Char) : Bool :=
  [0x09, 0x0a, 0x0b, 0x0c, 0x0d, 0x20, 0xa0, 0x1680, 0x2028, 0x2029, 0x202f, 0x205f, 0x3000, 0xfeff].contains c.toNat ||
    (0x2000 ≤ c.toNat && c.toNat ≤ 0x200a)

def trim (s : List Char) : List Char := (s.dropWhile isSpace).rdropWhile isSpace

/-- How an object prints. -/
def objectText : List Char := "[object Object]".toList

def isNull : Json → Bool
  | .null => true
  | _ => false

mutual
/-- `String(value)`. -/
def text : Json → List Char
  | .null => "null".toList
  | .bool b => (if b then "true" else "false").toList
  | .num literal => literal
  | .str s => s
  | .arr items => joinText items
  | .obj _ => objectText
/-- The items of an array, `null` as nothing, with commas between. -/
def joinText : List Json → List Char
  | [] => []
  | item :: items =>
    (if isNull item = true then [] else text item) ++ (if items = [] then [] else ',' :: joinText items)
end

/-- The number `/^\d+$/` lets through. -/
def decimal (s : List Char) : Option Nat :=
  if s ≠ [] ∧ s.all Char.isDigit = true then some (Nat.ofDigitChars 10 s 0) else none

def maxSafeInteger : Nat := 2 ^ 53 - 1

/-! ## Values -/

/-- Whether a value counts as true. -/
def truthy : Json → Bool
  | .null => false
  | .bool b => b
  | .num literal => literal.any fun c => '1' ≤ c && c ≤ '9'
  | .str s => s ≠ []
  | .arr _ => true
  | .obj _ => true

/-- `value || other`, for a property that may not be there. -/
def orElse (value : Option Json) (other : Json) : Json :=
  match value with
  | some v => if truthy v = true then v else other
  | none => other

/-- `Math.floor(Number(value))`, where that is a safe integer above zero. -/
def positiveInteger (value : Json) : Option Nat :=
  let n := if value matches .bool true then some 1 else decimal (trim (text value))
  n.filter fun n => 0 < n && n ≤ maxSafeInteger

/-- `String(value ?? "").trim()`. -/
def trimmedText (value : Option Json) : List Char :=
  match value with
  | none | some .null => []
  | some v => trim (text v)

/-- `value === s`, for a string that is not computed. -/
def equals (value : Option Json) (s : String) : Bool :=
  match value with
  | some (.str t) => t = s.toList
  | _ => false

/-- `a === b`, for values read apart from each other: no two objects are the same. -/
def same : Option Json → Option Json → Bool
  | none, none | some .null, some .null => true
  | some (.bool a), some (.bool b) => a = b
  | some (.num a), some (.num b) => a = b
  | some (.str s), some (.str t) => s = t
  | _, _ => false

/-- `s.length`, in UTF-16. -/
def length (s : List Char) : Nat := (s.map fun c => if c.toNat < 0x10000 then 1 else 2).sum

/-! ## Trimmed strings -/

theorem same_str (s : List Char) : same (some (.str s)) (some (.str s)) = true := decide_eq_true rfl

theorem same_num (literal : List Char) : same (some (.num literal)) (some (.num literal)) = true := decide_eq_true rfl

theorem length_of_small {s : List Char} (h : ∀ c ∈ s, c.toNat < 0x10000) : length s = s.length := by
  unfold length
  induction s with
  | nil => rfl
  | cons c s ih =>
    rw [List.map_cons, List.sum_cons, if_pos (h c (List.mem_cons_self ..)), ih fun x hx => h x (List.mem_cons_of_mem _ hx),
      List.length_cons, Nat.add_comm]

theorem trim_of_ends {s : List Char} (hh : ∀ c, s.head? = some c → isSpace c = false)
    (hl : ∀ c, s.getLast? = some c → isSpace c = false) : trim s = s := by
  have hd : s.dropWhile isSpace = s := by
    cases s with
    | nil => rfl
    | cons c cs => exact List.dropWhile_cons_of_neg (by simp [hh c rfl])
  unfold trim
  rw [hd, List.rdropWhile_eq_self_iff]
  intro hne
  simp [hl _ (List.getLast?_eq_getLast_of_ne_nil hne)]

theorem trim_of_no_space {s : List Char} (h : ∀ c ∈ s, isSpace c = false) : trim s = s :=
  trim_of_ends (fun c hc => h c (List.mem_of_head? hc)) fun c hc => h c (List.mem_of_getLast? hc)

theorem isDigit_not_space {c : Char} (h : c.isDigit = true) : isSpace c = false := by
  simp only [Char.isDigit, Bool.and_eq_true, decide_eq_true_eq] at h
  have h1 : 48 ≤ c.toNat := h.1
  have h2 : c.toNat ≤ 57 := h.2
  simp only [isSpace, Bool.or_eq_false_iff, Bool.and_eq_false_imp, decide_eq_true_eq,
    decide_eq_false_iff_not, List.contains_eq_mem]
  refine ⟨?_, fun _ => by omega⟩
  simp only [List.mem_cons, List.not_mem_nil, or_false]
  omega

theorem trim_digits {s : List Char} (h : ∀ c ∈ s, c.isDigit = true) : trim s = s :=
  trim_of_no_space fun c hc => isDigit_not_space (h c hc)

theorem decimal_toDigits (n : Nat) : decimal (Nat.toDigits 10 n) = some n := by
  have hall : (Nat.toDigits 10 n).all Char.isDigit = true :=
    List.all_eq_true.mpr fun c hc => Nat.isDigit_of_mem_toDigits (by decide) (by decide) hc
  unfold decimal
  rw [if_pos ⟨Nat.toDigits_ne_nil, hall⟩, Nat.ofDigitChars_ten_toDigits]

theorem trim_toDigits (n : Nat) : trim (Nat.toDigits 10 n) = Nat.toDigits 10 n :=
  trim_digits fun _ hc => Nat.isDigit_of_mem_toDigits (by decide) (by decide) hc

end Js
