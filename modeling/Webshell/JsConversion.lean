import Webshell.JsValue

/-!
# Conversions of JavaScript values

Any value a caller may pass, with `String(value)` and `Number(value)`, which
throw for some. How texts and numbers print and are read is left open.
-/

namespace Js

/-- A number as `===` sees it: there is one zero. -/
inductive Number
  | nan
  | infinite (negative : Bool)
  | finite (value : Rat)
  deriving DecidableEq

namespace Number

/-- `a === b`. -/
def strictEq : Number → Number → Bool
  | .nan, .nan => false
  | a, b => a = b

def truthy : Number → Bool
  | .nan => false
  | .infinite _ => true
  | .finite q => q ≠ 0

/-- The integer of a number that `Number.isSafeInteger` accepts. -/
def safeInteger : Number → Option Int
  | .finite q => if q.den = 1 ∧ q.num.natAbs ≤ maxSafeInteger then some q.num else none
  | _ => none

theorem eq_of_strictEq {a b : Number} (h : a.strictEq b = true) : a = b := by
  unfold strictEq at h
  split at h
  · cases h
  · exact of_decide_eq_true h

end Number

inductive Value
  | undefined
  | null
  | boolean (b : Bool)
  | number (n : Number)
  | bigint (n : Int)
  | string (s : List Char)
  | symbol (description : List Char)
  /-- An object by what its conversions answer; a conversion may throw. -/
  | object (text : Option (List Char)) (number : Option Number)
  deriving DecidableEq

namespace Value

def truthy : Value → Bool
  | .undefined | .null => false
  | .boolean b => b
  | .number n => n.truthy
  | .bigint n => n ≠ 0
  | .string s => s ≠ []
  | .symbol _ | .object _ _ => true

/-- `value || other`. -/
def orElse (value other : Value) : Value := if value.truthy = true then value else other

/-- `value ?? other`. -/
def orNullish (value other : Value) : Value :=
  match value with
  | .undefined | .null => other
  | v => v

/-- The parameter `value = other`. -/
def orDefault (value other : Value) : Value :=
  match value with
  | .undefined => other
  | v => v

def isNullish : Value → Bool
  | .undefined | .null => true
  | _ => false

end Value

inductive Thrown
  /-- From a conversion, or a property of `null`. -/
  | conversion
  | error (message : String)
  deriving DecidableEq

structure Builtins where
  numberOfText : List Char → Number
  numberOfBigint : Int → Number
  textOfNumber : Number → List Char

namespace Builtins

variable (js : Builtins)

def integerText (n : Int) : List Char :=
  if n < 0 then '-' :: Nat.toDigits 10 n.natAbs else Nat.toDigits 10 n.natAbs

/-- `String(value)`. -/
def text : Value → Except Thrown (List Char)
  | .undefined => .ok "undefined".toList
  | .null => .ok "null".toList
  | .boolean b => .ok (if b then "true" else "false").toList
  | .number n => .ok (js.textOfNumber n)
  | .bigint n => .ok (integerText n)
  | .string s => .ok s
  | .symbol description => .ok ("Symbol(".toList ++ description ++ [')'])
  | .object (some text) _ => .ok text
  | .object none _ => .error .conversion

/-- `Number(value)`. -/
def number : Value → Except Thrown Number
  | .undefined => .ok .nan
  | .null => .ok (.finite 0)
  | .boolean b => .ok (.finite (if b then 1 else 0))
  | .number n => .ok n
  | .bigint n => .ok (js.numberOfBigint n)
  | .string s => .ok (js.numberOfText s)
  | .symbol _ => .error .conversion
  | .object _ (some n) => .ok n
  | .object _ none => .error .conversion

/-- The conversions of decimal integers; every other text is taken for none. -/
def ofDecimals : Builtins where
  numberOfText s := ((decimal (trim s)).map fun n => Number.finite n).getD .nan
  numberOfBigint n := .finite n
  textOfNumber
    | .finite q => integerText q.num
    | _ => "NaN".toList

/-- `String(value || "")`. -/
def textOrEmpty (value : Value) : Except Thrown (List Char) := js.text (value.orElse (.string []))

/-- `Number(value || 0)`. -/
def numberOrZero (value : Value) : Except Thrown Number := js.number (value.orElse (.number (.finite 0)))

theorem textOrEmpty_string (s : List Char) : js.textOrEmpty (.string s) = .ok s := by
  cases s <;> rfl

end Builtins

end Js
