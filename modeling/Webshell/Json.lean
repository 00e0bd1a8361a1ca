import Mathlib.Data.List.Basic
import Mathlib.Data.Nat.Digits.Defs

/-!
# JSON texts

Values, the compact text an encoder writes for them, and a parser. The parser
reads every text of the encoder back. Numbers are kept as literals.
-/

inductive Json
  | null
  | bool (b : Bool)
  | num (literal : List Char)
  | str (s : List Char)
  | arr (items : List Json)
  | obj (fields : List (List Char × Json))

namespace Json

/-! ## Writing -/

def hexDigit (n : Nat) : Char := "0123456789abcdef".toList.getD n '0'

/-- `\u` and four hex digits. -/
def escapeUnicode (n : Nat) : List Char :=
  ['\\', 'u', hexDigit (n / 4096 % 16), hexDigit (n / 256 % 16), hexDigit (n / 16 % 16), hexDigit (n % 16)]

/-- Characters that stand for themselves neither in JSON nor, when it is embedded, in HTML. -/
def escapeChar (c : Char) : List Char :=
  if c = '"' ∨ c = '\\' then ['\\', c]
  else if c = '\n' then ['\\', 'n']
  else if c = '\r' then ['\\', 'r']
  else if c = '\t' then ['\\', 't']
  else if c = '\x08' then ['\\', 'b']
  else if c = '\x0c' then ['\\', 'f']
  else if c.toNat < 0x20 ∨ c = '<' ∨ c = '>' ∨ c = '&' ∨ c.toNat = 0x2028 ∨ c.toNat = 0x2029 then escapeUnicode c.toNat
  else [c]

def quote (s : List Char) : List Char := '"' :: (s.flatMap escapeChar ++ ['"'])

mutual
def marshal : Json → List Char
  | .null => "null".toList
  | .bool true => "true".toList
  | .bool false => "false".toList
  | .num literal => literal
  | .str s => quote s
  | .arr items => '[' :: (marshalItems items ++ [']'])
  | .obj fields => '{' :: (marshalFields fields ++ ['}'])
def marshalItems : List Json → List Char
  | [] => []
  | [item] => marshal item
  | item :: items => marshal item ++ ',' :: marshalItems items
def marshalFields : List (List Char × Json) → List Char
  | [] => []
  | [(key, value)] => quote key ++ ':' :: marshal value
  | (key, value) :: fields => quote key ++ ':' :: (marshal value ++ ',' :: marshalFields fields)
end

/-! ## Reading -/

def isSpace (c : Char) : Bool := c = ' ' || c = '\n' || c = '\r' || c = '\t'

def skipSpace (cs : List Char) : List Char := cs.dropWhile isSpace

def hexValue (c : Char) : Option Nat :=
  if '0' ≤ c ∧ c ≤ '9' then some (c.toNat - '0'.toNat)
  else if 'a' ≤ c ∧ c ≤ 'f' then some (c.toNat - 'a'.toNat + 10)
  else if 'A' ≤ c ∧ c ≤ 'F' then some (c.toNat - 'A'.toNat + 10)
  else none

def hexQuad (a b c d : Char) : Option Nat :=
  match hexValue a, hexValue b, hexValue c, hexValue d with
  | some a, some b, some c, some d => some (4096 * a + 256 * b + 16 * c + d)
  | _, _, _, _ => none

/-- The character of an escape without digits. -/
def unescape (c : Char) : Option Char :=
  if c = '"' ∨ c = '\\' ∨ c = '/' then some c
  else if c = 'n' then some '\n'
  else if c = 'r' then some '\r'
  else if c = 't' then some '\t'
  else if c = 'b' then some '\x08'
  else if c = 'f' then some '\x0c'
  else none

/-- The string up to its closing quote, and what follows it. A surrogate without its other half
is no character, and refused. -/
def parseString : List Char → Option (List Char × List Char)
  | [] => none
  | '"' :: rest => some ([], rest)
  | '\\' :: 'u' :: a :: b :: c :: d :: rest =>
    match hexQuad a b c d with
    | none => none
    | some n =>
      if n < 0xd800 ∨ 0xdfff < n then (parseString rest).map fun p => (Char.ofNat n :: p.1, p.2)
      else
        match rest with
        | '\\' :: 'u' :: a :: b :: c :: d :: rest =>
          match hexQuad a b c d with
          | none => none
          | some m =>
            if n < 0xdc00 ∧ 0xdc00 ≤ m ∧ m ≤ 0xdfff then
              (parseString rest).map fun p => (Char.ofNat (0x10000 + (n - 0xd800) * 0x400 + (m - 0xdc00)) :: p.1, p.2)
            else none
        | _ => none
  | '\\' :: e :: rest =>
    match unescape e with
    | none => none
    | some c => (parseString rest).map fun p => (c :: p.1, p.2)
  | c :: rest => if c.toNat < 0x20 then none else (parseString rest).map fun p => (c :: p.1, p.2)

def isNumberChar (c : Char) : Bool := c.isDigit || c = '-' || c = '+' || c = '.' || c = 'e' || c = 'E'

/-- What is left behind digits, of which there has to be one. -/
def afterDigits (cs : List Char) : Option (List Char) :=
  match cs with
  | c :: _ => if c.isDigit then some (cs.dropWhile Char.isDigit) else none
  | [] => none

/-- The grammar of number literals. -/
def isNumber (cs : List Char) : Bool :=
  let unsigned := match cs with
    | '-' :: rest => rest
    | _ => cs
  let int := match unsigned with
    | '0' :: rest => some rest
    | _ => afterDigits unsigned
  let frac := int.bind fun rest => match rest with
    | '.' :: rest => afterDigits rest
    | _ => some rest
  let exp := frac.bind fun rest => match rest with
    | 'e' :: '+' :: rest | 'e' :: '-' :: rest | 'E' :: '+' :: rest | 'E' :: '-' :: rest => afterDigits rest
    | 'e' :: rest | 'E' :: rest => afterDigits rest
    | _ => some rest
  exp = some []

/-- The key of a field and its colon. -/
def parseKey (cs : List Char) : Option (List Char × List Char) :=
  match skipSpace cs with
  | '"' :: rest =>
    match parseString rest with
    | none => none
    | some (key, rest) =>
      match skipSpace rest with
      | ':' :: rest => some (key, rest)
      | _ => none
  | _ => none

/-- A value that starts with `c`, and what follows it: the rest of a word, or a number. -/
def parseAtom (c : Char) (rest : List Char) : Option (Json × List Char) :=
  if c = 'n' then if "ull".toList.isPrefixOf rest then some (.null, rest.drop 3) else none
  else if c = 't' then if "rue".toList.isPrefixOf rest then some (.bool true, rest.drop 3) else none
  else if c = 'f' then if "alse".toList.isPrefixOf rest then some (.bool false, rest.drop 4) else none
  else
    let literal := (c :: rest).takeWhile isNumberChar
    if isNumber literal then some (.num literal, (c :: rest).dropWhile isNumberChar) else none

mutual
/-- A value behind white space, and what follows it. -/
def parseValue : Nat → List Char → Option (Json × List Char)
  | 0, _ => none
  | fuel + 1, cs =>
    match skipSpace cs with
    | [] => none
    | c :: rest =>
      if c = '"' then (parseString rest).map fun p => (.str p.1, p.2)
      else if c = '[' then
        if (skipSpace rest).head? = some ']' then some (.arr [], (skipSpace rest).tail)
        else (parseItems fuel rest).map fun p => (.arr p.1, p.2)
      else if c = '{' then
        if (skipSpace rest).head? = some '}' then some (.obj [], (skipSpace rest).tail)
        else (parseFields fuel rest).map fun p => (.obj p.1, p.2)
      else parseAtom c rest
/-- The items of an array and its closing bracket. -/
def parseItems : Nat → List Char → Option (List Json × List Char)
  | 0, _ => none
  | fuel + 1, cs =>
    match parseValue fuel cs with
    | none => none
    | some (item, rest) =>
      match skipSpace rest with
      | ',' :: rest => (parseItems fuel rest).map fun p => (item :: p.1, p.2)
      | ']' :: rest => some ([item], rest)
      | _ => none
/-- The fields of an object and its closing brace. -/
def parseFields : Nat → List Char → Option (List (List Char × Json) × List Char)
  | 0, _ => none
  | fuel + 1, cs =>
    match parseKey cs with
    | none => none
    | some (key, rest) =>
      match parseValue fuel rest with
      | none => none
      | some (value, rest) =>
        match skipSpace rest with
        | ',' :: rest => (parseFields fuel rest).map fun p => ((key, value) :: p.1, p.2)
        | '}' :: rest => some ([(key, value)], rest)
        | _ => none
end

/-- A text that is one value, with white space around it at most. -/
def parse (cs : List Char) : Option Json :=
  match parseValue (cs.length + 1) cs with
  | some (value, rest) => if skipSpace rest = [] then some value else none
  | none => none

/-- The value of a field; of two with one key the last counts. -/
def get (key : String) : Json → Option Json
  | .obj fields => fields.reverse.lookup key.toList
  | _ => none

/-! ## What is written is read back -/

theorem hexValue_hexDigit : ∀ n, n < 16 → hexValue (hexDigit n) = some n := by decide

theorem hexQuad_digits {n : Nat} (h : n < 65536) :
    hexQuad (hexDigit (n / 4096 % 16)) (hexDigit (n / 256 % 16)) (hexDigit (n / 16 % 16)) (hexDigit (n % 16)) = some n := by
  unfold hexQuad
  rw [hexValue_hexDigit _ (Nat.mod_lt _ (by decide)), hexValue_hexDigit _ (Nat.mod_lt _ (by decide)),
    hexValue_hexDigit _ (Nat.mod_lt _ (by decide)), hexValue_hexDigit _ (Nat.mod_lt _ (by decide))]
  simp only [Option.some.injEq]
  omega

theorem parseString_unicode {c : Char} (h : c.toNat < 0xd800) (rest : List Char) :
    parseString (escapeUnicode c.toNat ++ rest) = (parseString rest).map fun p => (c :: p.1, p.2) := by
  unfold escapeUnicode
  simp only [List.cons_append, List.nil_append]
  rw [parseString, hexQuad_digits (by omega)]
  simp only [h, true_or, if_true, Char.ofNat_toNat]

theorem parseString_escapeChar (c : Char) (rest : List Char) :
    parseString (escapeChar c ++ rest) = (parseString rest).map fun p => (c :: p.1, p.2) := by
  unfold escapeChar
  split
  · rename_i h
    rcases h with rfl | rfl <;> simp [parseString, unescape]
  split
  · subst_vars; simp [parseString, unescape]
  split
  · subst_vars; simp [parseString, unescape]
  split
  · subst_vars; simp [parseString, unescape]
  split
  · subst_vars; simp [parseString, unescape]
  split
  · subst_vars; simp [parseString, unescape]
  split
  · rename_i h
    apply parseString_unicode
    rcases h with h | rfl | rfl | rfl | h | h
    · omega
    · decide
    · decide
    · decide
    · omega
    · omega
  · rename_i h1 h2 h3 h4 h5 h6 h7
    simp only [not_or] at h1 h7
    simp only [List.cons_append, List.nil_append]
    rw [parseString.eq_def]
    split <;> simp_all

theorem parseString_quote (s rest : List Char) :
    parseString (s.flatMap escapeChar ++ '"' :: rest) = some (s, rest) := by
  induction s with
  | nil => simp [parseString]
  | cons c s ih => rw [List.flatMap_cons, List.append_assoc, parseString_escapeChar, ih]; rfl

mutual
/-- Every number in the value is one. -/
def Numeric : Json → Prop
  | .num literal => isNumber literal = true ∧ ∀ c ∈ literal, isNumberChar c = true
  | .arr items => NumericItems items
  | .obj fields => NumericFields fields
  | _ => True
def NumericItems : List Json → Prop
  | [] => True
  | item :: items => item.Numeric ∧ NumericItems items
def NumericFields : List (List Char × Json) → Prop
  | [] => True
  | (_, value) :: fields => value.Numeric ∧ NumericFields fields
end

/-- No number goes on into `rest`. -/
def Stops (rest : List Char) : Prop := ∀ c, rest.head? = some c → isNumberChar c = false

theorem stops_cons {c : Char} (h : isNumberChar c = false) (rest : List Char) : Stops (c :: rest) := by
  intro d hd
  cases hd
  exact h

theorem skipSpace_cons {c : Char} (h : isSpace c = false) (rest : List Char) : skipSpace (c :: rest) = c :: rest := by
  unfold skipSpace
  rw [List.dropWhile_cons_of_neg (by simp [h])]

/-- The first character of a text decides what it is a text of. -/
theorem marshal_head (v : Json) (hv : v.Numeric) : ∃ c cs, v.marshal = c :: cs ∧ isSpace c = false ∧ c ≠ ']' ∧ c ≠ '}' := by
  cases v with
  | null => exact ⟨'n', _, rfl, by decide, by decide, by decide⟩
  | bool b => cases b <;> exact ⟨_, _, rfl, by decide, by decide, by decide⟩
  | num literal =>
    unfold Numeric at hv
    cases literal with
    | nil => exact absurd hv.1 (by decide)
    | cons c cs =>
      have hc := hv.2 c (List.mem_cons_self ..)
      refine ⟨c, cs, by simp only [marshal], ?_, ?_, ?_⟩
      · rw [Bool.eq_false_iff]
        intro hs
        simp only [isSpace, Bool.or_eq_true, decide_eq_true_eq] at hs
        rcases hs with ((rfl | rfl) | rfl) | rfl <;> exact absurd hc (by decide)
      · rintro rfl; exact absurd hc (by decide)
      · rintro rfl; exact absurd hc (by decide)
  | str s => exact ⟨'"', _, by simp only [marshal, quote]; rfl, by decide, by decide, by decide⟩
  | arr items => exact ⟨'[', _, by simp only [marshal]; rfl, by decide, by decide, by decide⟩
  | obj fields => exact ⟨'{', _, by simp only [marshal]; rfl, by decide, by decide, by decide⟩

theorem takeWhile_literal {literal rest : List Char} (h : ∀ c ∈ literal, isNumberChar c = true) (hr : Stops rest) :
    (literal ++ rest).takeWhile isNumberChar = literal ∧ (literal ++ rest).dropWhile isNumberChar = rest := by
  rw [List.takeWhile_append_of_pos h, List.dropWhile_append_of_pos h]
  cases rest with
  | nil => simp
  | cons c rest =>
    have hc : ¬ isNumberChar c = true := by simp [hr c rfl]
    rw [List.takeWhile_cons_of_neg hc, List.dropWhile_cons_of_neg hc]
    simp

theorem parseAtom_literal {literal rest : List Char} {fuel : Nat} (hv : (num literal).Numeric) (hr : Stops rest) :
    parseValue (fuel + 1) (literal ++ rest) = some (.num literal, rest) := by
  obtain ⟨c, cs, hm, hs, -, -⟩ := marshal_head _ hv
  simp only [marshal] at hm
  subst hm
  unfold Numeric at hv
  have hc := hv.2 c (List.mem_cons_self ..)
  have ne : ∀ d, isNumberChar d = false → c ≠ d := by
    rintro d hd rfl
    rw [hc] at hd
    cases hd
  obtain ⟨ht, hd⟩ := takeWhile_literal hv.2 hr
  rw [List.cons_append] at ht hd ⊢
  rw [parseValue, skipSpace_cons hs]
  simp only [ne '"' (by decide), ne '[' (by decide), ne '{' (by decide), if_false]
  unfold parseAtom
  simp only [ne 'n' (by decide), ne 't' (by decide), ne 'f' (by decide), if_false, ht, hd, hv.1, if_true]

theorem parseKey_quote (key rest : List Char) : parseKey (quote key ++ ':' :: rest) = some (key, rest) := by
  have hs : skipSpace (quote key ++ ':' :: rest) = '"' :: (key.flatMap escapeChar ++ '"' :: ':' :: rest) := by
    simp only [quote, List.cons_append, List.append_assoc, List.nil_append]
    exact skipSpace_cons (by decide) _
  unfold parseKey
  rw [hs]
  simp only [parseString_quote, skipSpace_cons (c := ':') (by decide)]

mutual
theorem parseValue_marshal : ∀ (v : Json) (fuel : Nat) (rest : List Char), v.Numeric → v.marshal.length ≤ fuel →
    Stops rest → parseValue fuel (v.marshal ++ rest) = some (v, rest)
  | v, 0, rest, hv, hf, _ => by
    obtain ⟨c, cs, hm, -, -, -⟩ := marshal_head v hv
    rw [hm] at hf
    simp at hf
  | .null, fuel + 1, rest, _, _, _ => by
    simp [marshal, parseValue, skipSpace_cons, parseAtom, isSpace]
  | .bool true, fuel + 1, rest, _, _, _ => by
    simp [marshal, parseValue, skipSpace_cons, parseAtom, isSpace]
  | .bool false, fuel + 1, rest, _, _, _ => by
    simp [marshal, parseValue, skipSpace_cons, parseAtom, isSpace]
  | .num literal, fuel + 1, rest, hv, _, hr => by
    simp only [marshal]
    exact parseAtom_literal hv hr
  | .str s, fuel + 1, rest, _, _, _ => by
    simp [marshal, parseValue, skipSpace_cons, isSpace, quote, parseString_quote]
  | .arr [], fuel + 1, rest, _, _, _ => by
    simp [marshal, marshalItems, parseValue, skipSpace_cons, isSpace]
  | .arr (item :: items), fuel + 1, rest, hv, hf, _ => by
    simp only [Numeric] at hv
    simp only [marshal, List.length_cons, List.length_append, List.length_nil] at hf
    have hp := parseItems_marshal (item :: items) fuel rest (by simp) hv (by omega)
    have hne : (skipSpace (marshalItems (item :: items) ++ ']' :: rest)).head? ≠ some ']' := by
      obtain ⟨c, cs, hm, hs, hb, -⟩ := marshal_head item (by simp only [NumericItems] at hv; exact hv.1)
      cases items <;> simp [marshalItems, hm, skipSpace_cons hs, hb]
    simp [marshal, parseValue, skipSpace_cons, isSpace, hne, hp]
  | .obj [], fuel + 1, rest, _, _, _ => by
    simp [marshal, marshalFields, parseValue, skipSpace_cons, isSpace]
  | .obj (field :: fields), fuel + 1, rest, hv, hf, _ => by
    simp only [Numeric] at hv
    simp only [marshal, List.length_cons, List.length_append, List.length_nil] at hf
    have hp := parseFields_marshal (field :: fields) fuel rest (by simp) hv (by omega)
    have hne : (skipSpace (marshalFields (field :: fields) ++ '}' :: rest)).head? ≠ some '}' := by
      obtain ⟨key, value⟩ := field
      cases fields <;> simp [marshalFields, quote, skipSpace_cons (c := '"') (by decide)]
    simp [marshal, parseValue, skipSpace_cons, isSpace, hne, hp]
theorem parseItems_marshal : ∀ (items : List Json) (fuel : Nat) (rest : List Char), items ≠ [] → NumericItems items →
    (marshalItems items).length + 1 ≤ fuel →
    parseItems fuel (marshalItems items ++ ']' :: rest) = some (items, rest)
  | [], _, _, hne, _, _ => absurd rfl hne
  | _, 0, _, _, _, hf => by omega
  | [item], fuel + 1, rest, _, hv, hf => by
    simp only [NumericItems] at hv
    simp only [marshalItems] at hf ⊢
    rw [parseItems, parseValue_marshal item fuel _ hv.1 (by omega) (stops_cons (by decide) _)]
    simp only [skipSpace_cons (c := ']') (by decide)]
  | item :: next :: items, fuel + 1, rest, _, hv, hf => by
    simp only [NumericItems] at hv
    simp only [marshalItems, List.length_append, List.length_cons] at hf
    have hp := parseItems_marshal (next :: items) fuel rest (by simp) (by simp only [NumericItems]; exact hv.2) (by omega)
    simp only [marshalItems, List.append_assoc, List.cons_append]
    rw [parseItems, parseValue_marshal item fuel _ hv.1 (by omega) (stops_cons (by decide) _)]
    simp only [skipSpace_cons (c := ',') (by decide), hp, Option.map_some]
theorem parseFields_marshal : ∀ (fields : List (List Char × Json)) (fuel : Nat) (rest : List Char), fields ≠ [] →
    NumericFields fields → (marshalFields fields).length + 1 ≤ fuel →
    parseFields fuel (marshalFields fields ++ '}' :: rest) = some (fields, rest)
  | [], _, _, hne, _, _ => absurd rfl hne
  | _, 0, _, _, _, hf => by omega
  | [(key, value)], fuel + 1, rest, _, hv, hf => by
    simp only [NumericFields] at hv
    simp only [marshalFields, List.length_append, List.length_cons] at hf
    simp only [marshalFields, List.append_assoc, List.cons_append]
    rw [parseFields, parseKey_quote]
    simp only
    rw [parseValue_marshal value fuel _ hv.1 (by omega) (stops_cons (by decide) _)]
    simp only [skipSpace_cons (c := '}') (by decide)]
  | (key, value) :: next :: fields, fuel + 1, rest, _, hv, hf => by
    simp only [NumericFields] at hv
    simp only [marshalFields, List.length_append, List.length_cons] at hf
    have hp := parseFields_marshal (next :: fields) fuel rest (by simp) hv.2 (by omega)
    simp only [marshalFields, List.append_assoc, List.cons_append]
    rw [parseFields, parseKey_quote]
    simp only
    rw [parseValue_marshal value fuel _ hv.1 (by omega) (stops_cons (by decide) _)]
    simp only [skipSpace_cons (c := ',') (by decide), hp, Option.map_some]
end

theorem parse_marshal {v : Json} (hv : v.Numeric) : parse v.marshal = some v := by
  have h := parseValue_marshal v (v.marshal.length + 1) [] hv (by omega) (by simp [Stops])
  rw [List.append_nil] at h
  unfold parse
  rw [h]
  rfl

end Json
