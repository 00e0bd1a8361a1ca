import Webshell.JsValue
import Webshell.Text

/-!
# Mobile shortcuts

The server counts code points where it checks the key of a shortcut. The browser
counts UTF-16 units where it encodes the key, and trims other white space.
-/

namespace Webshell

open GoText

/-! ## The server -/

def errBadRequest (text : String) : String := "bad font request: " ++ text

def shortcutIDPattern (id : String) : Bool :=
  1 ≤ id.length && id.length ≤ 64 && id.toList.all fun c => c.isAlphanum || c = '_' || c = '-'

structure ShortcutModifiers where
  Ctrl : Bool := false
  Alt : Bool := false
  Shift : Bool := false
  deriving DecidableEq

structure MobileShortcut where
  ID : String
  Label : String
  Action : String := ""
  InputKey : String := ""
  Text : String := ""
  InputModifiers : ShortcutModifiers := {}
  Kind : String := ""
  Icon : String := ""
  AriaLabel : String := ""
  deriving DecidableEq

def allowedMobileShortcutInputKeys : List String :=
  ["space", "arrow_up", "arrow_down", "arrow_left", "arrow_right", "tab", "enter", "escape", "home", "end"]

def allowedMobileShortcutActions : List String :=
  ["sticky_ctrl", "sticky_alt", "sticky_shift", "new_tab", "close_tab", "rename_tab", "next_tab", "previous_tab",
    "vertical_split", "horizontal_split", "tab_overview", "search_terminal", "attachment", "attachment_clipboard",
    "attachment_file", "copy", "paste", "page_up", "page_down", "swap_tab", "zoom_in", "zoom_out",
    "toggle_touch_feedback", "open_mobile_menu"]

def maxMobileShortcutTextRunes : Nat := 1024

/-- A character that is not a control character. -/
def plainCharacter (c : Char) : Bool := 0x20 ≤ c.toNat && c.toNat ≠ 0x7f

def validMobileShortcutInputKey (key : String) : Bool :=
  allowedMobileShortcutInputKeys.contains key ||
    match key.toList with
    | [r] => plainCharacter r
    | _ => false

def ShortcutModifiers.any (m : ShortcutModifiers) : Bool := m.Ctrl || m.Alt || m.Shift

def trimMobileShortcut (shortcut : MobileShortcut) : MobileShortcut where
  ID := trimSpace shortcut.ID
  Label := trimSpace shortcut.Label
  Action := trimSpace shortcut.Action
  InputKey := trimSpace shortcut.InputKey
  Text := shortcut.Text
  InputModifiers := shortcut.InputModifiers
  Kind := trimSpace shortcut.Kind
  Icon := trimSpace shortcut.Icon
  AriaLabel := trimSpace shortcut.AriaLabel

/-- The checks of what a shortcut does, in the branch of its one mode. -/
def checkMobileShortcutMode (next : MobileShortcut) : Except String MobileShortcut :=
  if next.Action ≠ "" then
    if next.InputModifiers.any then .error (errBadRequest "mobile shortcut action cannot have input modifiers")
    else if !allowedMobileShortcutActions.contains next.Action then .error (errBadRequest "invalid mobile shortcut action")
    else .ok { next with InputModifiers := {} }
  else if next.InputKey ≠ "" then
    if !validMobileShortcutInputKey next.InputKey then .error (errBadRequest "invalid mobile shortcut input key")
    else .ok next
  else if next.InputModifiers.any then .error (errBadRequest "mobile shortcut text cannot have input modifiers")
  else if next.Text.length < 1 ∨ maxMobileShortcutTextRunes < next.Text.length then
    .error (errBadRequest "mobile shortcut text must be 1-1024 characters")
  else if next.Text.toList.contains '\x00' then .error (errBadRequest "mobile shortcut text cannot contain NUL")
  else .ok { next with InputModifiers := {} }

def normalizeMobileShortcut (shortcut : MobileShortcut) : Except String MobileShortcut :=
  let next := trimMobileShortcut shortcut
  if !shortcutIDPattern next.ID then .error (errBadRequest "invalid mobile shortcut id")
  else if next.Label.length < 1 ∨ 16 < next.Label.length then
    .error (errBadRequest "mobile shortcut label must be 1-16 characters")
  else if [next.Action, next.InputKey, next.Text].countP (· ≠ "") ≠ 1 then
    .error (errBadRequest "mobile shortcut must have exactly one action, input key, or text")
  else checkMobileShortcutMode next

/-! ## The browser -/

/-- `toLowerCase` and `toUpperCase`. The one thing that is needed of them is that no printable character becomes a
control character. -/
structure CaseMapping where
  toLowerCase : List Char → List Char
  toUpperCase : List Char → List Char
  upper_plain : ∀ c d, plainCharacter c = true → toUpperCase [c] = [d] → plainCharacter d = true

def shiftedCharacterMap : List (Char × Char) :=
  [('`', '~'), ('1', '!'), ('2', '@'), ('3', '#'), ('4', '$'), ('5', '%'), ('6', '^'), ('7', '&'), ('8', '*'), ('9', '('),
    ('0', ')'), ('-', '_'), ('=', '+'), ('[', '\x7b'), (']', '\x7d'), ('\\', '|'), (';', ':'), ('\'', '"'), (',', '<'),
    ('.', '>'), ('/', '?')]

def canApplyStickyModifierInput (value : List Char) : Bool :=
  match value with
  | [c] => plainCharacter c
  | _ => false

section Encode

variable (mapping : CaseMapping)

def applyStickyShiftInput (value : List Char) : List Char :=
  let firstChar := value.take 1
  if !canApplyStickyModifierInput firstChar then []
  else
    match value.head?.bind fun c => List.lookup c shiftedCharacterMap with
    | some shifted => [shifted]
    | none =>
      let upper := mapping.toUpperCase firstChar
      if upper.length = 1 then upper else firstChar

/-- `lower >= "a" && lower <= "z"`: the character that decides it. -/
def controlLetter (lower : List Char) : Option Char :=
  match lower with
  | c :: rest => if 'a' ≤ c ∧ (c < 'z' ∨ c = 'z' ∧ rest = []) then some c else none
  | [] => none

def applyStickyCtrlInput (value : List Char) : List Char :=
  let firstChar := value.take 1
  if !canApplyStickyModifierInput firstChar then []
  else
    match controlLetter (mapping.toLowerCase firstChar) with
    | some letter => [Char.ofNat (letter.toNat - 96)]
    | none =>
      match firstChar with
      | [' '] | ['@'] => ['\x00']
      | ['['] => ['\x1b']
      | ['\\'] => ['\x1c']
      | [']'] => ['\x1d']
      | ['^'] => ['\x1e']
      | ['_'] => ['\x1f']
      | ['?'] => ['\x7f']
      | _ => ['\x1b', '['] ++ (Nat.repr ((firstChar.headD ' ').toNat)).toList ++ [';', '5', 'u']

def applyStickyAltInput (value : List Char) : List Char := if value ≠ [] then '\x1b' :: value else []

def applyStickyModifierInput (value : List Char) (m : ShortcutModifiers) : List Char :=
  if !m.any then value
  else if !canApplyStickyModifierInput value then []
  else
    let shifted := if m.Shift then applyStickyShiftInput mapping value else value
    if shifted = [] then []
    else
      let controlled := if m.Ctrl then applyStickyCtrlInput mapping shifted else shifted
      if controlled = [] then [] else if m.Alt then applyStickyAltInput controlled else controlled

def resolveTerminalModifierParameter (m : ShortcutModifiers) : Nat := 1 + m.Shift.toNat + m.Alt.toNat * 2 + m.Ctrl.toNat * 4

def buildModifiedCsiFinalSequence (finalChar : Char) (m : ShortcutModifiers) : List Char :=
  if !m.any then ['\x1b', '[', finalChar]
  else ['\x1b', '[', '1', ';'] ++ (Nat.repr (resolveTerminalModifierParameter m)).toList ++ [finalChar]

def backtabSequence : List Char := ['\x1b', '[', 'Z']

def encodeTab (m : ShortcutModifiers) : List Char :=
  if m.Shift then
    if !m.Ctrl && !m.Alt then backtabSequence else buildModifiedCsiFinalSequence 'Z' m
  else if m.Alt then applyStickyAltInput ['\t'] else ['\t']

def encodeMobileShortcutKeyInput (inputKey : List Char) (m : ShortcutModifiers) : List Char :=
  let normalizedKey := Js.trim inputKey
  match String.ofList normalizedKey with
  | "space" => applyStickyModifierInput mapping [' '] m
  | "arrow_up" => buildModifiedCsiFinalSequence 'A' m
  | "arrow_down" => buildModifiedCsiFinalSequence 'B' m
  | "arrow_right" => buildModifiedCsiFinalSequence 'C' m
  | "arrow_left" => buildModifiedCsiFinalSequence 'D' m
  | "home" => buildModifiedCsiFinalSequence 'H' m
  | "end" => buildModifiedCsiFinalSequence 'F' m
  | "tab" => encodeTab m
  | "enter" => if m.Alt then applyStickyAltInput ['\r'] else ['\r']
  | "escape" => if m.Alt then applyStickyAltInput ['\x1b'] else ['\x1b']
  | _ => if Js.length normalizedKey ≠ 1 then [] else applyStickyModifierInput mapping normalizedKey m

end Encode

/-! ## No modifier refuses a printable character -/

section

variable {mapping : CaseMapping} {c : Char}

theorem shiftedCharacterMap_plain : ∀ entry ∈ shiftedCharacterMap, plainCharacter entry.2 = true := by decide

theorem applyStickyShiftInput_plain (h : plainCharacter c = true) :
    ∃ d, applyStickyShiftInput mapping [c] = [d] ∧ plainCharacter d = true := by
  unfold applyStickyShiftInput
  simp only [List.take_succ_cons, List.take_zero, canApplyStickyModifierInput, h, Bool.not_true, Bool.false_eq_true, if_false,
    List.head?_cons, Option.bind_some]
  cases hs : List.lookup c shiftedCharacterMap with
  | some shifted =>
    obtain ⟨front, back, hsplit, -⟩ := List.lookup_eq_some_iff.mp hs
    exact ⟨shifted, rfl, shiftedCharacterMap_plain (c, shifted) (by rw [hsplit]; simp)⟩
  | none =>
    by_cases hone : (mapping.toUpperCase [c]).length = 1
    · obtain ⟨d, hd⟩ := List.length_eq_one_iff.mp hone
      refine ⟨d, ?_, mapping.upper_plain c d h hd⟩
      simp [hd]
    · exact ⟨c, by simp only [hone, if_false], h⟩

theorem applyStickyCtrlInput_plain (h : plainCharacter c = true) : applyStickyCtrlInput mapping [c] ≠ [] := by
  unfold applyStickyCtrlInput
  simp only [List.take_succ_cons, List.take_zero, canApplyStickyModifierInput, h, Bool.not_true, Bool.false_eq_true, if_false]
  split
  · exact List.cons_ne_nil _ _
  · split <;> simp

theorem applyStickyModifierInput_plain (h : plainCharacter c = true) (m : ShortcutModifiers) :
    applyStickyModifierInput mapping [c] m ≠ [] := by
  unfold applyStickyModifierInput
  by_cases hm : m.any = true
  · obtain ⟨d, hd, hplain⟩ : ∃ d, (if m.Shift = true then applyStickyShiftInput mapping [c] else [c]) = [d] ∧
        plainCharacter d = true := by
      split
      · exact applyStickyShiftInput_plain h
      · exact ⟨c, rfl, h⟩
    have hctrl : (if m.Ctrl = true then applyStickyCtrlInput mapping [d] else [d]) ≠ [] := by
      split
      · exact applyStickyCtrlInput_plain hplain
      · exact List.cons_ne_nil _ _
    simp only [hm, canApplyStickyModifierInput, h, hd, Bool.not_true, Bool.false_eq_true, if_false, List.cons_ne_nil, hctrl]
    split
    · unfold applyStickyAltInput
      rw [if_pos hctrl]
      exact List.cons_ne_nil _ _
    · exact hctrl
  · simp only [hm, Bool.not_false, if_true]
    exact List.cons_ne_nil _ _

theorem buildModifiedCsiFinalSequence_nonempty (finalChar : Char) (m : ShortcutModifiers) :
    buildModifiedCsiFinalSequence finalChar m ≠ [] := by
  unfold buildModifiedCsiFinalSequence
  split <;> simp

theorem applyStickyAltInput_nonempty {value : List Char} (h : value ≠ []) : applyStickyAltInput value ≠ [] := by
  unfold applyStickyAltInput
  rw [if_pos h]
  exact List.cons_ne_nil _ _

/-- What the keys of the server's list encode to is not empty; any other key has to be one unit long. -/
theorem encode_cases (mapping : CaseMapping) (key : List Char) (m : ShortcutModifiers) :
    (String.ofList (Js.trim key) ∈ allowedMobileShortcutInputKeys ∧ encodeMobileShortcutKeyInput mapping key m ≠ []) ∨
      (String.ofList (Js.trim key) ∉ allowedMobileShortcutInputKeys ∧ encodeMobileShortcutKeyInput mapping key m =
        if Js.length (Js.trim key) ≠ 1 then [] else applyStickyModifierInput mapping (Js.trim key) m) := by
  have halt : ∀ d : Char, (if m.Alt = true then applyStickyAltInput [d] else [d]) ≠ [] := by
    intro d
    split
    · exact applyStickyAltInput_nonempty (List.cons_ne_nil _ _)
    · exact List.cons_ne_nil _ _
  have htab : encodeTab m ≠ [] := by
    unfold encodeTab
    split
    · split
      · exact List.cons_ne_nil _ _
      · exact buildModifiedCsiFinalSequence_nonempty _ m
    · exact halt _
  unfold encodeMobileShortcutKeyInput
  simp only
  split
  next h => exact .inl ⟨by rw [h]; decide, applyStickyModifierInput_plain (by decide) m⟩
  next h => exact .inl ⟨by rw [h]; decide, buildModifiedCsiFinalSequence_nonempty _ m⟩
  next h => exact .inl ⟨by rw [h]; decide, buildModifiedCsiFinalSequence_nonempty _ m⟩
  next h => exact .inl ⟨by rw [h]; decide, buildModifiedCsiFinalSequence_nonempty _ m⟩
  next h => exact .inl ⟨by rw [h]; decide, buildModifiedCsiFinalSequence_nonempty _ m⟩
  next h => exact .inl ⟨by rw [h]; decide, buildModifiedCsiFinalSequence_nonempty _ m⟩
  next h => exact .inl ⟨by rw [h]; decide, buildModifiedCsiFinalSequence_nonempty _ m⟩
  next h => exact .inl ⟨by rw [h]; decide, htab⟩
  next h => exact .inl ⟨by rw [h]; decide, halt _⟩
  next h => exact .inl ⟨by rw [h]; decide, halt _⟩
  next =>
    refine .inr ⟨?_, rfl⟩
    simp only [allowedMobileShortcutInputKeys, List.mem_cons, List.not_mem_nil, or_false, not_or]
    exact ⟨‹_›, ‹_›, ‹_›, ‹_›, ‹_›, ‹_›, ‹_›, ‹_›, ‹_›, ‹_›⟩

end

/-! ## Stored keys -/

theorem checkMobileShortcutMode_key {next stored : MobileShortcut} (h : checkMobileShortcutMode next = .ok stored) :
    stored.InputKey = next.InputKey ∧
      (next.Action = "" → next.InputKey ≠ "" → validMobileShortcutInputKey next.InputKey = true) := by
  unfold checkMobileShortcutMode at h
  split at h
  · rename_i haction
    split at h
    · cases h
    · split at h
      · cases h
      · cases h
        exact ⟨rfl, fun hnone => absurd hnone haction⟩
  · split at h
    · split at h
      · cases h
      · rename_i hvalid
        cases h
        refine ⟨rfl, fun _ _ => ?_⟩
        simpa using hvalid
    · rename_i hkey
      split at h
      · cases h
      · split at h
        · cases h
        · split at h
          · cases h
          · cases h
            exact ⟨rfl, fun _ hne => absurd hne hkey⟩

/-- The key that is stored has been checked, since a shortcut with a key has no action. -/
theorem normalizeMobileShortcut_key {shortcut stored : MobileShortcut} (h : normalizeMobileShortcut shortcut = .ok stored)
    (hk : stored.InputKey ≠ "") :
    trimSpace stored.InputKey = stored.InputKey ∧ validMobileShortcutInputKey stored.InputKey = true := by
  unfold normalizeMobileShortcut at h
  simp only at h
  split at h
  · cases h
  · split at h
    · cases h
    · split at h
      · cases h
      · rename_i hmodes
        obtain ⟨hkey, hvalid⟩ := checkMobileShortcutMode_key h
        rw [hkey] at hk ⊢
        refine ⟨trimSpace_idem _, hvalid ?_ hk⟩
        by_contra haction
        simp [haction, hk] at hmodes

theorem space_cases (c : Char) (h : GoText.isSpace c = false) : Js.isSpace c = true ↔ c.toNat = 0xfeff := by
  unfold GoText.isSpace at h
  unfold Js.isSpace
  simp only [Bool.or_eq_false_iff, List.contains_eq_mem, decide_eq_false_iff_not, List.mem_cons, List.not_mem_nil, or_false,
    not_or, Bool.and_eq_false_iff] at h
  simp only [Bool.or_eq_true, List.contains_eq_mem, decide_eq_true_eq, List.mem_cons, List.not_mem_nil, or_false,
    Bool.and_eq_true]
  omega

theorem trim_character (c : Char) (h : GoText.isSpace c = false) : Js.trim [c] = if c.toNat = 0xfeff then [] else [c] := by
  unfold Js.trim
  by_cases hc : c.toNat = 0xfeff
  · have hs := (space_cases c h).mpr hc
    simp [hs, hc]
  · have hs : Js.isSpace c = false := by
      rw [← Bool.not_eq_true, space_cases c h]
      exact hc
    rw [if_neg hc, List.dropWhile_cons_of_neg (by simp [hs])]
    simp [List.rdropWhile, hs]

theorem named_trim : ∀ key ∈ allowedMobileShortcutInputKeys, Js.trim key.toList = key.toList ∧ key.toList.length ≠ 1 := by
  decide

theorem encode_character (mapping : CaseMapping) (c : Char) (hs : GoText.isSpace c = false) (hc : plainCharacter c = true) (m : ShortcutModifiers) :
    encodeMobileShortcutKeyInput mapping [c] m ≠ [] ↔ c.toNat < 0x10000 ∧ c.toNat ≠ 0xfeff := by
  have htrim := trim_character c hs
  rcases encode_cases mapping [c] m with ⟨hmem, -⟩ | ⟨-, he⟩
  · exfalso
    obtain ⟨-, hlength⟩ := named_trim _ hmem
    rw [String.toList_ofList, htrim] at hlength
    split at hlength
    · rename_i hbom
      rw [htrim, if_pos hbom] at hmem
      exact absurd hmem (by decide)
    · exact hlength rfl
  · rw [he, htrim]
    by_cases hbom : c.toNat = 0xfeff
    · simp [hbom, Js.length]
    · rw [if_neg hbom]
      by_cases hunit : c.toNat < 0x10000
      · have hone : Js.length [c] = 1 := by simp [Js.length, hunit]
        rw [if_neg (not_not.mpr hone)]
        exact ⟨fun _ => ⟨hunit, hbom⟩, fun _ => applyStickyModifierInput_plain hc m⟩
      · have htwo : Js.length [c] ≠ 1 := by simp [Js.length, hunit]
        rw [if_pos htwo]
        exact ⟨fun hn => absurd rfl hn, fun hcontra => absurd hcontra.1 hunit⟩

/-- The browser encodes a key the server has stored exactly if it is not a character that takes two units, or the one
the browser alone takes for white space. -/
theorem mobile_shortcut_keys (mapping : CaseMapping) {shortcut stored : MobileShortcut} (h : normalizeMobileShortcut shortcut = .ok stored) (hk : stored.InputKey ≠ "") :
    encodeMobileShortcutKeyInput mapping stored.InputKey.toList stored.InputModifiers ≠ [] ↔
      ∀ c, stored.InputKey.toList = [c] → c.toNat < 0x10000 ∧ c.toNat ≠ 0xfeff := by
  obtain ⟨htrimmed, hvalid⟩ := normalizeMobileShortcut_key h hk
  unfold validMobileShortcutInputKey at hvalid
  rw [Bool.or_eq_true] at hvalid
  rcases hvalid with hnamed | hone
  · rw [List.contains_iff_mem] at hnamed
    obtain ⟨htrim, hlength⟩ := named_trim _ hnamed
    constructor
    · intro _ c hc
      rw [hc] at hlength
      exact absurd rfl hlength
    · intro _
      rcases encode_cases mapping stored.InputKey.toList stored.InputModifiers with ⟨-, he⟩ | ⟨hmem, -⟩
      · exact he
      · rw [htrim, String.ofList_toList] at hmem
        exact absurd hnamed hmem
  · split at hone
    · rename_i c hc
      have hspace := (trimSpace_ends stored.InputKey).1 c (by rw [htrimmed, hc]; rfl)
      rw [hc, encode_character mapping c hspace hone]
      constructor
      · intro hchar d hd
        cases hd
        exact hchar
      · exact fun hall => hall c rfl
    · cases hone

theorem toUpper_cases (c : Char) : c.toUpper = c ∨ 97 ≤ c.toNat ∧ c.toNat ≤ 122 ∧ c.toUpper.toNat = c.toNat - 32 := by
  unfold Char.toUpper
  split
  · rename_i h
    refine .inr ?_
    simp only [Char.toNat, UInt32.le_iff_toNat_le, UInt32.toNat_add] at h ⊢
    simp at h ⊢
    omega
  · exact .inl rfl

/-- Cases of ASCII letters alone. -/
def asciiCase : CaseMapping where
  toLowerCase s := s.map Char.toLower
  toUpperCase s := s.map Char.toUpper
  upper_plain c d hc hd := by
    obtain rfl : c.toUpper = d := by simpa using hd
    rcases toUpper_cases c with he | ⟨hlow, hhigh, he⟩
    · rwa [he]
    · simp only [plainCharacter, he, Bool.and_eq_true, decide_eq_true_eq]
      omega

def controlC : MobileShortcut := { ID := "c", Label := "C", InputKey := "c", InputModifiers := { Ctrl := true } }

theorem mobile_shortcut_keys_control :
    encodeMobileShortcutKeyInput asciiCase controlC.InputKey.toList controlC.InputModifiers ≠ [] := by
  have hstored : normalizeMobileShortcut controlC = .ok controlC := by decide +kernel
  have hkey : controlC.InputKey.toList = ['c'] := by decide
  refine (mobile_shortcut_keys asciiCase hstored (by decide)).mpr fun c hc => ?_
  rw [hkey] at hc
  cases hc
  decide

/-- A key of two units. -/
def smile : MobileShortcut := { ID := "smile", Label := "Smile", InputKey := "😀" }

theorem mobile_shortcut_key_lost : ¬∀ (mapping : CaseMapping) (shortcut stored : MobileShortcut),
    normalizeMobileShortcut shortcut = .ok stored → stored.InputKey ≠ "" →
      encodeMobileShortcutKeyInput mapping stored.InputKey.toList stored.InputModifiers ≠ [] := by
  intro h
  have hstored : normalizeMobileShortcut smile = .ok smile := by decide +kernel
  have hlost : encodeMobileShortcutKeyInput asciiCase smile.InputKey.toList smile.InputModifiers = [] := by decide +kernel
  exact h asciiCase smile smile hstored (by decide) hlost

end Webshell
