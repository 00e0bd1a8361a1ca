import Mathlib
import Webshell.DesktopShortcuts

/-!
# Shortcuts that are one to server and browser

From the state the server parsed its normal form can be read back, and so can the
state the browser parses from it. What is left is when the browser's names of two
keys are equal.
-/

namespace Webshell

open GoText

/-! ## Characters of ASCII texts -/

def Ascii (s : List Char) : Prop := ∀ c ∈ s, c.toNat < 128

instance (s : List Char) : Decidable (Ascii s) := List.decidableBAll _ s

theorem toLower_cases (c : Char) : c.toLower = c ∨ 65 ≤ c.toNat ∧ c.toNat ≤ 90 ∧ c.toLower.toNat = c.toNat + 32 := by
  unfold Char.toLower
  split
  · rename_i h
    refine .inr ?_
    simp only [Char.toNat, UInt32.le_iff_toNat_le, UInt32.toNat_add] at h ⊢
    simp at h ⊢
    omega
  · exact .inl rfl

theorem toLower_toLower (c : Char) : c.toLower.toLower = c.toLower := by
  rcases toLower_cases c with h | ⟨hlow, hhigh, h⟩
  · rw [h, h]
  · rcases toLower_cases c.toLower with he | ⟨hlow', hhigh', -⟩
    · exact he
    · omega

theorem toLower_ascii {c : Char} (h : c.toNat < 128) : c.toLower.toNat < 128 := by
  rcases toLower_cases c with he | ⟨hlow, hhigh, he⟩
  · rwa [he]
  · omega

theorem space_ascii {c : Char} (h : c.toNat < 128) : GoText.isSpace c = Js.isSpace c := by
  unfold GoText.isSpace Js.isSpace
  rw [Bool.eq_iff_iff]
  simp only [List.contains_eq_mem, List.mem_cons, List.not_mem_nil, or_false, Bool.or_eq_true, decide_eq_true_eq,
    Bool.and_eq_true]
  omega

theorem isSpace_small {c : Char} (h : Js.isSpace c = true) (ha : c.toNat < 128) : c.toNat ≤ 32 := by
  unfold Js.isSpace at h
  simp only [List.contains_eq_mem, List.mem_cons, List.not_mem_nil, or_false, Bool.or_eq_true, decide_eq_true_eq,
    Bool.and_eq_true] at h
  omega

theorem toLower_not_space {c : Char} (ha : c.toNat < 128) (h : Js.isSpace c = false) : Js.isSpace c.toLower = false := by
  rcases toLower_cases c with he | ⟨hlow, -, he⟩
  · rwa [he]
  · rw [← Bool.not_eq_true]
    intro hspace
    have := isSpace_small hspace (toLower_ascii ha)
    omega

theorem toLower_eq_plus {c : Char} (h : c.toLower = '+') : c = '+' := by
  rcases toLower_cases c with he | ⟨hlow, hhigh, he⟩
  · rwa [he] at h
  · rw [h] at he
    simp at he
    omega

/-! ## The key the server keeps -/

def NoSpaceAtEnds (s : List Char) : Prop :=
  (∀ c, s.head? = some c → Js.isSpace c = false) ∧ ∀ c, s.getLast? = some c → Js.isSpace c = false

def modifierNames : List String := ["ctrl", "shift", "alt", "super"]

/-- The names the server gives to keys that have others. -/
def renamedKeys : List String := ["page_up", "page_down", "enter", "escape", "space"]

/-- What is known of a token of the server that is not empty. -/
structure ServerToken (k : List Char) : Prop where
  ascii : Ascii k
  lower : k.map Char.toLower = k
  plus : '+' ∉ k
  ends : NoSpaceAtEnds k
  known : desktopShortcutName k = none ∨ k ∈ (renamedKeys ++ modifierNames).map String.toList

theorem noSpaceAtEnds_map {f : Char → Char} {s : List Char} (hf : ∀ c ∈ s, Js.isSpace c = false → Js.isSpace (f c) = false)
    (h : NoSpaceAtEnds s) : NoSpaceAtEnds (s.map f) := by
  constructor
  · intro c hc
    rw [List.head?_map, Option.map_eq_some_iff] at hc
    obtain ⟨d, hd, rfl⟩ := hc
    exact hf d (List.mem_of_head? hd) (h.1 d hd)
  · intro c hc
    rw [List.getLast?_map, Option.map_eq_some_iff] at hc
    obtain ⟨d, hd, rfl⟩ := hc
    exact hf d (List.mem_of_getLast? hd) (h.2 d hd)

theorem mem_trimSpace {s : List Char} {c : Char} (h : c ∈ (trimSpace (String.ofList s)).toList) : c ∈ s := by
  unfold trimSpace at h
  rw [String.toList_ofList, String.toList_ofList] at h
  exact (List.dropWhile_suffix _).subset ((List.rdropWhile_prefix _ _).subset h)

theorem trimSpace_noSpace {s : List Char} (ha : Ascii s) : NoSpaceAtEnds (trimSpace (String.ofList s)).toList := by
  obtain ⟨hhead, hlast⟩ := trimSpace_ends (String.ofList s)
  constructor
  · intro c hc
    rw [← space_ascii (ha c (mem_trimSpace (List.mem_of_head? hc)))]
    exact hhead c hc
  · intro c hc
    rw [← space_ascii (ha c (mem_trimSpace (List.mem_of_getLast? hc)))]
    exact hlast c hc

theorem named_server : ∀ row ∈ desktopShortcutNames, row.2 ∈ renamedKeys ++ modifierNames := by decide

theorem serverToken_named : ∀ name ∈ renamedKeys ++ modifierNames, (name.toList.all fun c => c.toNat < 128) = true ∧
    name.toList.map Char.toLower = name.toList ∧ '+' ∉ name.toList ∧ name.toList ≠ [] ∧
    (name.toList.all fun c => !Js.isSpace c) = true := by
  decide

theorem desktopShortcutName_some {lower name : List Char} (h : desktopShortcutName lower = some name) :
    ∃ n ∈ renamedKeys ++ modifierNames, name = n.toList := by
  unfold desktopShortcutName at h
  rw [Option.map_eq_some_iff] at h
  obtain ⟨row, hrow, rfl⟩ := h
  exact ⟨row.2, named_server row (List.mem_of_find?_eq_some hrow), rfl⟩

theorem ServerToken.of_name {name : String} (h : name ∈ renamedKeys ++ modifierNames) : ServerToken name.toList := by
  obtain ⟨hascii, hlower, hplus, -, hspace⟩ := serverToken_named name h
  rw [List.all_eq_true] at hascii hspace
  exact ⟨fun c hc => by simpa using hascii c hc, hlower, hplus,
    ⟨fun c hc => by simpa using hspace c (List.mem_of_head? hc), fun c hc => by simpa using hspace c (List.mem_of_getLast? hc)⟩,
    .inr (List.mem_map_of_mem h)⟩

/-- No name of a key that has another contains an underscore. -/
theorem desktopShortcutName_underscore {s : List Char} (h : '_' ∈ s) : desktopShortcutName s = none := by
  have hrows : ∀ row ∈ desktopShortcutNames, ∀ name ∈ row.1, '_' ∉ name.toList := by decide
  unfold desktopShortcutName
  rw [Option.map_eq_none_iff, List.find?_eq_none]
  intro row hrow hmem
  simp only [List.contains_iff_mem, List.mem_map] at hmem
  obtain ⟨name, hname, rfl⟩ := hmem
  exact hrows row hrow name hname h

theorem replaceBlanks_cases (s : List Char) : replaceBlanks s = s ∨ '_' ∈ replaceBlanks s := by
  by_cases h : ' ' ∈ s
  · exact .inr (List.mem_map.mpr ⟨' ', h, rfl⟩)
  · refine .inl ?_
    unfold replaceBlanks
    rw [List.map_congr_left (g := id), List.map_id]
    intro c hc
    rw [if_neg]
    · rfl
    · rintro rfl
      exact h hc

theorem normalizeDesktopShortcutToken_server {token : List Char} (ha : Ascii token) (hp : '+' ∉ token)
    (hne : normalizeDesktopShortcutToken token ≠ []) : ServerToken (normalizeDesktopShortcutToken token) := by
  have hends := trimSpace_noSpace ha
  have hmem := @mem_trimSpace token
  unfold normalizeDesktopShortcutToken at hne ⊢
  generalize (trimSpace (String.ofList token)).toList = raw at hends hmem hne ⊢
  simp only at hne ⊢
  split at hne
  · exact absurd rfl hne
  · rename_i hraw
    rw [if_neg hraw]
    have hlower : desktopShortcutName (raw.map Char.toLower) = none → ServerToken (raw.map Char.toLower) := by
      intro hnone
      refine ⟨?_, ?_, ?_, noSpaceAtEnds_map (fun c hc => toLower_not_space (ha c (hmem hc))) hends, .inl hnone⟩
      · intro c hc
        obtain ⟨d, hd, rfl⟩ := List.mem_map.mp hc
        exact toLower_ascii (ha d (hmem hd))
      · rw [List.map_map]
        exact List.map_congr_left fun c _ => toLower_toLower c
      · intro hc
        obtain ⟨d, hd, he⟩ := List.mem_map.mp hc
        exact hp (toLower_eq_plus he ▸ hmem hd)
    cases hname : desktopShortcutName (raw.map Char.toLower) with
    | some name =>
      obtain ⟨n, hn, rfl⟩ := desktopShortcutName_some hname
      exact .of_name hn
    | none =>
      have htoken := hlower hname
      simp only
      split
      · exact htoken
      · split
        · exact htoken
        · have hsame : ∀ c ∈ raw.map Char.toLower, Js.isSpace c = false → Js.isSpace (if c = ' ' then '_' else c) = false := by
            intro c _ hc
            split
            · decide
            · exact hc
          refine ⟨?_, ?_, ?_, noSpaceAtEnds_map hsame htoken.ends, ?_⟩
          · intro c hc
            obtain ⟨d, hd, rfl⟩ := List.mem_map.mp hc
            split
            · decide
            · exact htoken.ascii d hd
          · conv_rhs => rw [← htoken.lower]
            unfold replaceBlanks
            simp only [List.map_map]
            refine List.map_congr_left fun c _ => ?_
            by_cases hblank : c.toLower = ' '
            · simp only [Function.comp_apply, hblank]
              decide
            · simp [hblank, toLower_toLower]
          · intro hc
            obtain ⟨d, hd, he⟩ := List.mem_map.mp hc
            split at he
            · cases he
            · exact htoken.plus (he ▸ hd)
          · rcases replaceBlanks_cases (raw.map Char.toLower) with he | hunder
            · rw [he]
              exact .inl hname
            · exact .inl (desktopShortcutName_underscore hunder)

/-! ## The state the server parses -/

def ServerKey (k : List Char) : Prop := ServerToken k ∧ k ∉ modifierNames.map String.toList

namespace DesktopShortcutState

theorem take_key (state : DesktopShortcutState) {token : List Char} (h : token ∉ modifierNames.map String.toList) :
    state.take token = { state with key := token } := by
  simp only [modifierNames, List.map_cons, List.map_nil, List.mem_cons, List.not_mem_nil, or_false, not_or] at h
  unfold take
  rw [if_neg h.1, if_neg h.2.1, if_neg h.2.2.1, if_neg h.2.2.2]

theorem take_modifier (state : DesktopShortcutState) {token : List Char} (h : token ∈ modifierNames.map String.toList) :
    (state.take token).key = state.key := by
  simp only [modifierNames, List.map_cons, List.map_nil, List.mem_cons, List.not_mem_nil, or_false] at h
  rcases h with rfl | rfl | rfl | rfl <;> rfl

theorem take_server {state : DesktopShortcutState} (hs : state.key = [] ∨ ServerKey state.key) {token : List Char}
    (ht : token ≠ [] → ServerToken token) : (state.take token).key = [] ∨ ServerKey (state.take token).key := by
  by_cases hm : token ∈ modifierNames.map String.toList
  · rw [take_modifier state hm]
    exact hs
  · rw [take_key state hm]
    by_cases he : token = []
    · exact .inl he
    · exact .inr ⟨ht he, hm⟩

theorem foldl_server (parts : List (List Char)) (hparts : ∀ part ∈ parts, Ascii part ∧ '+' ∉ part) :
    ∀ state : DesktopShortcutState, state.key = [] ∨ ServerKey state.key →
      (parts.foldl (fun state part => state.take (normalizeDesktopShortcutToken part)) state).key = [] ∨
        ServerKey (parts.foldl (fun state part => state.take (normalizeDesktopShortcutToken part)) state).key := by
  induction parts with
  | nil => exact fun _ h => h
  | cons part parts ih =>
    intro state h
    obtain ⟨hpart, hrest⟩ := List.forall_mem_cons.mp hparts
    rw [List.foldl_cons]
    have hstep := take_server h (normalizeDesktopShortcutToken_server hpart.1 hpart.2)
    exact ih hrest (state.take (normalizeDesktopShortcutToken part)) hstep

end DesktopShortcutState

theorem desktopShortcutState_key {value : List Char} (ha : Ascii value) :
    (desktopShortcutState value).key = [] ∨ ServerKey (desktopShortcutState value).key :=
  DesktopShortcutState.foldl_server _ (fun _ hpart => ⟨fun c hc => ha c (subset_of_mem_splitOn _ hpart hc), not_mem_splitOn _ hpart⟩)
    _ (.inl rfl)

/-! ## The browser's name of a key -/

namespace Client

theorem replaceSpaces_of_no_space {s : List Char} (h : ∀ c ∈ s, Js.isSpace c = false) : replaceSpaces s = s := by
  induction s with
  | nil => rfl
  | cons c s ih =>
    obtain ⟨hc, hs⟩ := List.forall_mem_cons.mp h
    rw [replaceSpaces, if_pos hc, ih hs]

theorem mem_replaceSpaces {s : List Char} : ∀ d ∈ replaceSpaces s, d = '_' ∨ d ∈ s := by
  induction s with
  | nil => exact fun _ h => absurd h List.not_mem_nil
  | cons c s ih =>
    intro d hd
    rw [replaceSpaces] at hd
    split at hd
    · rcases List.mem_cons.mp hd with rfl | hd
      · exact .inr List.mem_cons_self
      · exact (ih d hd).imp_right (List.mem_cons_of_mem _)
    · split at hd
      · exact (ih d hd).imp_right (List.mem_cons_of_mem _)
      · rcases List.mem_cons.mp hd with rfl | hd
        · exact .inl rfl
        · exact (ih d hd).imp_right (List.mem_cons_of_mem _)

theorem underscore_of_space {s : List Char} (h : ∃ c ∈ s, Js.isSpace c = true) : '_' ∈ replaceSpaces s := by
  induction s with
  | nil => exact absurd h (by simp)
  | cons c s ih =>
    obtain ⟨d, hd, hspace⟩ := h
    rw [replaceSpaces]
    split
    · rename_i hc
      rcases List.mem_cons.mp hd with rfl | hd
      · rw [hspace] at hc
        cases hc
      · exact List.mem_cons_of_mem _ (ih ⟨d, hd, hspace⟩)
    · split
      · rename_i hnext
        obtain ⟨e, he, hspace⟩ := (Option.any_eq_true _ _).mp hnext
        exact ih ⟨e, List.mem_of_head? he, hspace⟩
      · exact List.mem_cons_self

theorem replaceSpaces_cases (s : List Char) : replaceSpaces s = s ∨ '_' ∈ replaceSpaces s := by
  by_cases h : ∃ c ∈ s, Js.isSpace c = true
  · exact .inr (underscore_of_space h)
  · exact .inl (replaceSpaces_of_no_space fun c hc => Bool.eq_false_iff.mpr fun hspace => h ⟨c, hc, hspace⟩)

/-- What the browser calls a key the server has stored. -/
def keyName (k : List Char) : List Char :=
  if k = "constructor".toList then objectFunctionText.toList
  else if k = "__proto__".toList then "[object Object]".toList
  else replaceSpaces k

/-- The browser renames no key of the server but those of `Object.prototype`. -/
theorem aliases_server : ∀ row ∈ aliases, row.1 = "constructor" ∨ row.1 = "__proto__" ∨ row.1 = "escape" ∨
    (desktopShortcutName row.1.toList).isSome ∧ row.1 ∉ renamedKeys ++ modifierNames := by
  decide

theorem aliasOf_some {k name : List Char} (hk : ServerKey k) (h : aliasOf k = some name) : name = keyName k := by
  unfold aliasOf at h
  rw [Option.map_eq_some_iff] at h
  obtain ⟨row, hrow, rfl⟩ := h
  have hmem := List.mem_of_find?_eq_some hrow
  obtain rfl : row.1.toList = k := by simpa using List.find?_some hrow
  rcases aliases_server row hmem with hname | hname | hname | ⟨hname, hfresh⟩
  · have hrows : ∀ row ∈ aliases, row.1 = "constructor" → row.2.toList = keyName row.1.toList := by decide
    exact hrows row hmem hname
  · have hrows : ∀ row ∈ aliases, row.1 = "__proto__" → row.2.toList = keyName row.1.toList := by decide
    exact hrows row hmem hname
  · have hrows : ∀ row ∈ aliases, row.1 = "escape" → row.2.toList = keyName row.1.toList := by decide
    exact hrows row hmem hname
  · rcases hk.1.known with hnone | hknown
    · rw [hnone] at hname
      cases hname
    · obtain ⟨other, hother, he⟩ := List.mem_map.mp hknown
      exact absurd (String.toList_inj.mp he ▸ hother) hfresh

theorem functionKey_no_space {k : List Char} (h : functionKey k = true) : ∀ c ∈ k, Js.isSpace c = false := by
  have hf : ∀ f : Char, (f = 'f' || f = 'F') = true → Js.isSpace f = false := by
    intro f hf
    rw [Bool.or_eq_true, decide_eq_true_eq, decide_eq_true_eq] at hf
    rcases hf with rfl | rfl <;> decide
  unfold functionKey at h
  split at h
  · rename_i f d
    rw [Bool.and_eq_true] at h
    intro c hc
    simp only [List.mem_cons, List.not_mem_nil, or_false] at hc
    rcases hc with rfl | rfl
    · exact hf _ h.1
    · exact Js.isDigit_not_space h.2
  · rename_i f d e
    rw [Bool.and_eq_true, Bool.and_eq_true] at h
    intro c hc
    simp only [List.mem_cons, List.not_mem_nil, or_false] at hc
    rcases hc with rfl | rfl | rfl
    · exact hf _ h.1.1
    · exact Js.isDigit_not_space h.1.2
    · exact Js.isDigit_not_space h.2
  · cases h

theorem trim_padded {s : List Char} (hne : s ≠ []) (h : NoSpaceAtEnds s) {before after : List Char}
    (hb : before = [] ∨ before = [' ']) (ha : after = [] ∨ after = [' ']) : Js.trim (before ++ s ++ after) = s := by
  obtain ⟨c, s, rfl⟩ := List.exists_cons_of_ne_nil hne
  have hc : Js.isSpace c = false := h.1 c rfl
  have hdrop : (before ++ (c :: s) ++ after).dropWhile Js.isSpace = (c :: s) ++ after := by
    rcases hb with rfl | rfl
    · exact List.dropWhile_cons_of_neg (by simp [hc])
    · rw [List.cons_append, List.nil_append, List.cons_append, List.dropWhile_cons_of_pos (by decide)]
      exact List.dropWhile_cons_of_neg (by simp [hc])
  unfold Js.trim
  rw [hdrop]
  have hkeep : (c :: s).rdropWhile Js.isSpace = c :: s := by
    rw [List.rdropWhile_eq_self_iff]
    intro hne
    simp [h.2 _ (List.getLast?_eq_getLast_of_ne_nil hne)]
  rcases ha with rfl | rfl
  · rw [List.append_nil, hkeep]
  · rw [List.rdropWhile_concat_pos _ _ _ (by decide), hkeep]

/-- The token the browser makes of a stored key, blanks around it or not. -/
theorem normalizeShortcutKeyToken_server {k : List Char} (hne : k ≠ []) (hk : ServerKey k) {before after : List Char}
    (hb : before = [] ∨ before = [' ']) (ha : after = [] ∨ after = [' ']) :
    normalizeShortcutKeyToken (before ++ k ++ after) = keyName k := by
  unfold normalizeShortcutKeyToken
  rw [trim_padded hne hk.1.ends hb ha]
  simp only [hk.1.lower]
  rw [if_neg hne]
  cases hname : aliasOf k with
  | some name => exact aliasOf_some hk hname
  | none =>
    have hconstructor : k ≠ "constructor".toList := by
      rintro rfl
      exact absurd hname (by decide)
    have hproto : k ≠ "__proto__".toList := by
      rintro rfl
      exact absurd hname (by decide)
    unfold keyName
    rw [if_neg hconstructor, if_neg hproto]
    simp only
    split
    · rename_i hplain
      refine (replaceSpaces_of_no_space ?_).symm
      rcases hplain with hfunction | hone
      · exact functionKey_no_space hfunction
      · rw [Js.length_of_small fun c hc => by have := hk.1.ascii c hc; omega] at hone
        obtain ⟨c, rfl⟩ := List.length_eq_one_iff.mp hone
        exact fun d hd => hk.1.ends.1 d (List.mem_singleton.mp hd ▸ rfl)
    · rfl

end Client

/-! ## Normal forms -/

/-- The pieces between the plus signs of a normal form of the server, for what makes nothing of the blanks around
them. -/
theorem map_splitOn_intercalate {β : Type} {f g : List Char → β} {p : List Char} {ps : List (List Char)}
    (hplus : ∀ q ∈ p :: ps, '+' ∉ q)
    (hf : ∀ q ∈ p :: ps, ∀ before after, (before = [] ∨ before = [' ']) → (after = [] ∨ after = [' ']) →
      f (before ++ q ++ after) = g q) {before : List Char} (hb : before = [] ∨ before = [' ']) :
    ((before ++ " + ".toList.intercalate (p :: ps)).splitOn '+').map f = (p :: ps).map g := by
  have hbefore : '+' ∉ before := by rcases hb with rfl | rfl <;> decide
  induction ps generalizing p before with
  | nil =>
    rw [List.intercalate_singleton, List.splitOn_eq_singleton]
    · have := hf p List.mem_cons_self before [] hb (.inl rfl)
      rw [List.append_nil] at this
      simp [this]
    · rw [List.mem_append, not_or]
      exact ⟨hbefore, hplus p List.mem_cons_self⟩
  | cons q qs ih =>
    have hsplit : before ++ " + ".toList.intercalate (p :: q :: qs) =
        (before ++ p ++ [' ']) ++ '+' :: ([' '] ++ " + ".toList.intercalate (q :: qs)) := by
      rw [List.intercalate_cons_cons]
      simp
    have hp : '+' ∉ before ++ p ++ [' '] := by
      simp only [List.mem_append, not_or]
      exact ⟨⟨hbefore, hplus p List.mem_cons_self⟩, by decide⟩
    rw [hsplit, List.splitOn_append_cons_self_of_not_mem hp, List.map_cons, hf p List.mem_cons_self before [' '] hb (.inr rfl),
      ih (fun r hr => hplus r (List.mem_cons_of_mem _ hr)) (fun r hr => hf r (List.mem_cons_of_mem _ hr)) (.inr rfl) (by decide),
      List.map_cons (l := q :: qs)]

namespace DesktopShortcutState

def SameModifiers (a b : DesktopShortcutState) : Prop := { a with key := [] } = { b with key := [] }

instance (a b : DesktopShortcutState) : Decidable (SameModifiers a b) := inferInstanceAs (Decidable (_ = _))

theorem eq_iff {a b : DesktopShortcutState} : a = b ↔ SameModifiers a b ∧ a.key = b.key := by
  cases a
  cases b
  simp only [SameModifiers, mk.injEq, and_true]
  constructor
  · rintro ⟨rfl, rfl, rfl, rfl, rfl⟩
    exact ⟨⟨rfl, rfl, rfl, rfl⟩, rfl⟩
  · rintro ⟨⟨rfl, rfl, rfl, rfl⟩, rfl⟩
    exact ⟨rfl, rfl, rfl, rfl, rfl⟩

/-- The modifiers of a state can be read off its flags. -/
theorem mem_flags (a : DesktopShortcutState) {ctrl shift alt super : String} (hd : [ctrl, shift, alt, super].Nodup) :
    (ctrl.toList ∈ a.flags ctrl shift alt super ↔ a.ctrl = true) ∧ (shift.toList ∈ a.flags ctrl shift alt super ↔ a.shift = true) ∧
      (alt.toList ∈ a.flags ctrl shift alt super ↔ a.alt = true) ∧ (super.toList ∈ a.flags ctrl shift alt super ↔ a.super = true) := by
  simp only [List.nodup_cons, List.mem_cons, List.not_mem_nil, or_false, not_or, not_false_eq_true, List.nodup_nil,
    and_true] at hd
  obtain ⟨⟨h1, h2, h3⟩, ⟨h4, h5⟩, h6⟩ := hd
  simp only [flags, List.mem_append]
  refine ⟨?_, ?_, ?_, ?_⟩
  · simp [h1, h2, h3, String.toList_inj]
  · simp [Ne.symm h1, h4, h5, String.toList_inj]
  · simp [Ne.symm h2, Ne.symm h4, h6, String.toList_inj]
  · simp [Ne.symm h3, Ne.symm h5, Ne.symm h6, String.toList_inj]

theorem parts_inj {a b : DesktopShortcutState} {ctrl shift alt super : String} (hd : [ctrl, shift, alt, super].Nodup)
    (h : a.parts ctrl shift alt super = b.parts ctrl shift alt super) : a = b := by
  unfold parts at h
  obtain ⟨hflags, hkey⟩ := List.append_inj' h rfl
  obtain ⟨h1, h2, h3, h4⟩ := mem_flags a hd
  obtain ⟨h1', h2', h3', h4'⟩ := mem_flags b hd
  rw [hflags] at h1 h2 h3 h4
  refine eq_iff.mpr ⟨?_, by simpa using hkey⟩
  simp only [SameModifiers, mk.injEq, and_true]
  exact ⟨Bool.eq_iff_iff.mpr (h1.symm.trans h1'), Bool.eq_iff_iff.mpr (h2.symm.trans h2'),
    Bool.eq_iff_iff.mpr (h3.symm.trans h3'), Bool.eq_iff_iff.mpr (h4.symm.trans h4')⟩

theorem flags_subset (a : DesktopShortcutState) (ctrl shift alt super : String) :
    ∀ q ∈ a.flags ctrl shift alt super, q ∈ [ctrl, shift, alt, super].map String.toList := by
  have hone : ∀ (flag : Bool) (name q : List Char), q ∈ (if flag then [name] else []) → q = name := by
    intro flag name q hq
    cases flag
    · cases hq
    · exact List.mem_singleton.mp hq
  intro q hq
  simp only [flags, List.mem_append] at hq
  simp only [List.map_cons, List.map_nil, List.mem_cons, List.not_mem_nil, or_false]
  rcases hq with ((hq | hq) | hq) | hq
  · exact .inl (hone _ _ q hq)
  · exact .inr (.inl (hone _ _ q hq))
  · exact .inr (.inr (.inl (hone _ _ q hq)))
  · exact .inr (.inr (.inr (hone _ _ q hq)))

/-- The parts of a normal form of the server are found between its plus signs. -/
theorem map_splitOn_parts {β : Type} (a : DesktopShortcutState) (hk : ServerKey a.key) {g : List Char → β} (f : List Char → β)
    (hnames : ∀ q ∈ ["Ctrl", "Shift", "Alt", "Command"].map String.toList, ∀ before ∈ [[], [' ']], ∀ after ∈ [[], [' ']],
      f (before ++ q ++ after) = g q)
    (hkey : ∀ before after, (before = [] ∨ before = [' ']) → (after = [] ∨ after = [' ']) →
      f (before ++ a.key ++ after) = g a.key) :
    ((" + ".toList.intercalate (a.parts "Ctrl" "Shift" "Alt" "Command")).splitOn '+').map f =
      (a.parts "Ctrl" "Shift" "Alt" "Command").map g := by
  obtain ⟨p, ps, hparts⟩ : ∃ p ps, a.parts "Ctrl" "Shift" "Alt" "Command" = p :: ps :=
    List.exists_cons_of_ne_nil (by simp [parts])
  have hpart : ∀ q ∈ p :: ps, q ∈ ["Ctrl", "Shift", "Alt", "Command"].map String.toList ∨ q = a.key := by
    intro q hq
    rw [← hparts, parts, List.mem_append, List.mem_singleton] at hq
    exact hq.imp_left (flags_subset a _ _ _ _ q)
  have hplus : ∀ q ∈ p :: ps, '+' ∉ q := by
    intro q hq
    rcases hpart q hq with hname | rfl
    · have hplain : ∀ q ∈ ["Ctrl", "Shift", "Alt", "Command"].map String.toList, '+' ∉ q := by decide
      exact hplain q hname
    · exact hk.1.plus
  have hpieces : ∀ q ∈ p :: ps, ∀ before after, (before = [] ∨ before = [' ']) → (after = [] ∨ after = [' ']) →
      f (before ++ q ++ after) = g q := by
    intro q hq before after hb ha
    rcases hpart q hq with hname | rfl
    · exact hnames q hname before (by simpa using hb) after (by simpa using ha)
    · exact hkey before after hb ha
  have htokens := map_splitOn_intercalate hplus hpieces (.inl rfl)
  rw [List.nil_append, ← hparts] at htokens
  exact htokens

/-- The state is read back from its own names. -/
theorem foldl_parts (a : DesktopShortcutState) {key : List Char} (hkey : key ∉ modifierNames.map String.toList) :
    ((a.flags "ctrl" "shift" "alt" "super") ++ [key]).foldl take {} = { a with key := key } := by
  rw [List.foldl_append, List.foldl_cons, List.foldl_nil, take_key _ hkey]
  obtain ⟨ctrl, shift, alt, super, k⟩ := a
  cases ctrl <;> cases shift <;> cases alt <;> cases super <;> rfl

end DesktopShortcutState

namespace Client

theorem keyName_ne {k : List Char} (hne : k ≠ []) (hk : ServerKey k) : keyName k ≠ [] ∧ '+' ∉ keyName k ∧
    keyName k ∉ modifierNames.map String.toList := by
  unfold keyName
  split
  · decide
  · split
    · decide
    · refine ⟨?_, ?_, ?_⟩
      · rcases replaceSpaces_cases k with he | hunder
        · rwa [he]
        · exact List.ne_nil_of_mem hunder
      · intro hplus
        rcases mem_replaceSpaces _ hplus with he | hmem
        · cases he
        · exact hk.1.plus hmem
      · rcases replaceSpaces_cases k with he | hunder
        · rw [he]
          exact hk.2
        · intro hname
          have hnames : ∀ name ∈ modifierNames, '_' ∉ name.toList := by decide
          obtain ⟨name, hmem, he⟩ := List.mem_map.mp hname
          exact hnames name hmem (he ▸ hunder)

/-- The tokens the browser reads from the normal form of a state. -/
theorem tokens_server (a : DesktopShortcutState) (hne : a.key ≠ []) (hk : ServerKey a.key) :
    ((" + ".toList.intercalate (a.parts "Ctrl" "Shift" "Alt" "Command")).splitOn '+').map normalizeShortcutKeyToken =
      a.flags "ctrl" "shift" "alt" "super" ++ [keyName a.key] := by
  have hkey : normalizeShortcutKeyToken a.key = keyName a.key := by
    simpa using normalizeShortcutKeyToken_server hne hk (.inl rfl) (.inl rfl)
  have hparts := DesktopShortcutState.map_splitOn_parts a hk (g := normalizeShortcutKeyToken) normalizeShortcutKeyToken (by decide)
    fun before after hb hafter => by rw [normalizeShortcutKeyToken_server hne hk hb hafter, hkey]
  rw [hparts, DesktopShortcutState.parts, List.map_append, List.map_singleton, hkey]
  obtain ⟨ctrl, shift, alt, super, k⟩ := a
  cases ctrl <;> cases shift <;> cases alt <;> cases super <;> rfl

/-- What the browser makes of the normal form of a state. -/
theorem normalizeShortcutDefinition_server (a : DesktopShortcutState) (hne : a.key ≠ []) (hk : ServerKey a.key) :
    normalizeShortcutDefinition (" + ".toList.intercalate (a.parts "Ctrl" "Shift" "Alt" "Command")) =
      ['+'].intercalate (({ a with key := keyName a.key } : DesktopShortcutState).parts "ctrl" "shift" "alt" "super") := by
  obtain ⟨hname, -, hmodifier⟩ := keyName_ne hne hk
  unfold normalizeShortcutDefinition
  rw [← List.foldl_map, tokens_server a hne hk, DesktopShortcutState.foldl_parts a hmodifier]
  exact if_neg hname

theorem replaceSpaces_upper {k : List Char} (hk : ServerKey k) : 'O' ∉ replaceSpaces k := by
  intro hmem
  rcases mem_replaceSpaces _ hmem with he | hmem
  · cases he
  · have hlower : ∀ c ∈ k, c.toLower = c := by
      have hmap : k.map Char.toLower = k.map id := by rw [List.map_id, hk.1.lower]
      exact List.map_inj_left.mp hmap
    exact absurd (hlower 'O' hmem) (by decide)

theorem replaceSpaces_eq_constructor {k : List Char} (h : replaceSpaces k = "constructor".toList) : k = "constructor".toList := by
  rcases replaceSpaces_cases k with he | hunder
  · rw [← he, h]
  · rw [h] at hunder
    exact absurd hunder (by decide)

/-- Two keys of the server have one name if only white space tells them apart, the name of the prototype excepted. -/
theorem keyName_eq_iff {k l : List Char} (hk : ServerKey k) (hl : ServerKey l) :
    keyName k = keyName l ↔
      k = l ∨ replaceSpaces k = replaceSpaces l ∧ k ≠ "__proto__".toList ∧ l ≠ "__proto__".toList := by
  have hfunction : 'O' ∈ objectFunctionText.toList := by decide
  have hobject : 'O' ∈ "[object Object]".toList := by decide
  have happart : objectFunctionText.toList ≠ "[object Object]".toList := by decide
  constructor
  · intro h
    unfold keyName at h
    split at h
    · rename_i hkc
      split at h
      · rename_i hlc
        exact .inl (hkc.trans hlc.symm)
      · split at h
        · exact absurd h happart
        · exact absurd (h ▸ hfunction) (replaceSpaces_upper hl)
    · split at h
      · rename_i hkp
        split at h
        · exact absurd h.symm happart
        · split at h
          · rename_i hlp
            exact .inl (hkp.trans hlp.symm)
          · exact absurd (h ▸ hobject) (replaceSpaces_upper hl)
      · rename_i hkp
        split at h
        · exact absurd (h ▸ hfunction) (replaceSpaces_upper hk)
        · split at h
          · exact absurd (h ▸ hobject) (replaceSpaces_upper hk)
          · rename_i hlp
            exact .inr ⟨h, hkp, hlp⟩
  · rintro (rfl | ⟨he, hkp, hlp⟩)
    · rfl
    · by_cases hkc : k = "constructor".toList
      · subst hkc
        rw [replaceSpaces_eq_constructor (he.symm.trans (by decide))]
      · have hlc : l ≠ "constructor".toList := by
          rintro rfl
          exact hkc (replaceSpaces_eq_constructor (he.trans (by decide)))
        unfold keyName
        rw [if_neg hkc, if_neg hkp, if_neg hlc, if_neg hlp, he]

end Client

/-- Two states only the browser takes to be one: they have the same modifiers, and only white space tells their keys
apart. -/
def DesktopShortcutState.Confused (a b : DesktopShortcutState) : Prop :=
  a.SameModifiers b ∧ a.key ≠ b.key ∧ Client.replaceSpaces a.key = Client.replaceSpaces b.key ∧
    a.key ≠ "__proto__".toList ∧ b.key ≠ "__proto__".toList

instance (a b : DesktopShortcutState) : Decidable (a.Confused b) := inferInstanceAs (Decidable (_ ∧ _))

/-- The state a normal form of the server came from. -/
theorem normalizeDesktopShortcutDefinition_ok {s n : List Char} (ha : Ascii s) (h : normalizeDesktopShortcutDefinition s = .ok n) :
    (desktopShortcutState s).key ≠ [] ∧ ServerKey (desktopShortcutState s).key ∧
      n = " + ".toList.intercalate ((desktopShortcutState s).parts "Ctrl" "Shift" "Alt" "Command") := by
  unfold normalizeDesktopShortcutDefinition at h
  split at h
  · cases h
  · unfold DesktopShortcutState.serialize at h
    split at h
    · cases h
    · rename_i hne
      cases h
      exact ⟨hne, (desktopShortcutState_key ha).resolve_left hne, rfl⟩

theorem serialize_inj {a b : DesktopShortcutState} (hna : a.key ≠ []) (ha : ServerKey a.key) (hnb : b.key ≠ []) (hb : ServerKey b.key)
    (h : " + ".toList.intercalate (a.parts "Ctrl" "Shift" "Alt" "Command") =
      " + ".toList.intercalate (b.parts "Ctrl" "Shift" "Alt" "Command")) : a = b := by
  have hparts : ∀ c : DesktopShortcutState, c.key ≠ [] → ServerKey c.key →
      ((" + ".toList.intercalate (c.parts "Ctrl" "Shift" "Alt" "Command")).splitOn '+').map Js.trim =
        c.parts "Ctrl" "Shift" "Alt" "Command" := by
    intro c hne hc
    rw [DesktopShortcutState.map_splitOn_parts c hc Js.trim (g := id) (by decide) fun before after hbefore hafter =>
      Client.trim_padded hne hc.1.ends hbefore hafter, List.map_id]
  have he := hparts a hna ha
  rw [h, hparts b hnb hb] at he
  exact DesktopShortcutState.parts_inj (by decide) he.symm

theorem splitOn_client (a : DesktopShortcutState) (hplus : '+' ∉ a.key) :
    (['+'].intercalate (a.parts "ctrl" "shift" "alt" "super")).splitOn '+' = a.parts "ctrl" "shift" "alt" "super" := by
  refine List.splitOn_intercalate '+' (fun q hq => ?_) (by simp [DesktopShortcutState.parts])
  rw [DesktopShortcutState.parts, List.mem_append, List.mem_singleton] at hq
  rcases hq with hname | rfl
  · have hnames : ∀ q ∈ ["ctrl", "shift", "alt", "super"].map String.toList, '+' ∉ q := by decide
    exact hnames q (DesktopShortcutState.flags_subset a _ _ _ _ q hname)
  · exact hplus

theorem client_inj {a b : DesktopShortcutState} (hna : a.key ≠ []) (ha : ServerKey a.key) (hnb : b.key ≠ []) (hb : ServerKey b.key) :
    Client.normalizeShortcutDefinition (" + ".toList.intercalate (a.parts "Ctrl" "Shift" "Alt" "Command")) =
        Client.normalizeShortcutDefinition (" + ".toList.intercalate (b.parts "Ctrl" "Shift" "Alt" "Command")) ↔
      a.SameModifiers b ∧ Client.keyName a.key = Client.keyName b.key := by
  rw [Client.normalizeShortcutDefinition_server a hna ha, Client.normalizeShortcutDefinition_server b hnb hb]
  constructor
  · intro h
    have hsplit := congrArg (List.splitOn '+') h
    rw [splitOn_client _ (Client.keyName_ne hna ha).2.1, splitOn_client _ (Client.keyName_ne hnb hb).2.1] at hsplit
    exact DesktopShortcutState.eq_iff.mp (DesktopShortcutState.parts_inj (by decide) hsplit)
  · rintro ⟨hsame, hkey⟩
    have he : ({ a with key := Client.keyName a.key } : DesktopShortcutState) = { b with key := Client.keyName b.key } :=
      DesktopShortcutState.eq_iff.mpr ⟨hsame, hkey⟩
    rw [he]

/-! ## Lists -/

/-- For two definitions the server accepts: their normal forms are equal exactly if those of the browser are, unless the
browser confuses them. -/
theorem definitions_alike {s t n m : List Char} (hs : Ascii s) (ht : Ascii t) (hn : normalizeDesktopShortcutDefinition s = .ok n)
    (hm : normalizeDesktopShortcutDefinition t = .ok m) :
    (n = m ↔ Client.normalizeShortcutDefinition n = Client.normalizeShortcutDefinition m) ↔
      ¬(desktopShortcutState s).Confused (desktopShortcutState t) := by
  obtain ⟨hna, ha, rfl⟩ := normalizeDesktopShortcutDefinition_ok hs hn
  obtain ⟨hnb, hb, rfl⟩ := normalizeDesktopShortcutDefinition_ok ht hm
  generalize desktopShortcutState s = a at hna ha ⊢
  generalize desktopShortcutState t = b at hnb hb ⊢
  have hserver : (" + ".toList.intercalate (a.parts "Ctrl" "Shift" "Alt" "Command") =
      " + ".toList.intercalate (b.parts "Ctrl" "Shift" "Alt" "Command")) ↔ a.SameModifiers b ∧ a.key = b.key := by
    rw [← DesktopShortcutState.eq_iff]
    exact ⟨serialize_inj hna ha hnb hb, fun he => by rw [he]⟩
  rw [hserver, client_inj hna ha hnb hb, Client.keyName_eq_iff ha hb]
  unfold DesktopShortcutState.Confused
  constructor
  · rintro h ⟨hsame, hkey, hspaces, hka, hkb⟩
    exact hkey (h.mpr ⟨hsame, .inr ⟨hspaces, hka, hkb⟩⟩).2
  · intro h
    refine ⟨fun he => ⟨he.1, .inl he.2⟩, ?_⟩
    rintro ⟨hsame, hkey | hspaces⟩
    · exact ⟨hsame, hkey⟩
    · by_contra hcontra
      exact h ⟨hsame, fun he => hcontra ⟨hsame, he⟩, hspaces⟩

theorem client_ne_nil {s n : List Char} (hs : Ascii s) (hn : normalizeDesktopShortcutDefinition s = .ok n) :
    Client.normalizeShortcutDefinition n ≠ [] := by
  obtain ⟨hne, hk, rfl⟩ := normalizeDesktopShortcutDefinition_ok hs hn
  obtain ⟨hname, hplus, -⟩ := Client.keyName_ne hne hk
  intro hnil
  rw [Client.normalizeShortcutDefinition_server _ hne hk] at hnil
  have hsplit := congrArg (List.splitOn '+') hnil
  rw [splitOn_client _ hplus] at hsplit
  obtain ⟨-, hkey⟩ := @List.append_inj' _ _ _ [] [[]] (hsplit.trans (List.splitOn_nil '+')) rfl
  exact hname (by simpa using hkey)

theorem intercalate_append_singleton (sep key : List Char) (l : List (List Char)) :
    ∃ before, sep.intercalate (l ++ [key]) = before ++ key ∧ ∀ p ∈ l.head?, p <+: before := by
  induction l with
  | nil => exact ⟨[], by simp, by simp⟩
  | cons p l ih =>
    obtain ⟨before, he, -⟩ := ih
    refine ⟨p ++ sep ++ before, ?_, ?_⟩
    · rw [List.cons_append, List.intercalate_cons_of_ne_nil (by simp), he]
      simp
    · rintro q hq
      cases hq
      rw [List.append_assoc]
      exact List.prefix_append _ _

theorem noSpaceAtEnds_serialize (a : DesktopShortcutState) (hne : a.key ≠ []) (hk : ServerKey a.key) :
    NoSpaceAtEnds (" + ".toList.intercalate (a.parts "Ctrl" "Shift" "Alt" "Command")) := by
  obtain ⟨before, he, hbefore⟩ := intercalate_append_singleton " + ".toList a.key (a.flags "Ctrl" "Shift" "Alt" "Command")
  unfold DesktopShortcutState.parts
  rw [he]
  constructor
  · intro c hc
    cases hflags : a.flags "Ctrl" "Shift" "Alt" "Command" with
    | nil =>
      rw [hflags, List.nil_append, List.intercalate_singleton] at he
      exact hk.1.ends.1 c (he ▸ hc)
    | cons p l =>
      rw [hflags] at hbefore
      obtain ⟨rest, rfl⟩ := hbefore p rfl
      have hp := DesktopShortcutState.flags_subset a _ _ _ _ p (hflags ▸ List.mem_cons_self)
      have hnames : ∀ q ∈ ["Ctrl", "Shift", "Alt", "Command"].map String.toList, ∃ d ds, q = d :: ds ∧ Js.isSpace d = false := by
        intro q hq
        simp only [List.map_cons, List.map_nil, List.mem_cons, List.not_mem_nil, or_false] at hq
        rcases hq with rfl | rfl | rfl | rfl <;> exact ⟨_, _, rfl, by decide⟩
      obtain ⟨d, ds, rfl, hd⟩ := hnames p hp
      cases hc
      exact hd
  · intro c hc
    rw [List.getLast?_append_of_ne_nil _ hne] at hc
    exact hk.1.ends.2 c hc

namespace Client

theorem unseenShortcuts_sublist (shortcuts : List DesktopShortcut) : ∀ seen, (unseenShortcuts seen shortcuts).Sublist shortcuts := by
  induction shortcuts with
  | nil => exact fun _ => List.Sublist.refl _
  | cons shortcut shortcuts ih =>
    intro seen
    rw [unseenShortcuts]
    split
    · exact (ih seen).cons shortcut
    · exact (ih _).cons_cons shortcut

/-- The filter keeps a list whole if no two of its entries have one normal form. -/
theorem unseenShortcuts_eq_iff (shortcuts : List DesktopShortcut)
    (hne : ∀ shortcut ∈ shortcuts, normalizeShortcutDefinition shortcut.shortcut ≠ []) :
    ∀ seen, unseenShortcuts seen shortcuts = shortcuts ↔
      (∀ shortcut ∈ shortcuts, normalizeShortcutDefinition shortcut.shortcut ∉ seen) ∧
        shortcuts.Pairwise fun a b => normalizeShortcutDefinition a.shortcut ≠ normalizeShortcutDefinition b.shortcut := by
  induction shortcuts with
  | nil => exact fun _ => ⟨fun _ => ⟨by simp, .nil⟩, fun _ => rfl⟩
  | cons shortcut shortcuts ih =>
    intro seen
    obtain ⟨hfirst, hrest⟩ := List.forall_mem_cons.mp hne
    rw [unseenShortcuts, List.pairwise_cons, List.forall_mem_cons]
    by_cases hseen : normalizeShortcutDefinition shortcut.shortcut ∈ seen
    · simp only [hseen, or_true, if_true, not_true_eq_false, false_and, iff_false]
      intro he
      have hlen := (unseenShortcuts_sublist shortcuts seen).length_le
      rw [he, List.length_cons] at hlen
      omega
    · simp only [hfirst, hseen, or_self, if_false, List.cons.injEq, true_and, not_false_eq_true]
      rw [ih hrest]
      simp only [List.mem_cons, not_or]
      constructor
      · rintro ⟨hnot, hpair⟩
        exact ⟨fun a ha => (hnot a ha).2, fun a ha => Ne.symm (hnot a ha).1, hpair⟩
      · rintro ⟨hnot, hdiff, hpair⟩
        exact ⟨fun a ha => ⟨Ne.symm (hdiff a ha), hnot a ha⟩, hpair⟩

theorem known_actions : ∀ action ∈ allowedDesktopShortcutActions, Js.trim action.toList = action.toList ∧
    (desktopShortcutActionLabels.lookup action).isSome = true := by
  decide +kernel

end Client

namespace Client

theorem toClientDesktopShortcut_some {s : Webshell.DesktopShortcut} {label : String} (hne : s.ID.toList ≠ [])
    (hid : Js.trim s.ID.toList = s.ID.toList) (haction : Js.trim s.Action.toList = s.Action.toList)
    (hlabel : desktopShortcutActionLabels.lookup s.Action = some label)
    (hdefinition : normalizeShortcutDefinition s.Shortcut.toList ≠ []) (hshortcut : Js.trim s.Shortcut.toList = s.Shortcut.toList) :
    ∃ c, toClientDesktopShortcut s = some c ∧ c.id = s.ID.toList ∧ c.shortcut = s.Shortcut.toList := by
  have hkeep : ¬(s.ID.toList = [] ∨ normalizeShortcutDefinition s.Shortcut.toList = []) := by
    rw [not_or]
    exact ⟨hne, hdefinition⟩
  unfold toClientDesktopShortcut
  simp only [hid, haction, hshortcut, String.ofList_toList, hlabel]
  rw [if_neg hkeep]
  exact ⟨_, rfl, rfl, rfl⟩

end Client

theorem isAlphanum_not_space {c : Char} (h : c.isAlphanum = true) : Js.isSpace c = false := by
  have hrange : 48 ≤ c.toNat ∧ c.toNat ≤ 122 := by
    simp only [Char.isAlphanum, Char.isAlpha, Char.isUpper, Char.isLower, Char.isDigit, Bool.or_eq_true, Bool.and_eq_true,
      decide_eq_true_eq, UInt32.le_iff_toNat_le] at h
    simp at h
    omega
  rw [← Bool.not_eq_true]
  intro hspace
  have := isSpace_small hspace (by omega)
  omega

theorem trim_shortcutID {id : String} (h : shortcutIDPattern id = true) : id.toList ≠ [] ∧ Js.trim id.toList = id.toList := by
  unfold shortcutIDPattern at h
  rw [Bool.and_eq_true, Bool.and_eq_true, List.all_eq_true] at h
  obtain ⟨⟨hlen, -⟩, hall⟩ := h
  constructor
  · intro he
    rw [decide_eq_true_eq, ← String.length_toList, he] at hlen
    cases hlen
  · refine Js.trim_of_no_space fun c hc => ?_
    have hchar := hall c hc
    rw [Bool.or_eq_true, Bool.or_eq_true, decide_eq_true_eq, decide_eq_true_eq] at hchar
    rcases hchar with (halpha | rfl) | rfl
    · exact isAlphanum_not_space halpha
    · decide
    · decide

/-- What the browser reads from a stored shortcut. -/
theorem toClientDesktopShortcut_stored {e s : DesktopShortcut} (he : Ascii (trimSpace e.Shortcut).toList) (h : normalizeDesktopShortcut e = .ok s) :
    normalizeDesktopShortcutDefinition (trimSpace e.Shortcut).toList = .ok s.Shortcut.toList ∧
      ∃ c, Client.toClientDesktopShortcut s = some c ∧ c.id = s.ID.toList ∧ c.shortcut = s.Shortcut.toList := by
  unfold normalizeDesktopShortcut at h
  simp only at h
  split at h
  · cases h
  · rename_i hid
    split at h
    · cases h
    · split at h
      · cases h
      · rename_i haction
        split at h
        · cases h
        · rename_i n hn
          cases h
          simp only [Bool.not_eq_true', Bool.not_eq_false] at hid
          simp only [Bool.not_eq_true', Bool.not_eq_false, List.contains_iff_mem] at haction
          obtain ⟨hne, htrim⟩ := trim_shortcutID hid
          obtain ⟨haction, hlabel⟩ := Client.known_actions _ haction
          obtain ⟨label, hlabel⟩ := Option.isSome_iff_exists.mp hlabel
          obtain ⟨hkey, hk, hserialize⟩ := normalizeDesktopShortcutDefinition_ok he hn
          have hends := noSpaceAtEnds_serialize _ hkey hk
          rw [← hserialize] at hends
          refine ⟨by rw [hn, String.toList_ofList], ?_⟩
          refine Client.toClientDesktopShortcut_some hne htrim haction hlabel ?_ ?_
          · rw [String.toList_ofList]
            exact client_ne_nil he hn
          · rw [String.toList_ofList]
            exact Js.trim_of_ends hends.1 hends.2

theorem normalizeDesktopShortcutsFrom_ok {list stored : List DesktopShortcut} :
    ∀ {ids seen}, normalizeDesktopShortcutsFrom ids seen list = .ok stored →
      List.Forall₂ (fun e s => normalizeDesktopShortcut e = .ok s) list stored ∧
        (∀ s ∈ stored, s.Shortcut ∉ seen) ∧ stored.Pairwise fun a b => a.Shortcut ≠ b.Shortcut := by
  induction list generalizing stored with
  | nil =>
    intro ids seen h
    cases h
    exact ⟨.nil, by simp, .nil⟩
  | cons e list ih =>
    intro ids seen h
    rw [normalizeDesktopShortcutsFrom] at h
    cases hnext : normalizeDesktopShortcut e with
    | error err =>
      rw [hnext] at h
      cases h
    | ok next =>
      rw [hnext] at h
      simp only [bind, Except.bind] at h
      split at h
      · cases h
      · split at h
        · cases h
        · rename_i hseen
          split at h
          · cases h
          · rename_i rest hrest
            cases h
            obtain ⟨hall, hfresh, hpair⟩ := ih hrest
            rw [List.contains_iff_mem] at hseen
            refine ⟨.cons hnext hall, List.forall_mem_cons.mpr ⟨hseen, fun s hs => ?_⟩, List.pairwise_cons.mpr ⟨fun s hs => ?_, hpair⟩⟩
            · exact fun hmem => hfresh s hs (List.mem_cons_of_mem _ hmem)
            · exact fun he => hfresh s hs (he ▸ List.mem_cons_self)

/-- A pair of entries and what is stored of them. -/
theorem entries_alike {e e' s s' : DesktopShortcut} (he : Ascii (trimSpace e.Shortcut).toList) (he' : Ascii (trimSpace e'.Shortcut).toList)
    (hs : normalizeDesktopShortcut e = .ok s) (hs' : normalizeDesktopShortcut e' = .ok s') (hne : s.Shortcut ≠ s'.Shortcut) :
    Client.normalizeShortcutDefinition s.Shortcut.toList ≠ Client.normalizeShortcutDefinition s'.Shortcut.toList ↔
      ¬(desktopShortcutState (trimSpace e.Shortcut).toList).Confused (desktopShortcutState (trimSpace e'.Shortcut).toList) := by
  have halike := definitions_alike he he' (toClientDesktopShortcut_stored he hs).1 (toClientDesktopShortcut_stored he' hs').1
  rw [← halike]
  have hlist : s.Shortcut.toList ≠ s'.Shortcut.toList := fun h => hne (String.toList_inj.mp h)
  simp [hlist]

section Related

variable {α β : Type} {T : α → β → Prop} {l : List α} {m : List β}

theorem forall_forall₂ {p : α → Prop} {q : β → Prop} (h : List.Forall₂ T l m) (hpq : ∀ a, ∀ b ∈ m, T a b → (q b ↔ p a)) :
    (∀ b ∈ m, q b) ↔ ∀ a ∈ l, p a := by
  induction h with
  | nil => simp
  | @cons a b l m hab hlm ih =>
    rw [List.forall_mem_cons, List.forall_mem_cons, hpq a b List.mem_cons_self hab,
      ih fun a b hb => hpq a b (List.mem_cons_of_mem _ hb)]

theorem pairwise_forall₂ {R : α → α → Prop} {Q S : β → β → Prop} (h : List.Forall₂ T l m) (hQ : m.Pairwise Q)
    (hRS : ∀ a b a' b', T a b → T a' b' → Q b b' → (S b b' ↔ R a a')) : m.Pairwise S ↔ l.Pairwise R := by
  induction h with
  | nil => exact ⟨fun _ => .nil, fun _ => .nil⟩
  | @cons a b l m hab hlm ih =>
    obtain ⟨hfirst, hrest⟩ := List.pairwise_cons.mp hQ
    rw [List.pairwise_cons, List.pairwise_cons, ih hrest,
      forall_forall₂ hlm fun a' b' hb' hab' => hRS a b a' b' hab hab' (hfirst b' hb')]

end Related

/-- The entries the browser reads from a list. -/
theorem filterMap_stored {list stored : List DesktopShortcut}
    (h : List.Forall₂ (fun e s => Ascii (trimSpace e.Shortcut).toList ∧ normalizeDesktopShortcut e = .ok s) list stored) :
    List.Forall₂ (fun s c => (∃ e, Ascii (trimSpace e.Shortcut).toList ∧ normalizeDesktopShortcut e = .ok s) ∧
      c.id = s.ID.toList ∧ c.shortcut = s.Shortcut.toList) stored (stored.filterMap Client.toClientDesktopShortcut) := by
  induction h with
  | nil => exact .nil
  | @cons e s list stored hes _ ih =>
    obtain ⟨-, c, hc, hid, hshortcut⟩ := toClientDesktopShortcut_stored hes.1 hes.2
    rw [List.filterMap_cons_some hc]
    exact .cons ⟨⟨e, hes⟩, hid, hshortcut⟩ ih

theorem list_kept {list stored : List DesktopShortcut} (hascii : ∀ e ∈ list, Ascii (trimSpace e.Shortcut).toList)
    (h : normalizeDesktopShortcutsFrom [] [] list = .ok stored) :
    (Client.unseenShortcuts [] (stored.filterMap Client.toClientDesktopShortcut)).map (·.id) = stored.map (·.ID.toList) ↔
      list.Pairwise fun a b =>
        ¬(desktopShortcutState (trimSpace a.Shortcut).toList).Confused (desktopShortcutState (trimSpace b.Shortcut).toList) := by
  obtain ⟨hall, -, hpair⟩ := normalizeDesktopShortcutsFrom_ok h
  have hstored := (List.forall₂_and_left _ _).mpr ⟨hascii, hall⟩
  have hclient := filterMap_stored hstored
  generalize stored.filterMap Client.toClientDesktopShortcut = entries at hclient
  have hids : entries.map (·.id) = stored.map (·.ID.toList) := by
    rw [← List.forall₂_eq_eq_eq, List.forall₂_map_left_iff, List.forall₂_map_right_iff]
    exact hclient.flip.imp fun _ _ hsc => hsc.2.1
  have hne : ∀ entry ∈ entries, Client.normalizeShortcutDefinition entry.shortcut ≠ [] := by
    have hkept := (forall_forall₂ hclient (p := fun _ => True) (q := fun entry => Client.normalizeShortcutDefinition entry.shortcut ≠ [])
      fun s entry _ hs => ?_).mpr fun _ _ => trivial
    · exact hkept
    · obtain ⟨⟨e, he, hs⟩, -, hshortcut⟩ := hs
      rw [hshortcut]
      exact iff_of_true (client_ne_nil he (toClientDesktopShortcut_stored he hs).1) trivial
  have hwhole : (Client.unseenShortcuts [] entries).map (·.id) = entries.map (·.id) ↔ Client.unseenShortcuts [] entries = entries := by
    refine ⟨fun he => (Client.unseenShortcuts_sublist entries []).eq_of_length ?_, fun he => by rw [he]⟩
    simpa using congrArg List.length he
  rw [← hids, hwhole, Client.unseenShortcuts_eq_iff entries hne]
  simp only [List.not_mem_nil, not_false_eq_true, implies_true, true_and]
  rw [← pairwise_forall₂ hstored hpair fun e s e' s' hes hes' hdiff => entries_alike hes.1 hes'.1 hes.2 hes'.2 hdiff]
  refine pairwise_forall₂ hclient (Q := fun _ _ => True) (List.pairwise_of_forall fun _ _ => trivial) fun s c s' c' hsc hsc' _ => ?_
  rw [hsc.2.2, hsc'.2.2]

def copyEntry : DesktopShortcut := { ID := "copy", Label := "Copy", Action := "copy_terminal", Shortcut := "Ctrl+Shift+C" }

def pasteEntry : DesktopShortcut := { ID := "paste", Label := "Paste", Action := "paste_terminal", Shortcut := "shift + ctrl + v" }

end Webshell
