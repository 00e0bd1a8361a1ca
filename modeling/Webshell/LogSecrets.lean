import Mathlib.Data.List.Find
import Mathlib.Data.List.Forall2
import Webshell.ServerLog

/-!
# Secrets in the log

Two runs whose bytes differ in the values of keys alone publish the same
messages exactly if no piece that is shown has a value without its key.
-/

namespace Webshell

open GoBytes

/-! ## Texts that differ in values -/

/-- The texts are the same but for values behind keys. -/
inductive SameBut (Key : Str → Prop) (Value : UInt8 → Prop) : Str → Str → Prop
  | nil : SameBut Key Value [] []
  | byte (b : UInt8) {s t : Str} (h : SameBut Key Value s t) : SameBut Key Value (b :: s) (b :: t)
  | value {key v w s t : Str} (hk : Key key) (hne : v ≠ []) (hlength : v.length = w.length) (hv : ∀ b ∈ v, Value b)
      (hw : ∀ b ∈ w, Value b) (h : SameBut Key Value s t) : SameBut Key Value (key ++ 61 :: (v ++ s)) (key ++ 61 :: (w ++ t))

def Printable (b : UInt8) : Prop := 33 ≤ b.toNat ∧ b.toNat ≤ 126

/-- What two runs are given. -/
abbrev Concealed : Str → Str → Prop := SameBut (· ∈ sensitiveWords) Printable

/-- What redaction makes the same. -/
abbrev Hidden : Str → Str → Prop := SameBut (isSensitive · = true) (· ≠ 32)

/-- The same byte, or two that cut nothing. -/
def Veiled (b c : UInt8) : Prop := b = c ∨ Printable b ∧ Printable c

abbrev Alike : Str → Str → Prop := List.Forall₂ Veiled

theorem alike_refl (s : Str) : Alike s s := by
  induction s with
  | nil => exact .nil
  | cons b s ih => exact .cons (.inl rfl) ih

namespace SameBut

variable {Key : Str → Prop} {Value : UInt8 → Prop} {s t : Str}

theorem refl (s : Str) : SameBut Key Value s s := by
  induction s with
  | nil => exact .nil
  | cons b s ih => exact .byte b ih

theorem symm (h : SameBut Key Value s t) : SameBut Key Value t s := by
  induction h with
  | nil => exact .nil
  | byte b _ ih => exact .byte b ih
  | value hk hne hlength hv hw _ ih =>
    refine .value hk ?_ hlength.symm hw hv ih
    intro hnil
    rw [hnil] at hlength
    exact hne (List.eq_nil_of_length_eq_zero hlength)

theorem append_same (front : Str) (h : SameBut Key Value s t) : SameBut Key Value (front ++ s) (front ++ t) := by
  induction front with
  | nil => exact h
  | cons b front ih => exact .byte b ih

theorem append (h : SameBut Key Value s t) (rest : Str) : SameBut Key Value (s ++ rest) (t ++ rest) := by
  induction h with
  | nil => exact refl rest
  | byte b _ ih => exact .byte b ih
  | value hk hne hlength hv hw _ ih =>
    simp only [List.append_assoc, List.cons_append]
    exact .value hk hne hlength hv hw ih

theorem take (h : SameBut Key Value s t) (n : Nat) : SameBut Key Value (s.take n) (t.take n) := by
  induction h generalizing n with
  | nil => exact refl _
  | byte b _ ih =>
    cases n with
    | zero => exact .nil
    | succ n => exact .byte b (ih n)
  | @value key v w s t hk hne hlength hv hw _ ih =>
    by_cases hn : n ≤ key.length + 1
    · have hfront : ∀ x : Str, (key ++ 61 :: x).take n = (key ++ [61]).take n := by
        intro x
        have hle : n ≤ (key ++ [61]).length := by simpa using hn
        have htake : ((key ++ [61]) ++ x).take n = (key ++ [61]).take n := List.take_append_of_le_length hle
        rw [← htake]
        simp
      rw [hfront (v ++ s), hfront (w ++ t)]
      exact refl _
    · obtain ⟨m, rfl⟩ : ∃ m, n = key.length + (1 + (m + 1)) := ⟨n - key.length - 2, by omega⟩
      have hfront : ∀ x : Str, (key ++ 61 :: x).take (key.length + (1 + (m + 1))) = key ++ 61 :: x.take (m + 1) := by
        intro x
        rw [List.take_length_add_append, Nat.add_comm 1, List.take_succ_cons]
      rw [hfront (v ++ s), hfront (w ++ t), List.take_append, List.take_append, ← hlength]
      refine .value hk ?_ ?_ (fun b hb => hv b (List.mem_of_mem_take hb)) (fun b hb => hw b (List.mem_of_mem_take hb)) (ih _)
      · cases v with
        | nil => exact absurd rfl hne
        | cons b v => simp
      · rw [List.length_take, List.length_take, hlength]

theorem alike (h : SameBut Key Printable s t) : Alike s t := by
  induction h with
  | nil => exact .nil
  | byte b _ ih => exact .cons (.inl rfl) ih
  | @value key v w s t hk hne hlength hv hw _ ih =>
    have hvalue : Alike v w := by
      unfold Alike
      rw [List.forall₂_iff_get]
      exact ⟨hlength, fun i hi hi' => .inr ⟨hv _ (List.get_mem ..), hw _ (List.get_mem ..)⟩⟩
    have hall := List.rel_append (alike_refl (key ++ [61])) (List.rel_append hvalue ih)
    simpa using hall

end SameBut

/-! ## What redaction does -/

theorem letterUnits_plain : ∀ word ∈ sensitiveWords, ∀ letter ∈ word, ∀ unit ∈ letterUnits letter, ∀ b ∈ unit, b ≠ 32 ∧ b ≠ 61 := by
  decide +kernel

theorem folds_plain {word key : Str} (h : folds word key = true)
    (hw : ∀ letter ∈ word, ∀ unit ∈ letterUnits letter, ∀ b ∈ unit, b ≠ 32 ∧ b ≠ 61) : 32 ∉ key ∧ 61 ∉ key := by
  induction word generalizing key with
  | nil =>
    rw [folds, List.isEmpty_iff] at h
    rw [h]
    exact ⟨List.not_mem_nil, List.not_mem_nil⟩
  | cons letter word ih =>
    rw [folds, List.any_eq_true] at h
    obtain ⟨unit, hm, hu⟩ := h
    rw [Bool.and_eq_true, List.isPrefixOf_iff_prefix] at hu
    obtain ⟨⟨rest, rfl⟩, hrest⟩ := hu
    rw [List.drop_left] at hrest
    obtain ⟨hspace, hequals⟩ := ih hrest fun l hl => hw l (List.mem_cons_of_mem _ hl)
    have hunit := hw letter (List.mem_cons_self ..) unit hm
    rw [List.mem_append, List.mem_append, not_or, not_or]
    exact ⟨⟨fun hb => (hunit 32 hb).1 rfl, hspace⟩, fun hb => (hunit 61 hb).2 rfl, hequals⟩

theorem isSensitive_nil : isSensitive [] = false := by decide

theorem isSensitive_plain {key : Str} (h : isSensitive key = true) : 32 ∉ key ∧ 61 ∉ key := by
  obtain ⟨word, hm, hf⟩ := List.any_eq_true.mp h
  exact folds_plain hf (letterUnits_plain word hm)

theorem takeWhile_key {key : Str} (h : 61 ∉ key) (rest : Str) : (key ++ 61 :: rest).takeWhile (· ≠ 61) = key := by
  rw [List.takeWhile_append_of_pos, List.takeWhile_cons_of_neg (by simp), List.append_nil]
  intro b hb
  exact decide_eq_true fun he => h (he ▸ hb)

theorem dropWhile_key {key : Str} (h : 61 ∉ key) (rest : Str) : (key ++ 61 :: rest).dropWhile (· ≠ 61) = 61 :: rest := by
  rw [List.dropWhile_append_of_pos, List.dropWhile_cons_of_neg (by simp)]
  intro b hb
  exact decide_eq_true fun he => h (he ▸ hb)

theorem sensitiveMatch_iff {s key rest : Str} : sensitiveMatch s = some (key, rest) ↔
    isSensitive key = true ∧ ∃ b more, b ≠ 32 ∧ s = key ++ 61 :: b :: more ∧ rest = more.dropWhile (· ≠ 32) := by
  unfold sensitiveMatch
  constructor
  · intro h
    split at h
    · rename_i hkey
      split at h
      · rename_i b more hbehind
        split at h
        · cases h
        · rename_i hb
          cases h
          refine ⟨hkey, b, more, hb, ?_, rfl⟩
          rw [← hbehind, List.takeWhile_append_dropWhile]
      · cases h
    · cases h
  · rintro ⟨hkey, b, more, hb, rfl, rfl⟩
    have hplain := (isSensitive_plain hkey).2
    simp only [takeWhile_key hplain, dropWhile_key hplain, hkey, if_true, if_neg hb]

theorem redactFrom_match {s key rest : Str} (h : sensitiveMatch s = some (key, rest)) (fuel : Nat) :
    redactFrom (fuel + 1) s = key ++ logBytes "=[redacted]" ++ redactFrom fuel rest := by
  conv_lhs => unfold redactFrom
  simp only [h]

theorem redactFrom_byte {b : UInt8} {s : Str} (h : sensitiveMatch (b :: s) = none) (fuel : Nat) :
    redactFrom (fuel + 1) (b :: s) = b :: redactFrom fuel s := by
  conv_lhs => unfold redactFrom
  simp only [h]

theorem length_sensitiveMatch {s key rest : Str} (h : sensitiveMatch s = some (key, rest)) :
    key.length + rest.length + 2 ≤ s.length := by
  obtain ⟨-, b, more, -, rfl, rfl⟩ := sensitiveMatch_iff.mp h
  have hdrop := (List.dropWhile_suffix (l := more) (· ≠ 32)).length_le
  simp only [List.length_cons, List.length_append]
  omega

theorem redactFrom_enough : ∀ {fuel : Nat} {s : Str}, s.length ≤ fuel → redactFrom fuel s = redactServerLog s := by
  intro fuel
  induction fuel using Nat.strongRecOn with
  | ind fuel ih =>
    intro s h
    unfold redactServerLog
    cases fuel with
    | zero => rw [List.eq_nil_of_length_eq_zero (Nat.le_zero.mp h)]; rfl
    | succ fuel =>
      cases s with
      | nil => rfl
      | cons b s =>
        rw [List.length_cons] at h ⊢
        cases hm : sensitiveMatch (b :: s) with
        | none =>
          rw [redactFrom_byte hm, redactFrom_byte hm, ih fuel (Nat.lt_succ_self _) (by omega)]
          rfl
        | some found =>
          obtain ⟨key, rest⟩ := found
          have hle := length_sensitiveMatch hm
          rw [List.length_cons] at hle
          rw [redactFrom_match hm, redactFrom_match hm, ih fuel (Nat.lt_succ_self _) (by omega),
            ih s.length (by omega) (by omega)]

theorem redact_match {s key rest : Str} (h : sensitiveMatch s = some (key, rest)) :
    redactServerLog s = key ++ logBytes "=[redacted]" ++ redactServerLog rest := by
  have hle := length_sensitiveMatch h
  obtain ⟨n, hn⟩ : ∃ n, s.length = n + 1 := ⟨s.length - 1, by omega⟩
  rw [redactServerLog, hn, redactFrom_match h, redactFrom_enough (by omega)]

theorem redact_byte {b : UInt8} {s : Str} (h : sensitiveMatch (b :: s) = none) :
    redactServerLog (b :: s) = b :: redactServerLog s := by
  rw [redactServerLog, List.length_cons, redactFrom_byte h]
  rfl

theorem redact_nil : redactServerLog [] = [] := rfl

/-! ## Two texts that become the same -/

/-- The first byte stays. -/
theorem head_redact (s : Str) : (redactServerLog s).head? = s.head? := by
  cases s with
  | nil => rfl
  | cons b s =>
    cases hm : sensitiveMatch (b :: s) with
    | none => rw [redact_byte hm]; rfl
    | some found =>
      obtain ⟨key, rest⟩ := found
      obtain ⟨hkey, c, more, -, hs, -⟩ := sensitiveMatch_iff.mp hm
      rw [redact_match hm, hs]
      cases key with
      | nil => cases isSensitive_nil.symm.trans hkey
      | cons k key => rfl

theorem equals_inj {key key' rest rest' : Str} (h : key ++ 61 :: rest = key' ++ 61 :: rest') (hk : 61 ∉ key)
    (hk' : 61 ∉ key') : key = key' ∧ rest = rest' := by
  have htake := congrArg (List.takeWhile (· ≠ 61)) h
  rw [takeWhile_key hk, takeWhile_key hk'] at htake
  subst htake
  simpa using h

theorem redact_match_equals {s key rest : Str} (h : sensitiveMatch s = some (key, rest)) :
    ∃ more, redactServerLog s = key ++ 61 :: 91 :: more := by
  refine ⟨logBytes "redacted]" ++ redactServerLog rest, ?_⟩
  rw [redact_match h, List.append_assoc]
  rfl

/-- What reads like a key with a value after redaction did so before. -/
theorem reads_of_redact {key : Str} (hkey : 61 ∉ key) : ∀ {s : Str} {c : UInt8} {z : Str}, c ≠ 32 →
    redactServerLog s = key ++ 61 :: c :: z → ∃ b more, b ≠ 32 ∧ s = key ++ 61 :: b :: more := by
  induction key with
  | nil =>
    intro s c z hc h
    cases s with
    | nil => cases h
    | cons b s =>
      cases hm : sensitiveMatch (b :: s) with
      | some found =>
        obtain ⟨key', rest⟩ := found
        obtain ⟨hkey', b', more, -, hs, -⟩ := sensitiveMatch_iff.mp hm
        have hhead := head_redact (b :: s)
        rw [h, hs] at hhead
        cases key' with
        | nil => cases isSensitive_nil.symm.trans hkey'
        | cons k key' =>
          cases hhead
          exact absurd (List.mem_cons_self ..) (isSensitive_plain hkey').2
      | none =>
        rw [redact_byte hm, List.nil_append] at h
        injection h with hb hrest
        have hhead := head_redact s
        rw [hrest] at hhead
        cases s with
        | nil => cases hhead
        | cons b' s =>
          cases hhead
          exact ⟨c, s, hc, by rw [hb]; rfl⟩
  | cons k key ih =>
    intro s c z hc h
    cases s with
    | nil => cases h
    | cons b s =>
      cases hm : sensitiveMatch (b :: s) with
      | some found =>
        obtain ⟨key', rest⟩ := found
        obtain ⟨hkey', b', more, hb', hs, -⟩ := sensitiveMatch_iff.mp hm
        obtain ⟨more', hred⟩ := redact_match_equals hm
        rw [hred] at h
        obtain ⟨rfl, -⟩ := equals_inj h (isSensitive_plain hkey').2 hkey
        exact ⟨b', more, hb', hs⟩
      | none =>
        rw [redact_byte hm] at h
        injection h with hb hrest
        obtain ⟨b', more, hb', rfl⟩ := ih (fun hm => hkey (List.mem_cons_of_mem _ hm)) hc hrest
        exact ⟨b', more, hb', by rw [hb]; rfl⟩

/-- Cut at the first space, texts that are hidden stay so. -/
theorem SameBut.behindSpace {s t : Str} (h : Hidden s t) :
    Hidden (s.dropWhile (· ≠ 32)) (t.dropWhile (· ≠ 32)) := by
  induction h with
  | nil => exact .nil
  | @byte b s t h ih =>
    by_cases hb : b = 32
    · rw [List.dropWhile_cons_of_neg (by simp [hb]), List.dropWhile_cons_of_neg (by simp [hb])]
      exact .byte b h
    · rw [List.dropWhile_cons_of_pos (by simp [hb]), List.dropWhile_cons_of_pos (by simp [hb])]
      exact ih
  | @value key v w s t hk _ _ hv hw _ ih =>
    have hskip : ∀ {x : Str}, (∀ b ∈ x, b ≠ 32) → ∀ y : Str,
        (key ++ 61 :: (x ++ y)).dropWhile (· ≠ 32) = y.dropWhile (· ≠ 32) := by
      intro x hx y
      rw [List.dropWhile_append_of_pos, List.dropWhile_cons_of_pos (by decide), List.dropWhile_append_of_pos]
      · exact fun b hb => decide_eq_true (hx b hb)
      · intro b hb
        exact decide_eq_true fun he => (isSensitive_plain hk).1 (he ▸ hb)
    rw [hskip hv, hskip hw]
    exact ih

theorem SameBut.head {s t : Str} (h : Hidden s t) : s.head? = t.head? := by
  cases h with
  | nil => rfl
  | byte b h => rfl
  | @value key v w s t hk _ _ _ _ _ =>
    cases key with
    | nil => cases isSensitive_nil.symm.trans hk
    | cons k key => rfl

/-- Behind a key, hidden texts both have a value or neither has. -/
theorem SameBut.behindKey {key u y : Str} (hkey : 61 ∉ key) (h : Hidden (key ++ 61 :: u) y) :
    ∃ u', y = key ++ 61 :: u' ∧ Hidden (u.dropWhile (· ≠ 32)) (u'.dropWhile (· ≠ 32)) ∧
      ∀ b more, u = b :: more → b ≠ 32 → ∃ b' more', u' = b' :: more' ∧ b' ≠ 32 := by
  generalize hx : key ++ 61 :: u = x at h
  induction h generalizing key with
  | nil => simp at hx
  | @byte b s t h ih =>
    cases key with
    | nil =>
      cases hx
      refine ⟨t, rfl, h.behindSpace, ?_⟩
      rintro b more rfl hb
      have hhead := h.head
      cases t with
      | nil => cases hhead
      | cons b' t =>
        cases hhead
        exact ⟨b, t, rfl, hb⟩
    | cons k key =>
      injection hx with hk hx
      obtain ⟨u', rfl, hu⟩ := ih (fun hm => hkey (List.mem_cons_of_mem _ hm)) hx
      exact ⟨u', by rw [hk]; rfl, hu⟩
  | @value key' v w s t hk hne hlength hv hw h _ =>
    obtain ⟨rfl, rfl⟩ := equals_inj hx hkey (isSensitive_plain hk).2
    have hskip : ∀ {x : Str}, (∀ b ∈ x, b ≠ 32) → ∀ y : Str, (x ++ y).dropWhile (· ≠ 32) = y.dropWhile (· ≠ 32) := by
      intro x hx y
      exact List.dropWhile_append_of_pos fun b hb => decide_eq_true (hx b hb)
    refine ⟨w ++ t, rfl, ?_, ?_⟩
    · rw [hskip hv, hskip hw]
      exact h.behindSpace
    · intro b more _ _
      cases w with
      | nil => exact absurd (List.eq_nil_of_length_eq_zero hlength) hne
      | cons b' w => exact ⟨b', w ++ t, rfl, hw b' (List.mem_cons_self ..)⟩

theorem SameBut.match_some {x y key rest : Str} (h : Hidden x y) (hm : sensitiveMatch x = some (key, rest)) :
    ∃ rest', sensitiveMatch y = some (key, rest') ∧ Hidden rest rest' := by
  obtain ⟨hkey, b, more, hb, rfl, rfl⟩ := sensitiveMatch_iff.mp hm
  obtain ⟨u', rfl, hrest, hvalue⟩ := h.behindKey (isSensitive_plain hkey).2
  obtain ⟨b', more', rfl, hb'⟩ := hvalue b more rfl hb
  refine ⟨more'.dropWhile (· ≠ 32), sensitiveMatch_iff.mpr ⟨hkey, b', more', hb', rfl, rfl⟩, ?_⟩
  rwa [List.dropWhile_cons_of_pos (by simp [hb]), List.dropWhile_cons_of_pos (by simp [hb'])] at hrest

theorem redact_of_hidden : ∀ {x y : Str}, Hidden x y → redactServerLog x = redactServerLog y := by
  intro x
  induction hn : x.length using Nat.strongRecOn generalizing x with
  | ind n ih =>
    subst hn
    intro y h
    cases hm : sensitiveMatch x with
    | some found =>
      obtain ⟨key, rest⟩ := found
      obtain ⟨rest', hm', hrest⟩ := h.match_some hm
      have hle := length_sensitiveMatch hm
      rw [redact_match hm, redact_match hm', ih rest.length (by omega) rfl hrest]
    | none =>
      have hm' : sensitiveMatch y = none := by
        cases hm' : sensitiveMatch y with
        | none => rfl
        | some found =>
          obtain ⟨rest, hx, -⟩ := h.symm.match_some hm'
          rw [hm] at hx
          cases hx
      cases h with
      | nil => rfl
      | byte b h =>
        rw [redact_byte hm, redact_byte hm', ih _ (Nat.lt_succ_self _) rfl h]
      | @value key v w s t hk hne _ hv _ _ =>
        cases v with
        | nil => exact absurd rfl hne
        | cons b v =>
          have hx := sensitiveMatch_iff.mpr ⟨hk, b, v ++ s, hv b (List.mem_cons_self ..), rfl, rfl⟩
          cases hm.symm.trans hx

theorem Veiled.space {b c : UInt8} (h : Veiled b c) : b = 32 ↔ c = 32 := by
  rcases h with rfl | ⟨hb, hc⟩
  · exact Iff.rfl
  · constructor
    · rintro rfl
      exact absurd hb.1 (by decide)
    · rintro rfl
      exact absurd hc.1 (by decide)

/-- Texts that are alike are cut at the same space. -/
theorem Alike.cutSpace {s t : Str} (h : Alike s t) : Alike (s.dropWhile (· ≠ 32)) (t.dropWhile (· ≠ 32)) ∧
    (s.takeWhile (· ≠ 32)).length = (t.takeWhile (· ≠ 32)).length := by
  induction h with
  | nil => exact ⟨.nil, rfl⟩
  | @cons b c s t hbc h ih =>
    by_cases hb : b = 32
    · have hc := hbc.space.mp hb
      simp only [List.dropWhile_cons, List.takeWhile_cons, hb, hc]
      exact ⟨.cons (.inl rfl) h, rfl⟩
    · have hc := mt hbc.space.mpr hb
      simp only [List.dropWhile_cons, List.takeWhile_cons, hb, hc, ne_eq, not_false_eq_true, decide_true, if_true,
        List.length_cons, ih.2]
      exact ⟨ih.1, trivial⟩

theorem hidden_of_redact : ∀ {x y : Str}, Alike x y → redactServerLog x = redactServerLog y → Hidden x y := by
  intro x
  induction hn : x.length using Nat.strongRecOn generalizing x with
  | ind n ih =>
    subst hn
    intro y ha h
    cases hm : sensitiveMatch x with
    | some found =>
      obtain ⟨key, rest⟩ := found
      obtain ⟨more, hred⟩ := redact_match_equals hm
      have hle := length_sensitiveMatch hm
      obtain ⟨hkey, b, u, hb, rfl, rfl⟩ := sensitiveMatch_iff.mp hm
      obtain ⟨b', u', hb', rfl⟩ := reads_of_redact (isSensitive_plain hkey).2 (by decide) (h.symm.trans hred)
      have hm' := sensitiveMatch_iff.mpr ⟨hkey, b', u', hb', rfl, rfl⟩
      have hu : Alike u u' := by
        have hdrop := List.forall₂_drop (key.length + 2) ha
        have hbehind : ∀ (c : UInt8) (z : Str), (key ++ 61 :: c :: z).drop (key.length + 2) = z := by
          intro c z
          rw [List.drop_length_add_append]
          rfl
        rwa [hbehind, hbehind] at hdrop
      rw [redact_match hm, redact_match hm', List.append_cancel_left_eq] at h
      have hrest := ih _ (by omega) rfl hu.cutSpace.1 h
      have hvalue : ∀ c : UInt8, c ≠ 32 → ∀ z : Str, ∀ d ∈ c :: z.takeWhile (· ≠ 32), d ≠ 32 := by
        intro c hc z d hd
        rcases List.mem_cons.mp hd with rfl | hd
        · exact hc
        · have hspace := List.mem_takeWhile_imp hd
          simpa using hspace
      have hjoined := SameBut.value hkey (List.cons_ne_nil b (u.takeWhile (· ≠ 32)))
        (show _ = (b' :: u'.takeWhile (· ≠ 32)).length by rw [List.length_cons, List.length_cons, hu.cutSpace.2])
        (hvalue b hb u) (hvalue b' hb' u') hrest
      simpa only [List.cons_append, List.takeWhile_append_dropWhile] using hjoined
    | none =>
      have hm' : sensitiveMatch y = none := by
        cases hm' : sensitiveMatch y with
        | none => rfl
        | some found =>
          obtain ⟨key, rest⟩ := found
          obtain ⟨more, hred⟩ := redact_match_equals hm'
          have hkey := (sensitiveMatch_iff.mp hm').1
          obtain ⟨b, u, hb, hx⟩ := reads_of_redact (isSensitive_plain hkey).2 (by decide) (h.trans hred)
          have hx' := sensitiveMatch_iff.mpr ⟨hkey, b, u, hb, hx, rfl⟩
          rw [hm] at hx'
          cases hx'
      cases ha with
      | nil => exact .nil
      | @cons b c x y _ ha =>
        rw [redact_byte hm, redact_byte hm'] at h
        injection h with hbc hrest
        rw [← hbc]
        exact .byte b (ih _ (Nat.lt_succ_self _) rfl ha hrest)

/-- Redaction makes two texts the same exactly if they differ in values behind keys alone. -/
theorem redact_eq_iff {x y : Str} (h : Alike x y) : redactServerLog x = redactServerLog y ↔ Hidden x y :=
  ⟨hidden_of_redact h, redact_of_hidden⟩

/-! ## Pieces -/

/-- The pieces into which calls of `Write` cut what they are given, the last of them at the flush: lines, and of an
unfinished line longer than the limit its front. -/
def logPieces : Str → List Str → List Str
  | line, [] => [line]
  | line, chunk :: data =>
    let last := lastLine (line ++ chunk)
    ((line ++ chunk).splitOn 10).dropLast ++
      if serverLogMessageLimit < last.length then
        last.take serverLogMessageLimit :: logPieces (last.drop serverLogMessageLimit) data
      else logPieces last data

/-- What the log shows of a piece. -/
def visible (piece : Str) : Str := (trimSpace piece).take serverLogMessageLimit

namespace LogWriter

theorem publishLines_lines (w : LogWriter) : w.publishLines =
    { pending := lastLine w.pending, published := w.published ++ (w.pending.splitOn 10).dropLast } := by
  induction w using publishLines.induct with
  | case1 w hnone =>
    have hmem := not_mem_of_findIdx? hnone
    rw [publishLines]
    split
    · rw [lastLine_of_not_mem hmem, List.splitOn_eq_singleton hmem]
      simp
    · rename_i index hindex
      cases hnone.symm.trans hindex
  | case2 w index hindex ih =>
    obtain ⟨hsplit, hmem⟩ := findIdx?_newline hindex
    rw [publishLines]
    split
    · rename_i hnone
      cases hnone.symm.trans hindex
    · rename_i index' hindex'
      cases hindex.symm.trans hindex'
      rw [ih]
      have hlines : w.pending.splitOn 10 = w.pending.take index :: (w.pending.drop (index + 1)).splitOn 10 := by
        conv_lhs => rw [hsplit]
        exact List.splitOn_append_cons_self_of_not_mem hmem _
      have hline : lastLine w.pending = lastLine (w.pending.drop (index + 1)) := by
        conv_lhs => rw [hsplit]
        exact lastLine_newline ..
      rw [hlines, hline, List.dropLast_cons_of_ne_nil (List.splitOn_ne_nil 10 _)]
      simp [publish]

theorem lineMessage_flush (w : LogWriter) :
    w.flush.published.flatMap lineMessage = w.published.flatMap lineMessage ++ lineMessage w.pending := by
  unfold flush
  by_cases hblank : trimSpace w.pending = []
  · rw [if_neg (not_not.mpr hblank), lineMessage, if_pos hblank, List.append_nil]
  · rw [if_pos hblank]
    simp [publish]

theorem lineMessage_writes (data : List Str) : ∀ w : LogWriter,
    (data.foldl write w).flush.published.flatMap lineMessage =
      w.published.flatMap lineMessage ++ (logPieces w.pending data).flatMap lineMessage := by
  induction data with
  | nil =>
    intro w
    rw [List.foldl_nil, lineMessage_flush, logPieces, List.flatMap_singleton]
  | cons chunk data ih =>
    intro w
    rw [List.foldl_cons, ih, logPieces, write, publishLines_lines]
    by_cases hlong : serverLogMessageLimit < (lastLine (w.pending ++ chunk)).length
    · simp only [hlong, if_true, publish, List.flatMap_append, List.flatMap_cons, List.flatMap_nil, List.append_nil,
        List.append_assoc]
    · simp only [hlong, if_false, List.flatMap_append, List.append_assoc]

theorem lastLine_noNewline (data : Str) : 10 ∉ lastLine data := by
  induction data with
  | nil => exact List.not_mem_nil
  | cons b data ih =>
    rw [lastLine]
    by_cases hm : 10 ∈ b :: data
    · rw [if_pos hm]
      exact ih
    · rw [if_neg hm]
      exact hm

theorem pending_noNewline (data : List Str) : 10 ∉ (writes data).pending := by
  rcases List.eq_nil_or_concat data with rfl | ⟨front, chunk, rfl⟩
  · exact List.not_mem_nil
  · rw [List.concat_eq_append, writes_concat, (write_cuts (writes_cuts front) chunk).2]
    exact fun hm => lastLine_noNewline _ (List.mem_of_mem_drop hm)

theorem published_noNewline (data : List Str) : ∀ text ∈ (writes data).flush.published, 10 ∉ text := by
  have hbefore : ∀ text ∈ (writes data).published, 10 ∉ text := by
    obtain ⟨cuts, hsound, hpublished, -⟩ := writes_cuts data
    intro text hm
    rw [hpublished] at hm
    obtain ⟨cut, hcut, rfl⟩ := List.mem_map.mp hm
    cases cut with
    | newline line => exact hsound _ hcut
    | limit piece => exact (hsound _ hcut).1
  unfold flush
  split
  · intro text hm
    rcases List.mem_append.mp hm with hm | hm
    · exact hbefore text hm
    · rw [List.mem_singleton.mp hm]
      exact pending_noNewline data
  · exact hbefore

/-- The messages of a writer are those of the pieces. -/
theorem messages_hub (now : Nat → Int) (source : Str) (data : List Str) :
    (hub now source data).messages = (logPieces [] data).flatMap lineMessage := by
  unfold hub
  rw [ServerLogHub.messages_append_lines now source (published_noNewline data)]
  exact lineMessage_writes data {}

end LogWriter

/-! ## Pieces of texts that are alike -/

theorem Veiled.newline {b c : UInt8} (h : Veiled b c) : b = 10 ↔ c = 10 := by
  rcases h with rfl | ⟨hb, hc⟩
  · exact Iff.rfl
  · constructor
    · rintro rfl
      exact absurd hb.1 (by decide)
    · rintro rfl
      exact absurd hc.1 (by decide)

namespace Alike

variable {s t : Str}

theorem newline (h : Alike s t) : 10 ∈ s ↔ 10 ∈ t := by
  induction h with
  | nil => exact Iff.rfl
  | cons hbc _ ih =>
    rw [List.mem_cons, List.mem_cons, ih, eq_comm, hbc.newline, eq_comm]

theorem lastLine (h : Alike s t) : Alike (lastLine s) (lastLine t) := by
  induction h with
  | nil => exact .nil
  | @cons b c s t hbc h ih =>
    have hm := newline (.cons hbc h)
    rw [Webshell.lastLine, Webshell.lastLine]
    by_cases hs : 10 ∈ b :: s
    · rw [if_pos hs, if_pos (hm.mp hs)]
      exact ih
    · rw [if_neg hs, if_neg (mt hm.mpr hs)]
      exact .cons hbc h

theorem splitOn (h : Alike s t) : List.Forall₂ Alike (s.splitOn 10) (t.splitOn 10) := by
  induction h with
  | nil => exact .cons .nil .nil
  | @cons b c s t hbc h ih =>
    rw [List.splitOn_cons_eq_if_modifyHead, List.splitOn_cons_eq_if_modifyHead]
    by_cases hb : b = 10
    · have hc := hbc.newline.mp hb
      simp only [hb, hc, beq_self_eq_true, if_true]
      exact .cons .nil ih
    · have hc := mt hbc.newline.mpr hb
      simp only [beq_iff_eq, hb, hc, if_false]
      generalize s.splitOn 10 = xs at ih ⊢
      generalize t.splitOn 10 = ys at ih ⊢
      cases ih with
      | nil => exact .nil
      | cons hline hlines => exact .cons (.cons hbc hline) hlines

/-- No unit has a printable byte, so that alike texts begin with the same ones. -/
theorem prefix_iff (h : Alike s t) : ∀ {unit : Str}, (∀ b ∈ unit, ¬Printable b) → (unit <+: s ↔ unit <+: t) := by
  induction h with
  | nil => exact fun _ => Iff.rfl
  | @cons b c s t hbc h ih =>
    intro unit hunit
    cases unit with
    | nil => exact ⟨fun _ => List.nil_prefix, fun _ => List.nil_prefix⟩
    | cons d unit =>
      have hd := hunit d (List.mem_cons_self ..)
      have hrest := @ih unit fun b hb => hunit b (List.mem_cons_of_mem _ hb)
      rw [List.cons_prefix_cons, List.cons_prefix_cons, hrest]
      have heq : d = b ↔ d = c := by
        rcases hbc with rfl | ⟨hb, hc⟩
        · exact Iff.rfl
        · exact ⟨fun he => absurd (he ▸ hb) hd, fun he => absurd (he ▸ hc) hd⟩
      rw [heq]

theorem dropUnits {units : List Str} (hu : ∀ unit ∈ units, ∀ b ∈ unit, ¬Printable b) (fuel : Nat) :
    ∀ {s t : Str}, Alike s t → Alike (dropUnits units fuel s) (dropUnits units fuel t) := by
  induction fuel with
  | zero => exact id
  | succ fuel ih =>
    intro s t h
    have hsame : units.find? (·.isPrefixOf s) = units.find? (·.isPrefixOf t) := by
      apply List.find?_congr
      intro unit hm
      rw [Bool.eq_iff_iff, List.isPrefixOf_iff_prefix, List.isPrefixOf_iff_prefix]
      exact h.prefix_iff (hu unit hm)
    rw [GoBytes.dropUnits, GoBytes.dropUnits, hsame]
    cases units.find? (·.isPrefixOf t) with
    | none => exact h
    | some unit => exact ih (List.forall₂_drop _ h)

theorem spaces_plain : ∀ unit ∈ spaces, ∀ b ∈ unit, ¬Printable b := by
  unfold Printable
  decide +kernel

theorem trimSpace (h : Alike s t) : Alike (trimSpace s) (trimSpace t) := by
  unfold GoBytes.trimSpace trimRightSpace trimLeftSpace
  have hleft : Alike (GoBytes.dropUnits spaces s.length s) (GoBytes.dropUnits spaces t.length t) := by
    rw [h.length_eq]
    exact dropUnits spaces_plain _ h
  rw [hleft.length_eq]
  refine List.rel_reverse (dropUnits ?_ _ (List.rel_reverse hleft))
  intro unit hm b hb
  obtain ⟨unit, hunit, rfl⟩ := List.mem_map.mp hm
  exact spaces_plain unit hunit b (List.mem_reverse.mp hb)

end Alike

theorem forall₂_dropLast {α : Type} {R : α → α → Prop} {xs ys : List α} (h : List.Forall₂ R xs ys) :
    List.Forall₂ R xs.dropLast ys.dropLast := by
  rw [List.dropLast_eq_take, List.dropLast_eq_take, h.length_eq]
  exact List.forall₂_take _ h

theorem alike_logPieces {data data' : List Str} (h : List.Forall₂ Alike data data') : ∀ {line line' : Str},
    Alike line line' → List.Forall₂ Alike (logPieces line data) (logPieces line' data') := by
  induction h with
  | nil => exact fun hline => .cons hline .nil
  | @cons chunk chunk' data data' hchunk _ ih =>
    intro line line' hline
    have hall : Alike (line ++ chunk) (line' ++ chunk') := List.rel_append hline hchunk
    have hlast := hall.lastLine
    rw [logPieces, logPieces]
    refine List.rel_append (forall₂_dropLast hall.splitOn) ?_
    rw [hlast.length_eq]
    split
    · exact .cons (List.forall₂_take _ hlast) (ih (List.forall₂_drop _ hlast))
    · exact ih hlast

/-- Alike pieces have the same message exactly if what is shown of them is hidden. -/
theorem lineMessage_eq_iff {p q : Str} (h : Alike p q) :
    (lineMessage p).length = (lineMessage q).length ∧ (lineMessage p = lineMessage q ↔ Hidden (visible p) (visible q)) := by
  have htrim := h.trimSpace
  unfold lineMessage visible
  generalize trimSpace p = x at htrim ⊢
  generalize trimSpace q = y at htrim ⊢
  have hnil : x = [] ↔ y = [] := by
    cases htrim with
    | nil => exact Iff.rfl
    | cons => simp
  by_cases hx : x = []
  · rw [if_pos hx, if_pos (hnil.mp hx), hx, hnil.mp hx]
    exact ⟨rfl, fun _ => .nil, fun _ => rfl⟩
  · rw [if_neg hx, if_neg (mt hnil.mpr hx)]
    refine ⟨rfl, ?_⟩
    rw [List.cons.injEq, and_iff_left rfl]
    have hfront := List.forall₂_take serverLogMessageLimit htrim
    unfold ServerLogHub.limited
    rw [htrim.length_eq]
    by_cases hlong : serverLogMessageLimit < y.length
    · rw [if_pos hlong, if_pos hlong, redact_eq_iff (List.rel_append hfront (alike_refl _))]
      constructor
      · intro hh
        have htake := hh.take serverLogMessageLimit
        have hlx : (x.take serverLogMessageLimit).length = serverLogMessageLimit := by
          rw [List.length_take, htrim.length_eq]
          omega
        have hly : (y.take serverLogMessageLimit).length = serverLogMessageLimit := by
          rw [List.length_take]
          omega
        rwa [List.take_left' hlx, List.take_left' hly] at htake
      · exact fun hh => hh.append _
    · rw [if_neg hlong, if_neg hlong, redact_eq_iff htrim, List.take_of_length_le (by rw [htrim.length_eq]; omega),
        List.take_of_length_le (by omega)]

theorem messages_eq_iff {ps qs : List Str} (h : List.Forall₂ Alike ps qs) :
    ps.flatMap lineMessage = qs.flatMap lineMessage ↔ List.Forall₂ (fun p q => Hidden (visible p) (visible q)) ps qs := by
  induction h with
  | nil => exact ⟨fun _ => .nil, fun _ => rfl⟩
  | cons hpq _ ih =>
    obtain ⟨hlength, hmessage⟩ := lineMessage_eq_iff hpq
    rw [List.flatMap_cons, List.flatMap_cons, List.forall₂_cons, ← hmessage, ← ih]
    constructor
    · exact fun heq => List.append_inj heq hlength
    · rintro ⟨hline, hlines⟩
      rw [hline, hlines]

/-- Chunks of the same lengths of texts that are alike. -/
theorem alike_chunks : ∀ {data data' : List Str}, data.map List.length = data'.map List.length →
    Alike data.flatten data'.flatten → List.Forall₂ Alike data data'
  | [], [], _, _ => .nil
  | chunk :: data, chunk' :: data', hlengths, h => by
    rw [List.map_cons, List.map_cons, List.cons.injEq] at hlengths
    rw [List.flatten_cons, List.flatten_cons] at h
    have hfront := List.forall₂_take chunk.length h
    have hback := List.forall₂_drop chunk.length h
    rw [List.take_left, List.take_left' hlengths.1.symm] at hfront
    rw [List.drop_left, List.drop_left' hlengths.1.symm] at hback
    exact .cons hfront (alike_chunks hlengths.2 hback)

/-! ## Two runs -/

/-- Two runs that differ in secrets publish the same messages exactly if every value of a secret that is shown stands
in the same piece as its key. -/
theorem secrets_redacted {data data' : List Str} (hlengths : data.map List.length = data'.map List.length)
    (h : Concealed data.flatten data'.flatten) (now now' : Nat → Int) (source : Str) :
    (LogWriter.hub now source data).messages = (LogWriter.hub now' source data').messages ↔
      List.Forall₂ (fun p q => Hidden (visible p) (visible q)) (logPieces [] data) (logPieces [] data') := by
  rw [LogWriter.messages_hub, LogWriter.messages_hub]
  exact messages_eq_iff (alike_logPieces (alike_chunks hlengths h.alike) .nil)

/-- A line with its key. -/
def secretLine (value : String) : Str := logBytes "token" ++ 61 :: (logBytes value ++ [10])

theorem secrets_redacted_line : (LogWriter.hub (fun _ => 0) [] [secretLine "abc"]).messages =
    (LogWriter.hub (fun _ => 0) [] [secretLine "xyz"]).messages := by
  have hvalue (Key : Str → Prop) (Value : UInt8 → Prop) (rest : Str) (hk : Key (logBytes "token"))
      (ha : ∀ b ∈ logBytes "abc", Value b) (hx : ∀ b ∈ logBytes "xyz", Value b) :
      SameBut Key Value (logBytes "token" ++ 61 :: (logBytes "abc" ++ rest))
        (logBytes "token" ++ 61 :: (logBytes "xyz" ++ rest)) :=
    .value hk (by decide) rfl ha hx (.refl rest)
  have hlengths : [secretLine "abc"].map List.length = [secretLine "xyz"].map List.length := rfl
  have hsecrets : Concealed [secretLine "abc"].flatten [secretLine "xyz"].flatten :=
    hvalue (· ∈ sensitiveWords) Printable [10] (by decide +kernel) (by unfold Printable; decide +kernel) (by unfold Printable; decide +kernel)
  refine (secrets_redacted hlengths hsecrets (fun _ => 0) (fun _ => 0) []).mpr ?_
  have hpieces : ∀ value ∈ ["abc", "xyz"], logPieces [] [secretLine value] = [(secretLine value).dropLast, []] ∧
      visible (secretLine value).dropLast = (secretLine value).dropLast := by
    decide +kernel
  have hnil : visible [] = [] := rfl
  rw [(hpieces "abc" (by decide)).1, (hpieces "xyz" (by decide)).1]
  refine .cons ?_ (.cons (by rw [hnil]; exact .nil) .nil)
  rw [(hpieces "abc" (by decide)).2, (hpieces "xyz" (by decide)).2]
  exact hvalue (isSensitive · = true) (· ≠ 32) [] (by decide +kernel) (by decide +kernel) (by decide +kernel)

/-- One call whose unfinished line is cut between the key and its value. -/
def cutSecret (secret : UInt8) : Str := List.replicate 8186 120 ++ logBytes "token=" ++ [secret]

theorem length_cutSecret (secret : UInt8) : (cutSecret secret).length = 8193 := by
  rw [cutSecret, List.length_append, List.length_append, List.length_replicate]
  rfl

theorem messages_cutSecret {secret : UInt8} (h : secret ≠ 10) : (logPieces [] [cutSecret secret]).flatMap lineMessage =
    lineMessage (List.replicate 8186 120 ++ logBytes "token=") ++ lineMessage [secret] := by
  have hkey : 10 ∉ logBytes "token=" := by decide
  have hmem : 10 ∉ cutSecret secret := by
    simp only [cutSecret, List.mem_append, List.mem_replicate, List.mem_singleton, not_or]
    exact ⟨⟨by decide, hkey⟩, h.symm⟩
  have hlength : (List.replicate 8186 120 ++ logBytes "token=").length = serverLogMessageLimit := by
    rw [List.length_append, List.length_replicate]
    rfl
  rw [logPieces, List.nil_append, lastLine_of_not_mem hmem, List.splitOn_eq_singleton hmem, if_pos]
  · unfold cutSecret
    rw [List.take_left' hlength, List.drop_left' hlength, logPieces]
    simp only [List.dropLast_singleton, List.nil_append, List.flatMap_cons, List.flatMap_nil, List.append_nil]
  · rw [cutSecret, List.length_append, hlength]
    exact Nat.lt_succ_self _

theorem secrets_cut : ¬∀ data data' : List Str, data.map List.length = data'.map List.length →
    Concealed data.flatten data'.flatten → ∀ (now : Nat → Int) (source : Str),
      (LogWriter.hub now source data).messages = (LogWriter.hub now source data').messages := by
  intro h
  have hsecrets : Concealed [cutSecret 97].flatten [cutSecret 98].flatten := by
    have hvalue : Concealed (logBytes "token" ++ 61 :: ([97] ++ [])) (logBytes "token" ++ 61 :: ([98] ++ [])) :=
      .value (by decide +kernel) (by decide +kernel) rfl (by unfold Printable; decide +kernel) (by unfold Printable; decide +kernel) .nil
    rw [List.flatten_singleton, List.flatten_singleton, cutSecret, cutSecret, List.append_assoc, List.append_assoc]
    exact hvalue.append_same _
  have hlengths : [cutSecret 97].map List.length = [cutSecret 98].map List.length := by
    rw [List.map_singleton, List.map_singleton, length_cutSecret, length_cutSecret]
  have heq := h [cutSecret 97] [cutSecret 98] hlengths hsecrets (fun _ => 0) []
  rw [LogWriter.messages_hub, LogWriter.messages_hub, messages_cutSecret (by decide), messages_cutSecret (by decide),
    List.append_cancel_left_eq] at heq
  exact absurd heq (by decide)

end Webshell
