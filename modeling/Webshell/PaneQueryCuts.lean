import Mathlib.Data.List.Infix
import Webshell.PaneQueries

/-!
# Where a read may be cut

The filter gives up on what it has held for too long, or on a graphics command
that is no query, by passing on all that the read has. Up to such a point a cut
does not show. Behind it a query is answered or not as the reads happen to fall,
and for each such read there is a next one that shows it.
-/

namespace Webshell

open Scanner

/-! ## Terminators -/

theorem findTerminator_append {bell : Bool} : ∀ {i : Nat} {x : Bytes} {stop : Nat},
    findTerminator bell i x = some stop → ∀ y, findTerminator bell i (x ++ y) = some stop
  | _, [], _, h, _ => by cases h
  | i, b :: rest, stop, h, y => by
    rw [findTerminator] at h
    rw [List.cons_append, findTerminator]
    split at h
    · rename_i hb; rw [if_pos hb]; exact h
    · rename_i hb
      rw [if_neg hb]
      split at h
      · rename_i he
        rw [if_pos ⟨he.1, by rw [List.head?_append, he.2]; rfl⟩]
        exact h
      · rename_i he
        have hrest := findTerminator_append h y
        split
        · rename_i hend
          -- the terminator would have to stand across the end
          cases rest with
          | nil => cases h
          | cons r rest => exact absurd ⟨hend.1, hend.2⟩ he
        · exact hrest

theorem findTerminator_bounds {bell : Bool} : ∀ {i : Nat} {x : Bytes} {stop : Nat},
    findTerminator bell i x = some stop → i < stop ∧ stop ≤ i + x.length
  | _, [], _, h => by cases h
  | i, b :: rest, stop, h => by
    rw [findTerminator] at h
    rw [List.length_cons]
    split at h
    · cases h; omega
    · split at h
      · rename_i he
        cases h
        cases rest with
        | nil => exact absurd he.2 (by simp)
        | cons r rest => rw [List.length_cons]; omega
      · have := findTerminator_bounds h
        omega

theorem findTerminator_shift (bell : Bool) (k : Nat) : ∀ (i : Nat) (x : Bytes),
    findTerminator bell (i + k) x = (findTerminator bell i x).map (· + k)
  | _, [] => rfl
  | i, b :: rest => by
    rw [findTerminator, findTerminator]
    split
    · simp only [Option.map_some]; congr 1; omega
    · split
      · simp only [Option.map_some]; congr 1; omega
      · rw [← findTerminator_shift bell k (i + 1) rest]
        congr 1; omega

/-- What has no terminator in it is skipped, unless one stands across its end. -/
theorem findTerminator_skip {bell : Bool} : ∀ {i : Nat} {x y : Bytes}, findTerminator bell i x = none →
    y.head? ≠ some (code '\\') → findTerminator bell i (x ++ y) = findTerminator bell (i + x.length) y
  | _, [], _, _, _ => rfl
  | i, b :: rest, y, h, hy => by
    rw [findTerminator] at h
    rw [List.cons_append, findTerminator]
    split at h
    · cases h
    · rename_i hb
      split at h
      · cases h
      · rename_i he
        rw [if_neg hb, if_neg, findTerminator_skip h hy, List.length_cons]
        · congr 1; omega
        · rintro ⟨he₁, he₂⟩
          cases rest with
          | nil => exact hy he₂
          | cons r rest => exact he ⟨he₁, he₂⟩

/-- The same, where something of it is left behind to look at. -/
theorem findTerminator_suffix {bell : Bool} : ∀ {i : Nat} {x y : Bytes}, findTerminator bell i (x ++ y) = none →
    y ≠ [] → ∀ b, findTerminator bell i (x ++ (y ++ b)) = findTerminator bell (i + x.length) (y ++ b)
  | _, [], _, _, _, _ => rfl
  | i, a :: x, y, h, hy, b => by
    rw [List.cons_append, findTerminator] at h
    rw [List.cons_append, findTerminator]
    split at h
    · cases h
    · rename_i hb
      split at h
      · cases h
      · rename_i he
        rw [if_neg hb, if_neg, findTerminator_suffix h hy, List.length_cons]
        · congr 1; omega
        · rintro ⟨he₁, he₂⟩
          refine he ⟨he₁, ?_⟩
          rw [← List.append_assoc, List.head?_append_of_ne_nil] at he₂
          · exact he₂
          · simp [hy]

theorem findFinal_append : ∀ {i : Nat} {x : Bytes} {final : Nat}, findFinal i x = some final →
    ∀ y, findFinal i (x ++ y) = some final
  | _, [], _, h, _ => by cases h
  | i, b :: rest, final, h, y => by
    rw [findFinal] at h
    rw [List.cons_append, findFinal]
    split at h
    · rename_i hb; rw [if_pos hb]; exact h
    · rename_i hb
      rw [if_neg hb]
      split at h
      · cases h
      · rename_i hl; rw [if_neg hl]; exact findFinal_append h y

/-- Past the limit no final byte is looked for. -/
theorem findFinal_past : ∀ {i : Nat} {x : Bytes}, findFinal i x = none → maxPendingTerminalQuery < i + x.length →
    i ≤ maxPendingTerminalQuery → ∀ y, findFinal i (x ++ y) = none
  | i, [], _, hl, hi, _ => by rw [List.length_nil] at hl; omega
  | i, b :: rest, h, hl, hi, y => by
    rw [findFinal] at h
    rw [List.cons_append, findFinal]
    rw [List.length_cons] at hl
    split at h
    · cases h
    · rename_i hb
      rw [if_neg hb]
      split at h
      · rename_i hm; rw [if_pos hm]
      · rename_i hm
        rw [if_neg hm]
        exact findFinal_past h (by omega) (by omega) y

theorem findFinal_bounds : ∀ {i : Nat} {x : Bytes} {final : Nat}, findFinal i x = some final →
    i ≤ final ∧ final < i + x.length
  | _, [], _, h => by cases h
  | i, b :: rest, final, h => by
    rw [findFinal] at h
    rw [List.length_cons]
    split at h
    · cases h; omega
    · split at h
      · cases h
      · have := findFinal_bounds h
        omega

/-- A final byte within the limit is found. -/
theorem findFinal_reach {f : UInt8} (hf : 0x40 ≤ f ∧ f ≤ 0x7e) (y : Bytes) : ∀ {i : Nat} {x : Bytes},
    findFinal i x = none → i + x.length ≤ maxPendingTerminalQuery → findFinal i (x ++ f :: y) = some (i + x.length)
  | i, [], _, _ => by rw [List.nil_append, findFinal, if_pos hf]; rfl
  | i, b :: x, h, hl => by
    rw [List.length_cons] at hl
    rw [findFinal] at h
    rw [List.cons_append, findFinal]
    split at h
    · cases h
    · rename_i hb
      rw [if_neg hb, if_neg (by omega)] at *
      rw [findFinal_reach hf y h (by omega), List.length_cons]
      congr 1; omega

theorem indexByte_append {x : Bytes} {b : UInt8} {i : Nat} (h : indexByte x b = some i) (y : Bytes) :
    indexByte (x ++ y) b = some i := by
  unfold indexByte at h ⊢
  rw [List.findIdx?_append, h]
  rfl

theorem indexByte_lt {x : Bytes} {b : UInt8} {i : Nat} (h : indexByte x b = some i) : i < x.length := by
  unfold indexByte at h
  exact (List.findIdx?_eq_some_iff_findIdx_eq.mp h).1

/-! ## The families of sequences -/

/-- A second byte that starts no sequence of its own. -/
def OtherKind (kind : UInt8) : Prop :=
  kind ≠ code '_' ∧ kind ≠ code '[' ∧ kind ≠ code ']' ∧ kind ≠ code 'Z'

theorem sequence_cases {w : Bytes} (hne : w ≠ []) : (∃ x rest, x ≠ esc ∧ w = x :: rest) ∨ w = [esc] ∨
    (∃ rest, w = esc :: code '_' :: rest) ∨ (∃ rest, w = esc :: code '[' :: rest) ∨
      (∃ rest, w = esc :: code ']' :: rest) ∨ (∃ rest, w = esc :: code 'Z' :: rest) ∨
        ∃ kind rest, OtherKind kind ∧ w = esc :: kind :: rest := by
  match w with
  | [] => exact absurd rfl hne
  | [x] =>
    by_cases hx : x = esc
    · subst hx; exact .inr (.inl rfl)
    · exact .inl ⟨x, [], hx, rfl⟩
  | x :: kind :: rest =>
    by_cases hx : x = esc
    · subst hx
      refine .inr (.inr ?_)
      by_cases h₁ : kind = code '_'
      · subst h₁; exact .inl ⟨rest, rfl⟩
      · by_cases h₂ : kind = code '['
        · subst h₂; exact .inr (.inl ⟨rest, rfl⟩)
        · by_cases h₃ : kind = code ']'
          · subst h₃; exact .inr (.inr (.inl ⟨rest, rfl⟩))
          · by_cases h₄ : kind = code 'Z'
            · subst h₄; exact .inr (.inr (.inr (.inl ⟨rest, rfl⟩)))
            · exact .inr (.inr (.inr (.inr ⟨kind, rest, ⟨h₁, h₂, h₃, h₄⟩, rfl⟩)))
    · exact .inl ⟨x, _, hx, rfl⟩

section

variable {c : TerminalColors} {rest : Bytes}

theorem queryStep_text {x : UInt8} (hx : x ≠ esc) : queryStep c (x :: rest) = .take 1 true [] := by
  simp only [queryStep]
  rw [if_pos hx]

theorem queryStep_graphics : queryStep c (esc :: code '_' :: rest) = graphicsStep (esc :: code '_' :: rest) := rfl

theorem queryStep_control : queryStep c (esc :: code '[' :: rest) = controlStep (esc :: code '[' :: rest) := rfl

theorem queryStep_osc : queryStep c (esc :: code ']' :: rest) = oscStep c (esc :: code ']' :: rest) := rfl

theorem queryStep_other {kind : UInt8} (hk : OtherKind kind) : queryStep c (esc :: kind :: rest) = .take 1 true [] := by
  simp only [queryStep]
  rw [if_neg (by simp), if_neg hk.1, if_neg hk.2.1, if_neg hk.2.2.1, if_neg hk.2.2.2]

end

/-! ## Decisions that stand -/

theorem getElem?_grow {x : Bytes} {i : Nat} (h : i < x.length) (y : Bytes) : (x ++ y)[i]? = x[i]? :=
  List.getElem?_append_left h

theorem findAPCTerminator_append {x : Bytes} {stop : Nat} (h : findAPCTerminator x = some stop) (y : Bytes) :
    findAPCTerminator (x ++ y) = some stop := by
  unfold findAPCTerminator at h ⊢
  split at h
  · cases h
  · rename_i hx
    simp only [not_or, Nat.not_lt] at hx
    rw [if_neg, List.drop_append_of_le_length (by omega)]
    · exact findTerminator_append h y
    · rw [getElem?_grow (by omega), getElem?_grow (by omega), List.length_append]
      simp only [not_or, Nat.not_lt]
      exact ⟨by omega, hx.2⟩

theorem findOSCTerminator_append {x : Bytes} {stop : Nat} (h : findOSCTerminator x = some stop) (y : Bytes) :
    findOSCTerminator (x ++ y) = some stop := by
  unfold findOSCTerminator at h ⊢
  split at h
  · cases h
  · rename_i hx
    simp only [not_or, Nat.not_lt] at hx
    rw [if_neg, List.drop_append_of_le_length (by omega)]
    · exact findTerminator_append h y
    · rw [getElem?_grow (by omega), getElem?_grow (by omega), List.length_append]
      simp only [not_or, Nat.not_lt]
      exact ⟨by omega, hx.2⟩

theorem findAPCTerminator_bounds {x : Bytes} {stop : Nat} (h : findAPCTerminator x = some stop) :
    2 < stop ∧ stop ≤ x.length := by
  unfold findAPCTerminator at h
  split at h
  · cases h
  · have hb := findTerminator_bounds h
    rw [List.length_drop] at hb
    omega

theorem findOSCTerminator_bounds {x : Bytes} {stop : Nat} (h : findOSCTerminator x = some stop) :
    2 < stop ∧ stop ≤ x.length := by
  unfold findOSCTerminator at h
  split at h
  · cases h
  · have hb := findTerminator_bounds h
    rw [List.length_drop] at hb
    omega

section

variable {w : Bytes} {n : Nat} {shown : Bool} {actions : List QueryAction}

theorem graphicsStep_append (h : graphicsStep w = .take n shown actions) (b : Bytes) :
    graphicsStep (w ++ b) = .take n shown actions := by
  unfold graphicsStep at h ⊢
  split at h
  · cases h
  · rename_i hlen
    rw [if_neg (by rw [List.length_append]; omega), getElem?_grow (by omega)]
    split at h
    · rename_i hk
      rw [if_pos hk]; exact h
    · rename_i hk
      rw [if_neg hk]
      split at h
      · split at h <;> cases h
      · rename_i separator hsep
        rw [indexByte_append hsep]
        simp only
        rw [List.take_append_of_le_length (Nat.le_of_lt (indexByte_lt hsep))]
        split at h
        · cases h
        · rename_i hq
          rw [if_neg hq]
          split at h
          · split at h <;> cases h
          · rename_i stop hstop
            rw [findAPCTerminator_append hstop]
            simp only
            rw [List.take_append_of_le_length (findAPCTerminator_bounds hstop).2]
            exact h

theorem controlStep_append (h : controlStep w = .take n shown actions) (hw : 2 ≤ w.length) (b : Bytes) :
    controlStep (w ++ b) = .take n shown actions := by
  unfold controlStep at h ⊢
  split at h
  · cases h
  · rename_i hlen
    rw [if_neg (by rw [List.length_append]; omega), List.drop_append_of_le_length hw]
    split at h
    · rename_i hnone
      split at h
      · cases h
      · rename_i hcap
        rw [findFinal_past hnone (by rw [List.length_drop]; omega) (by decide)]
        simp only
        rw [if_neg (by rw [List.length_append]; omega)]
        exact h
    · rename_i final hfinal
      rw [findFinal_append hfinal]
      have hlt := (findFinal_bounds hfinal).2
      rw [List.length_drop] at hlt
      simp only
      rw [List.take_append_of_le_length (by omega)]
      exact h

/-- A string that is not terminated yet. -/
def OpenString (w : Bytes) : Prop :=
  w[0]? = some esc ∧ w[1]? = some (code ']') ∧ findOSCTerminator w = none

/-- A string that is given up. -/
def Overlong (w : Bytes) : Prop := OpenString w ∧ maxPendingTerminalQuery < w.length

theorem oscStep_append {c : TerminalColors} (h : oscStep c w = .take n shown actions) (hn : findOSCTerminator w ≠ none)
    (b : Bytes) : oscStep c (w ++ b) = .take n shown actions := by
  unfold oscStep at h ⊢
  split at h
  · rename_i hnone; exact absurd hnone hn
  · rename_i stop hstop
    rw [findOSCTerminator_append hstop]
    simp only
    rw [List.take_append_of_le_length (findOSCTerminator_bounds hstop).2]
    exact h

/-- Only the giving up of a string depends on where the read ends. -/
theorem queryStep_append {c : TerminalColors} (hne : w ≠ []) (h : queryStep c w = .take n shown actions)
    (ho : ¬Overlong w) (b : Bytes) : queryStep c (w ++ b) = .take n shown actions := by
  rcases sequence_cases hne with ⟨x, rest, hx, rfl⟩ | rfl | ⟨rest, rfl⟩ | ⟨rest, rfl⟩ | ⟨rest, rfl⟩ | ⟨rest, rfl⟩ |
    ⟨kind, rest, hk, rfl⟩
  · rw [queryStep_text hx] at h
    rw [List.cons_append, queryStep_text hx]
    exact h
  · cases h
  · exact graphicsStep_append h b
  · exact controlStep_append h (by simp) b
  · refine oscStep_append h (fun hnone => ho ⟨⟨rfl, rfl, hnone⟩, ?_⟩) b
    rw [queryStep_osc] at h
    unfold oscStep at h
    rw [hnone] at h
    simp only at h
    split at h
    · cases h
    · omega
  · exact h
  · rw [queryStep_other hk] at h
    rw [List.cons_append, List.cons_append, queryStep_other hk]
    exact h

theorem queryStep_progress (c : TerminalColors) : Progress (queryStep c) := by
  intro w n shown actions hne h
  rcases sequence_cases hne with ⟨x, rest, hx, rfl⟩ | rfl | ⟨rest, rfl⟩ | ⟨rest, rfl⟩ | ⟨rest, rfl⟩ | ⟨rest, rfl⟩ |
    ⟨kind, rest, hk, rfl⟩
  · rw [queryStep_text hx] at h
    cases h; simp
  · cases h
  · rw [queryStep_graphics] at h
    unfold graphicsStep at h
    split at h
    · cases h
    · split at h
      · cases h; simp
      · split at h
        · split at h <;> cases h
        · split at h
          · cases h
          · split at h
            · split at h <;> cases h
            · rename_i stop hstop
              have hb := findAPCTerminator_bounds hstop
              split at h <;> cases h <;> omega
  · rw [queryStep_control] at h
    unfold controlStep at h
    split at h
    · cases h
    · split at h
      · split at h
        · cases h
        · cases h; simp
      · rename_i final hfinal
        have hb := findFinal_bounds hfinal
        simp only [List.length_drop, List.length_cons] at hb ⊢
        split at h <;> cases h <;> omega
  · rw [queryStep_osc] at h
    unfold oscStep at h
    split at h
    · split at h
      · cases h
      · cases h; simp
    · rename_i stop hstop
      have hb := findOSCTerminator_bounds hstop
      split at h <;> cases h <;> omega
  · cases h; simp
  · rw [queryStep_other hk] at h
    cases h; simp

end

/-! ## Up to the first give-up -/

/-- The texts of the queries the agent answers in an operating system command. -/
def oscQueries : List Bytes := [ascii "7501;?", ascii "10;?", ascii "11;?", ascii "12;?"]

/-- An open string that no continuation makes a query. -/
def Harmless (held : Bytes) : Prop := OpenString held ∧ ∀ q ∈ oscQueries, ¬held.drop 2 <+: q ++ [esc]

/-- The scan gives up on nothing, or on a string only after which there is plain text and, at
the end, another string that cannot become a query. -/
inductive CutSafe (c : TerminalColors) : Bytes → Prop
  | nil : CutSafe c []
  | hold {w : Bytes} : queryStep c w = .hold → CutSafe c w
  | take {w : Bytes} {n : Nat} {shown : Bool} {actions : List QueryAction} : w ≠ [] →
    queryStep c w = .take n shown actions → ¬Overlong w → CutSafe c (w.drop n) → CutSafe c w
  | overlong {w : Bytes} : Overlong w → Quiet (queryStep c) Harmless (w.drop 1) → CutSafe c w

theorem findOSCTerminator_cons (rest : Bytes) :
    findOSCTerminator (esc :: code ']' :: rest) = findTerminator true 2 rest := by
  unfold findOSCTerminator
  rw [if_neg (by simp)]
  rfl

theorem OpenString.eq {w : Bytes} (h : OpenString w) :
    ∃ rest, w = esc :: code ']' :: rest ∧ findTerminator true 2 rest = none := by
  obtain ⟨h₀, h₁, hn⟩ := h
  match w with
  | [] => cases h₀
  | [_] => cases h₁
  | a :: k :: rest =>
    cases h₀
    cases h₁
    exact ⟨rest, rfl, by rw [← findOSCTerminator_cons]; exact hn⟩

theorem openString_cons {rest : Bytes} (h : findTerminator true 2 rest = none) :
    OpenString (esc :: code ']' :: rest) := ⟨rfl, rfl, by rw [findOSCTerminator_cons]; exact h⟩

theorem Overlong.step {w : Bytes} (h : Overlong w) (c : TerminalColors) : queryStep c w = .take 1 true [] := by
  obtain ⟨rest, rfl, hn⟩ := h.1.eq
  have hcap := h.2
  rw [queryStep_osc, oscStep, findOSCTerminator_cons, hn]
  simp only
  rw [if_neg (by omega)]

/-- What ends in more than there was before ends behind it. -/
theorem findTerminator_behind {bell : Bool} : ∀ {i : Nat} {x y : Bytes} {stop : Nat}, findTerminator bell i x = none →
    findTerminator bell i (x ++ y) = some stop → i + x.length < stop
  | i, [], y, stop, _, h => by
    have := findTerminator_bounds h
    simpa using this.1
  | i, b :: rest, y, stop, hn, h => by
    rw [findTerminator] at hn
    rw [List.cons_append, findTerminator] at h
    rw [List.length_cons]
    split at hn
    · cases hn
    · rename_i hb
      rw [if_neg hb] at h
      split at hn
      · cases hn
      · split at h
        · rename_i he hend
          cases h
          cases rest with
          | nil => simp
          | cons r rest => exact absurd ⟨hend.1, hend.2⟩ he
        · have := findTerminator_behind hn h
          omega

theorem oscAnswer_some {c : TerminalColors} {text response : Bytes} (h : c.oscAnswer text = some response) :
    text ∈ oscQueries := by
  unfold TerminalColors.oscAnswer at h
  unfold oscQueries
  split at h
  · rename_i ht; rw [ht]; simp
  · split at h
    · rename_i ht; rw [ht]; simp
    · split at h
      · rename_i ht; rw [ht]; simp
      · split at h
        · rename_i ht; rw [ht]; simp
        · cases h

/-- A string that is answered is one of the queries and a terminator. -/
theorem oscResponse_some {c : TerminalColors} {sequence response : Bytes}
    (h : c.terminalOSCQueryResponse sequence = some response) :
    ∃ q ∈ oscQueries, sequence.drop 2 = q ++ [bel] ∨ sequence.drop 2 = q ++ [esc] ++ [code '\\'] := by
  unfold TerminalColors.terminalOSCQueryResponse at h
  split at h
  · cases h
  · rename_i hs
    have hlen : 7 ≤ sequence.length := by
      simp only [not_or, Nat.not_lt] at hs
      exact hs.1
    have hlast : (sequence.drop 2).getLast? = sequence.getLast? := by
      rw [List.getLast?_drop, if_neg (by omega)]
    split at h
    · rename_i hb
      refine ⟨_, oscAnswer_some h, .inl ?_⟩
      exact (List.dropLast_append_getLast? bel (hlast.trans hb)).symm
    · split at h
      · rename_i hst
        refine ⟨_, oscAnswer_some h, .inr ?_⟩
        have hprev : (sequence.drop 2).dropLast.getLast? = some esc := by
          rw [List.dropLast_drop_eq_drop_dropLast, List.getLast?_drop, if_neg (by rw [List.length_dropLast]; omega)]
          exact hst.1
        rw [List.dropLast_append_getLast? esc hprev]
        exact (List.dropLast_append_getLast? _ (hlast.trans hst.2)).symm
      · cases h

/-- A string that was open at `held`, closed by what follows, is passed on if no continuation
of `held` is a query. -/
theorem harmless_step {c : TerminalColors} {held b : Bytes} (hh : Harmless held) {stop : Nat}
    (hs : findOSCTerminator (held ++ b) = some stop) : queryStep c (held ++ b) = .take stop true [] := by
  obtain ⟨v, rfl, hn⟩ := hh.1.eq
  rw [List.cons_append, List.cons_append] at hs ⊢
  rw [queryStep_osc, oscStep, hs]
  cases hr : c.terminalOSCQueryResponse ((esc :: code ']' :: (v ++ b)).take stop) with
  | none => simp only [hr]
  | some response =>
    exfalso
    rw [findOSCTerminator_cons] at hs
    have hbehind := findTerminator_behind hn hs
    obtain ⟨m, rfl⟩ : ∃ m, stop = m + 2 := ⟨stop - 2, by omega⟩
    have hpre : v <+: (v ++ b).take m := by
      rw [List.take_append]
      have hfull : v.take m = v := List.take_of_length_le (by omega)
      rw [hfull]
      exact List.prefix_append ..
    have hlt : v.length < ((v ++ b).take m).length := by
      have := (findTerminator_bounds hs).2
      rw [List.length_take]
      rw [List.length_append] at *
      omega
    obtain ⟨q, hq, htext⟩ := oscResponse_some hr
    refine hh.2 q hq ?_
    have htext : (v ++ b).take m = q ++ [bel] ∨ (v ++ b).take m = q ++ [esc] ++ [code '\\'] := htext
    show v <+: q ++ [esc]
    rcases htext with ht | ht
    · rw [ht] at hpre hlt
      rcases List.prefix_concat_iff.mp hpre with he | hp
      · rw [he] at hlt; omega
      · exact hp.trans (List.prefix_append ..)
    · rw [ht] at hpre hlt
      rcases List.prefix_concat_iff.mp hpre with he | hp
      · rw [he] at hlt; omega
      · exact hp

/-- An over-long string is passed on once it is closed. -/
theorem overlong_step {c : TerminalColors} {w b : Bytes} (ho : Overlong w) {stop : Nat}
    (hs : findOSCTerminator (w ++ b) = some stop) : queryStep c (w ++ b) = .take stop true [] := by
  refine harmless_step ⟨ho.1, fun q hq hp => ?_⟩ hs
  have hlen := hp.length_le
  have hcap := ho.2
  have hshort : ∀ q ∈ oscQueries, q.length ≤ 6 := by decide
  have := hshort q hq
  simp only [List.length_drop, List.length_append, List.length_singleton, maxPendingTerminalQuery] at hlen hcap
  omega

/-- The place of a terminator, counted from an open string inside an open string. -/
theorem findTerminator_inner {x v b : Bytes} (hn : findTerminator true 2 (x ++ (esc :: code ']' :: v)) = none) :
    findTerminator true 2 (x ++ (esc :: code ']' :: v) ++ b) =
      (findTerminator true 2 (v ++ b)).map (· + (2 + x.length)) := by
  rw [List.append_assoc, findTerminator_suffix hn (List.cons_ne_nil _ _), List.cons_append, List.cons_append,
    findTerminator, if_neg (by decide), if_neg, findTerminator, if_neg (by decide), if_neg]
  · rw [← findTerminator_shift]
    congr 1
    omega
  · rintro ⟨h, -⟩
    exact absurd h (by decide)
  · rintro ⟨-, h⟩
    exact absurd (Option.some.inj h) (by decide)

/-- An over-long string with plain text behind it. -/
theorem overlong_agrees {c : TerminalColors} {w : Bytes} (ho : Overlong w)
    (hq : Quiet (queryStep c) Harmless (w.drop 1)) (ih : ∀ b, Agrees (queryStep c) (w.drop 1) b) (b : Bytes) :
    Agrees (queryStep c) w b := by
  have hp := queryStep_progress c
  have hw : w ≠ [] := by
    rintro rfl
    exact absurd ho.2 (by simp)
  cases hs : findOSCTerminator (w ++ b) with
  | none =>
    -- given up again
    obtain ⟨rest, rfl, hn⟩ := ho.1.eq
    have ho' : Overlong (esc :: code ']' :: rest ++ b) :=
      ⟨⟨rfl, rfl, hs⟩, by rw [List.length_append]; exact Nat.lt_add_right _ ho.2⟩
    exact (agrees_take hp hw (ho.step c) (ho'.step c)).mpr (ih b)
  | some stop =>
    obtain ⟨shown, held, hr, ha, -, -, hh⟩ := hq.run hp
    obtain ⟨rest, rfl, hn⟩ := ho.1.eq
    obtain ⟨v, rfl, hv⟩ := hh.1.eq
    have ha : shown ++ (esc :: code ']' :: v) = code ']' :: rest := ha
    match shown with
    | [] => exact absurd (List.cons.inj ha).1 (by decide)
    | a :: x =>
      rw [List.cons_append] at ha
      obtain ⟨rfl, rfl⟩ := List.cons.inj ha
      have hs' := hs
      rw [List.cons_append, List.cons_append, findOSCTerminator_cons, findTerminator_inner hn] at hs'
      obtain ⟨stop', hstop, rfl⟩ := Option.map_eq_some_iff.mp hs'
      have hinner : findOSCTerminator ((esc :: code ']' :: v) ++ b) = some stop' := by
        rw [List.cons_append, List.cons_append, findOSCTerminator_cons]
        exact hstop
      -- both go on behind the terminator
      have hcut : (esc :: code ']' :: (x ++ (esc :: code ']' :: v)) ++ b) =
          (esc :: code ']' :: x) ++ ((esc :: code ']' :: v) ++ b) := by simp
      have hlen : stop' + (2 + x.length) = (esc :: code ']' :: x).length + stop' := by
        rw [List.length_cons, List.length_cons]; omega
      unfold Agrees
      rw [run_take hp (by simp) (overlong_step ho hs), run_take hp hw (ho.step c), hr]
      simp only [Result.andThen, taken, if_true, List.append_nil, List.nil_append]
      rw [run_take hp (by simp) (harmless_step hh hinner), hcut, hlen, List.take_length_add_append,
        List.drop_length_add_append]
      simp only [Result.andThen, taken, if_true, List.nil_append]
      simp

theorem quiet_agrees {c : TerminalColors} {w : Bytes} (h : Quiet (queryStep c) Harmless w) (b : Bytes) :
    Agrees (queryStep c) w b := by
  induction h generalizing b with
  | hold hne hd hh => exact agrees_hold hd b
  | take hne hd hq ih =>
    rename_i w n
    by_cases ho : Overlong w
    · rw [ho.step c] at hd
      cases hd
      exact overlong_agrees ho hq ih b
    · exact (agrees_take (queryStep_progress c) hne hd (queryStep_append hne hd ho b)).mpr (ih b)

theorem cutSafe_agrees {c : TerminalColors} {w : Bytes} (h : CutSafe c w) (b : Bytes) : Agrees (queryStep c) w b := by
  induction h with
  | nil => exact agrees_nil b
  | hold hd => exact agrees_hold hd b
  | take hne hd ho _ ih => exact (agrees_take (queryStep_progress c) hne hd (queryStep_append hne hd ho b)).mpr ih
  | overlong ho hq => exact overlong_agrees ho hq (quiet_agrees hq) b

/-! ## Behind a give-up -/

/-- A query for the primary device attributes. -/
def deviceAttributes : Bytes := ascii "\x1b[c"

theorem run_deviceAttributes (c : TerminalColors) :
    run (queryStep c) deviceAttributes = ⟨[], answered primaryDeviceAttributesResponse, []⟩ := rfl

theorem findTerminator_far {bell : Bool} {y : Bytes} (h : findTerminator bell 0 y = none) (i : Nat) :
    findTerminator bell i y = none := by
  have := findTerminator_shift bell i 0 y
  rw [h, Nat.zero_add] at this
  exact this

theorem findTerminator_far_none {bell : Bool} {i : Nat} {y : Bytes} (h : findTerminator bell i y = none) :
    findTerminator bell 0 y = none := by
  have := findTerminator_shift bell i 0 y
  rw [Nat.zero_add, h] at this
  exact Option.map_eq_none_iff.mp this.symm

theorem findTerminator_rest {bell : Bool} : ∀ {x : Bytes}, findTerminator bell 0 x = none → ∀ n,
    findTerminator bell 0 (x.drop n) = none
  | [], _, n => by rw [List.drop_nil]; rfl
  | _ :: _, h, 0 => h
  | b :: x, h, n + 1 => by
    rw [findTerminator] at h
    split at h
    · cases h
    · split at h
      · cases h
      · exact findTerminator_rest (findTerminator_far_none h) n

/-- Where BEL ends a string too, there is less without an end. -/
theorem findTerminator_bell : ∀ {i : Nat} {x : Bytes}, findTerminator true i x = none → findTerminator false i x = none
  | _, [], _ => rfl
  | i, b :: x, h => by
    rw [findTerminator] at h ⊢
    split at h
    · cases h
    · rw [if_neg (by simp)]
      split at h
      · cases h
      · rename_i he; rw [if_neg he]; exact findTerminator_bell h

theorem findAPCTerminator_cons (rest : Bytes) (hr : rest ≠ []) :
    findAPCTerminator (esc :: code '_' :: rest) = findTerminator false 2 rest := by
  unfold findAPCTerminator
  rw [if_neg]
  · rfl
  · cases rest with
    | nil => exact absurd rfl hr
    | cons r rest => simp

theorem indexByte_none {x : Bytes} {b : UInt8} (h : indexByte x b = none) {y : Bytes} (hy : b ∉ y) :
    indexByte (x ++ y) b = none := by
  unfold indexByte at h ⊢
  rw [List.findIdx?_append, h]
  have : y.findIdx? (· = b) = none := List.findIdx?_eq_none_iff.mpr fun z hz => by
    simpa using fun e : z = b => hy (e ▸ hz)
  rw [this]
  rfl

/-- Text without a separator or a terminator changes nothing about a graphics command in front of it. -/
theorem graphicsStep_more {rest y : Bytes} (hr : rest ≠ []) (hs : code ';' ∉ y) (hy : y.head? ≠ some (code '\\'))
    (ht : findTerminator false 0 y = none) (h : graphicsStep (esc :: code '_' :: rest) = .flush) :
    graphicsStep (esc :: code '_' :: rest ++ y) = .flush := by
  unfold graphicsStep at h ⊢
  split at h
  · cases h
  · rename_i hlen
    rw [if_neg (by rw [List.length_append]; omega), getElem?_grow (by omega)]
    split at h
    · cases h
    · rename_i hk
      rw [if_neg hk]
      split at h
      · rename_i hnone
        split at h
        · cases h
        · rw [indexByte_none hnone hs]
          simp only
          rw [if_neg (by rw [List.length_append]; omega)]
      · rename_i separator hsep
        rw [indexByte_append hsep]
        simp only
        rw [List.take_append_of_le_length (Nat.le_of_lt (indexByte_lt hsep))]
        split at h
        · rename_i hq; rw [if_pos hq]
        · rename_i hq
          rw [if_neg hq]
          split at h
          · rename_i hnone
            split at h
            · cases h
            · rw [findAPCTerminator_cons _ hr] at hnone
              rw [List.cons_append, List.cons_append, findAPCTerminator_cons _ (by simp [hr]),
                findTerminator_skip hnone hy, findTerminator_far ht]
              simp only
              rw [if_neg]
              simp only [List.length_cons, List.length_append] at *
              omega
          · split at h <;> cases h

/-- Only graphics commands make the filter pass on the whole buffer. -/
theorem queryStep_flush {c : TerminalColors} {w : Bytes} (hne : w ≠ []) (h : queryStep c w = .flush) :
    ∃ rest, rest ≠ [] ∧ w = esc :: code '_' :: rest := by
  rcases sequence_cases hne with ⟨x, rest, hx, rfl⟩ | rfl | ⟨rest, rfl⟩ | ⟨rest, rfl⟩ | ⟨rest, rfl⟩ | ⟨rest, rfl⟩ |
    ⟨kind, rest, hk, rfl⟩
  · rw [queryStep_text hx] at h; cases h
  · cases h
  · refine ⟨rest, ?_, rfl⟩
    rintro rfl
    cases h
  · rw [queryStep_control, controlStep] at h
    split at h
    · cases h
    · split at h
      · split at h <;> cases h
      · split at h <;> cases h
  · rw [queryStep_osc, oscStep] at h
    split at h
    · split at h <;> cases h
    · split at h <;> cases h
  · cases h
  · rw [queryStep_other hk] at h; cases h

theorem flush_disagrees {c : TerminalColors} {w : Bytes} (hne : w ≠ []) (h : queryStep c w = .flush) :
    ¬Agrees (queryStep c) w deviceAttributes := by
  obtain ⟨rest, hr, rfl⟩ := queryStep_flush hne h
  have hall : queryStep c (esc :: code '_' :: rest ++ deviceAttributes) = .flush :=
    graphicsStep_more hr (by decide) (by decide) (by decide) h
  intro ha
  unfold Agrees at ha
  rw [run_flush hall, run_flush h] at ha
  have hacts := congrArg Result.actions ha
  rw [List.nil_append, run_deviceAttributes] at hacts
  cases hacts

/-! ## What a held sequence can become -/

/-- Text that closes any open string in front of it, at its own end. -/
def Closing (b : Bytes) : Prop := findTerminator true 0 b = some b.length ∧ b.head? ≠ some (code '\\')

/-- The filter does nothing at the end of the strings that `held` is in. -/
structure Mute (c : TerminalColors) (held : Bytes) : Prop where
  closing : ∀ b, Closing b → (run (queryStep c) (held ++ b)).actions = []
  backslash : held.getLast? = some esc → (run (queryStep c) (held ++ [code '\\'])).actions = []
  after : (run (queryStep c) (held ++ bel :: deviceAttributes)).actions ≠ []

variable {c : TerminalColors}

theorem run_actions_take {w : Bytes} {n : Nat} {shown : Bool} {actions : List QueryAction} (hne : w ≠ [])
    (h : queryStep c w = .take n shown actions) :
    (run (queryStep c) w).actions = actions ++ (run (queryStep c) (w.drop n)).actions := by
  rw [run_take (queryStep_progress c) hne h]
  rfl

theorem run_actions_text {x : UInt8} (hx : x ≠ esc) (rest : Bytes) :
    (run (queryStep c) (x :: rest)).actions = (run (queryStep c) rest).actions :=
  run_actions_take (List.cons_ne_nil _ _) (queryStep_text hx)

theorem run_actions_other {kind : UInt8} (hk : OtherKind kind) (rest : Bytes) :
    (run (queryStep c) (esc :: kind :: rest)).actions = (run (queryStep c) (kind :: rest)).actions :=
  run_actions_take (List.cons_ne_nil _ _) (queryStep_other hk)

theorem not_mute_nil : ¬Mute c [] := by
  intro h
  have := h.closing (deviceAttributes ++ [bel]) (by unfold Closing; decide)
  exact absurd this (by
    rw [List.nil_append]
    exact List.cons_ne_nil _ _)

theorem not_mute_esc : ¬Mute c [esc] := by
  intro h
  have := h.closing [code '[', code 'c', bel] (by unfold Closing; decide)
  exact absurd this (List.cons_ne_nil _ _)

/-- A control sequence is ended, and a query put behind it. -/
theorem not_mute_control {v : Bytes} (h : queryStep c (esc :: code '[' :: v) = .hold) :
    ¬Mute c (esc :: code '[' :: v) := by
  intro hm
  have hend := hm.closing (code 'm' :: deviceAttributes ++ [bel]) (by unfold Closing; decide)
  have hfree : findFinal 2 v = none ∧ v.length + 2 ≤ maxPendingTerminalQuery := by
    rw [queryStep_control, controlStep] at h
    split at h
    · rename_i hlen
      have hv : v = [] := List.eq_nil_of_length_eq_zero (by simpa using hlen)
      subst hv
      exact ⟨rfl, by decide⟩
    · split at h
      · rename_i hnone
        split at h
        · rename_i hcap
          exact ⟨hnone, hcap⟩
        · cases h
      · split at h <;> cases h
  have hfinal := findFinal_reach (f := code 'm') (by decide) (deviceAttributes ++ [bel]) hfree.1 (by omega)
  have hstep : ∃ n shown actions, n = v.length + 3 ∧ queryStep c (esc :: code '[' :: (v ++ code 'm' ::
      (deviceAttributes ++ [bel]))) = .take n shown actions := by
    rw [queryStep_control, controlStep, if_neg (by simp), List.drop_succ_cons, List.drop_succ_cons, List.drop_zero, hfinal]
    simp only
    split
    · exact ⟨_, _, _, by omega, rfl⟩
    · exact ⟨_, _, _, by omega, rfl⟩
  obtain ⟨n, shown, actions, hn, hstep⟩ := hstep
  have hacts := run_actions_take (List.cons_ne_nil _ _) hstep
  have hdrop : (esc :: code '[' :: (v ++ code 'm' :: (deviceAttributes ++ [bel]))).drop n = deviceAttributes ++ [bel] := by
    rw [hn, List.drop_succ_cons, List.drop_succ_cons, List.drop_length_add_append]
    rfl
  rw [hdrop] at hacts
  rw [show esc :: code '[' :: v ++ (code 'm' :: deviceAttributes ++ [bel]) =
    esc :: code '[' :: (v ++ code 'm' :: (deviceAttributes ++ [bel])) by simp, hacts] at hend
  exact absurd (List.append_eq_nil_iff.mp hend).2 (List.cons_ne_nil _ _)

/-- The control text that makes a graphics command a query. -/
theorem attributes_query (v : Bytes) :
    attributes (v ++ ascii ",a=q,i=1") "a" = ascii "q" ∧ attributes (v ++ ascii ",a=q,i=1") "i" = ascii "1" ∧
      kittyGraphicsQueryControl (v ++ ascii ",a=q,i=1") = true := by
  have hsplit : (v ++ ascii ",a=q,i=1").splitOn (code ',') = v.splitOn (code ',') ++ [ascii "a=q", ascii "i=1"] :=
    List.splitOn_append_cons_self v (ascii "a=q,i=1")
  have hcut : ([ascii "a=q", ascii "i=1"].filterMap (cut · (code '='))).reverse =
      [(ascii "i", ascii "1"), (ascii "a", ascii "q")] := by decide
  refine ⟨?_, ?_, ?_⟩
  · unfold attributes
    rw [hsplit, List.filterMap_append, List.reverse_append, hcut]
    rfl
  · unfold attributes
    rw [hsplit, List.filterMap_append, List.reverse_append, hcut]
    rfl
  · unfold kittyGraphicsQueryControl
    rw [hsplit]
    simp

theorem response_query {v : Bytes} (hv : code ';' ∉ v) : ∃ response, kittyGraphicsQueryResponse
    (esc :: code '_' :: code 'G' :: (v ++ ascii ",a=q,i=1;\x1b\\")) = some response := by
  obtain ⟨ha, hi, -⟩ := attributes_query v
  have hparts : v ++ ascii ",a=q,i=1;\x1b\\" = v ++ ascii ",a=q,i=1" ++ [code ';'] ++ [esc] ++ [code '\\'] := by
    simp only [List.append_assoc]
    rfl
  have hcontrol : (v ++ ascii ",a=q,i=1" ++ [code ';']).takeWhile (· ≠ code ';') = v ++ ascii ",a=q,i=1" := by
    have hno : ∀ b ∈ ascii ",a=q,i=1", decide (b ≠ code ';') = true := by decide +kernel
    rw [List.takeWhile_append_of_pos]
    · rw [show [code ';'].takeWhile (· ≠ code ';') = [] by decide, List.append_nil]
    · intro b hb
      rcases List.mem_append.mp hb with hb | hb
      · simpa using fun e : b = code ';' => hv (e ▸ hb)
      · exact hno b hb
  unfold kittyGraphicsQueryResponse
  rw [if_neg, if_neg]
  · simp only [List.drop_succ_cons, List.drop_zero]
    rw [hparts, List.dropLast_concat, List.dropLast_concat, hcontrol, ha, hi, if_neg (by decide), if_neg (by decide)]
    exact ⟨_, rfl⟩
  · rw [hparts]
    show ¬(((esc :: code '_' :: code 'G' :: (v ++ ascii ",a=q,i=1" ++ [code ';'])) ++ [esc] ++
      [code '\\']).dropLast.getLast? ≠ some esc ∨ ((esc :: code '_' :: code 'G' :: (v ++ ascii ",a=q,i=1" ++
        [code ';'])) ++ [esc] ++ [code '\\']).getLast? ≠ some (code '\\'))
    rw [List.dropLast_concat, List.getLast?_concat, List.getLast?_concat]
    simp
  · simp [ascii]

theorem graphicsStep_query {v : Bytes} (hv : code ';' ∉ v) (hn : findTerminator true 0 v = none) :
    ∃ response, graphicsStep (esc :: code '_' :: code 'G' :: (v ++ ascii ",a=q,i=1;\x1b\\")) =
      .take (v.length + 14) false (answered response) := by
  obtain ⟨response, hresponse⟩ := response_query hv
  obtain ⟨-, -, hq⟩ := attributes_query v
  refine ⟨response, ?_⟩
  have hsep : indexByte (esc :: code '_' :: code 'G' :: (v ++ ascii ",a=q,i=1;\x1b\\")) (code ';') =
      some (v.length + 11) := by
    have hpre : (esc :: code '_' :: code 'G' :: v).findIdx? (· = code ';') = none := by
      refine List.findIdx?_eq_none_iff.mpr fun b hb => ?_
      rcases List.mem_cons.mp hb with rfl | hb
      · rfl
      · rcases List.mem_cons.mp hb with rfl | hb
        · rfl
        · rcases List.mem_cons.mp hb with rfl | hb
          · rfl
          · simpa using fun e : b = code ';' => hv (e ▸ hb)
    have hend : (ascii ",a=q,i=1;\x1b\\").findIdx? (· = code ';') = some 8 := by decide
    show (esc :: code '_' :: code 'G' :: v ++ ascii ",a=q,i=1;\x1b\\").findIdx? (· = code ';') = _
    rw [List.findIdx?_append, hpre, hend]
    simp only [Option.none_or, Option.map_some, List.length_cons]
    congr 1; omega
  have hstop : findAPCTerminator (esc :: code '_' :: code 'G' :: (v ++ ascii ",a=q,i=1;\x1b\\")) =
      some (v.length + 14) := by
    have hG : findTerminator true 2 (code 'G' :: v) = none := by
      rw [findTerminator, if_neg (by decide), if_neg]
      · exact findTerminator_far hn _
      · rintro ⟨h, -⟩
        exact absurd h (by decide)
    rw [findAPCTerminator_cons _ (List.cons_ne_nil _ _), ← List.cons_append,
      findTerminator_skip (findTerminator_bell hG) (by decide)]
    have hend : findTerminator false 0 (ascii ",a=q,i=1;\x1b\\") = some 11 := by decide
    have hshift := findTerminator_shift false (v.length + 3) 0 (ascii ",a=q,i=1;\x1b\\")
    rw [Nat.zero_add, hend] at hshift
    rw [List.length_cons, show 2 + (v.length + 1) = v.length + 3 by omega, hshift, Option.map_some]
    congr 1; omega
  have htake : (esc :: code '_' :: code 'G' :: (v ++ ascii ",a=q,i=1;\x1b\\")).take (v.length + 11) =
      esc :: code '_' :: code 'G' :: (v ++ ascii ",a=q,i=1") := by
    rw [List.take_succ_cons, List.take_succ_cons, List.take_succ_cons, List.take_length_add_append]
    rfl
  unfold graphicsStep
  rw [if_neg (by simp [ascii]), if_neg (by simp), hsep]
  simp only
  rw [htake, List.drop_succ_cons, List.drop_succ_cons, List.drop_succ_cons, List.drop_zero, hq, if_neg (by decide), hstop]
  simp only
  rw [List.take_of_length_le (by simp [ascii]), hresponse]

/-- A graphics command without a separator is made a query. -/
theorem not_mute_graphics {v : Bytes} (hv : code ';' ∉ v) (hn : findTerminator true 0 v = none) :
    ¬Mute c (esc :: code '_' :: code 'G' :: v) := by
  intro hm
  have hend := hm.closing (ascii ",a=q,i=1;\x1b\\") (by unfold Closing; decide)
  obtain ⟨response, hstep⟩ := graphicsStep_query hv hn
  rw [show esc :: code '_' :: code 'G' :: v ++ ascii ",a=q,i=1;\x1b\\" =
    esc :: code '_' :: code 'G' :: (v ++ ascii ",a=q,i=1;\x1b\\") by simp,
    run_actions_take (List.cons_ne_nil _ _) (queryStep_graphics.trans hstep)] at hend
  exact absurd (List.append_eq_nil_iff.mp hend).1 (List.cons_ne_nil _ _)

/-- A string that can become a query is made one. -/
theorem not_mute_query {q v : Bytes} (hq : q ∈ oscQueries) (hv : v <+: q ++ [esc]) :
    ¬Mute c (esc :: code ']' :: v) := by
  intro hm
  rcases List.prefix_concat_iff.mp hv with rfl | ⟨t, ht⟩
  · have hst := hm.backslash (by rw [List.getLast?_cons_cons, List.getLast?_cons]; simp)
    simp only [oscQueries, List.mem_cons, List.not_mem_nil, or_false] at hq
    rcases hq with rfl | rfl | rfl | rfl
    all_goals exact absurd hst (List.cons_ne_nil _ _)
  · have hclose : ∀ q ∈ oscQueries, ∀ t ∈ q.tails, findTerminator true 0 (t ++ [bel]) = some (t ++ [bel]).length ∧
        (t ++ [bel]).head? ≠ some (code '\\') := by decide
    have hend := hm.closing (t ++ [bel]) (hclose q hq t ((List.mem_tails t q).mpr ⟨v, ht⟩))
    rw [List.cons_append, List.cons_append, ← List.append_assoc, ht] at hend
    simp only [oscQueries, List.mem_cons, List.not_mem_nil, or_false] at hq
    rcases hq with rfl | rfl | rfl | rfl
    all_goals exact absurd hend (List.cons_ne_nil _ _)

/-- A graphics query without an end is held or passed on, whatever its text. -/
theorem graphicsStep_open {w : Bytes} (hlen : 4 ≤ w.length) (hk : w[2]? = some (code 'G')) {separator : Nat}
    (hsep : indexByte w (code ';') = some separator)
    (hq : kittyGraphicsQueryControl ((w.take separator).drop 3) = true) (hn : findAPCTerminator w = none) :
    graphicsStep w = .hold ∨ graphicsStep w = .flush := by
  unfold graphicsStep
  rw [if_neg (by omega), if_neg (by simpa using hk), hsep]
  simp only
  rw [hq, if_neg (by decide), hn]
  simp only
  by_cases hcap : w.length ≤ maxPendingKittyGraphicsQuery
  · exact .inl (if_pos hcap)
  · exact .inr (if_neg hcap)

theorem run_actions_open {w : Bytes} (h : queryStep c w = .hold ∨ queryStep c w = .flush) :
    (run (queryStep c) w).actions = [] := by
  rcases h with h | h
  · rw [run_hold h]
  · rw [run_flush h]

theorem not_mute_graphics_hold {rest : Bytes} (h : queryStep c (esc :: code '_' :: rest) = .hold)
    (hn : findTerminator true 0 (esc :: code '_' :: rest) = none) : ¬Mute c (esc :: code '_' :: rest) := by
  intro hm
  match rest with
  | [] =>
    have := hm.closing (code 'x' :: deviceAttributes ++ [bel]) (by unfold Closing; decide)
    exact absurd this (List.cons_ne_nil _ _)
  | x :: v =>
    have hv : findTerminator true 0 v = none := findTerminator_rest hn 3
    by_cases hx : x = code 'G'
    · subst hx
      by_cases hs : code ';' ∈ v
      · -- a query still to be ended: BEL ends only what is around it
        refine hm.after (run_actions_open ?_)
        rw [List.cons_append, List.cons_append, queryStep_graphics]
        rw [queryStep_graphics, graphicsStep] at h
        split at h
        · rename_i hlen
          cases v with
          | nil => cases hs
          | cons y v => simp only [List.length_cons] at hlen; omega
        · rename_i hlen
          rw [if_neg (by simp)] at h
          split at h
          · rename_i hnone
            have := List.findIdx?_eq_none_iff.mp hnone (code ';') (by simp [hs])
            simp at this
          · rename_i separator hsep
            split at h
            · cases h
            · rename_i hq
              split at h
              · rename_i hstop
                rw [findAPCTerminator_cons _ (List.cons_ne_nil _ _)] at hstop
                rw [← List.cons_append, ← List.cons_append]
                refine graphicsStep_open ?_ rfl (indexByte_append hsep _) ?_ ?_
                · rw [List.length_append]; omega
                · rw [List.take_append_of_le_length (Nat.le_of_lt (indexByte_lt hsep))]
                  simpa using hq
                · rw [List.cons_append, List.cons_append, findAPCTerminator_cons _ (by simp), findTerminator_skip hstop (by decide)]
                  exact findTerminator_far (by decide) _
              · split at h <;> cases h
      · exact absurd hm (not_mute_graphics hs hv)
    · match v with
      | [] =>
        have hend := hm.closing (code 'm' :: deviceAttributes ++ [bel]) (by unfold Closing; decide)
        have hstep : queryStep c (esc :: code '_' :: x :: code 'm' :: (deviceAttributes ++ [bel])) = .take 1 true [] := by
          rw [queryStep_graphics, graphicsStep, if_neg (by simp), if_pos (by simpa using hx)]
        have hx' : (run (queryStep c) (x :: code 'm' :: (deviceAttributes ++ [bel]))).actions ≠ [] := by
          by_cases he : x = esc
          · subst he
            exact List.cons_ne_nil _ _
          · rw [run_actions_text he]
            exact List.cons_ne_nil _ _
        refine hx' ?_
        rw [← run_actions_text (show code '_' ≠ esc by decide)]
        rw [show [esc, code '_', x] ++ (code 'm' :: deviceAttributes ++ [bel]) =
          esc :: code '_' :: x :: code 'm' :: (deviceAttributes ++ [bel]) by simp,
          run_actions_take (List.cons_ne_nil _ _) hstep] at hend
        exact hend
      | y :: v =>
        rw [queryStep_graphics, graphicsStep, if_neg (by simp), if_pos (by simpa using hx)] at h
        cases h

theorem Mute.harmless {held : Bytes} (hm : Mute c held) (hne : held ≠ []) (h : queryStep c held = .hold)
    (hn : findTerminator true 0 held = none) : Harmless held := by
  rcases sequence_cases hne with ⟨x, rest, hx, rfl⟩ | rfl | ⟨rest, rfl⟩ | ⟨rest, rfl⟩ | ⟨rest, rfl⟩ | ⟨rest, rfl⟩ |
    ⟨kind, rest, hk, rfl⟩
  · rw [queryStep_text hx] at h; cases h
  · exact absurd hm not_mute_esc
  · exact absurd hm (not_mute_graphics_hold h hn)
  · exact absurd hm (not_mute_control h)
  · have hopen := openString_cons (findTerminator_far (findTerminator_rest hn 2) 2)
    exact ⟨hopen, fun q hq hp => not_mute_query hq hp hm⟩
  · cases h
  · rw [queryStep_other hk] at h; cases h

/-! ## Over-long strings -/

theorem not_shown {w : Bytes} {n : Nat} {actions : List QueryAction} (hne : w ≠ [])
    (h : queryStep c w = .take n false actions) : actions ≠ [] := by
  rintro rfl
  rcases sequence_cases hne with ⟨x, rest, hx, rfl⟩ | rfl | ⟨rest, rfl⟩ | ⟨rest, rfl⟩ | ⟨rest, rfl⟩ | ⟨rest, rfl⟩ |
    ⟨kind, rest, hk, rfl⟩
  · rw [queryStep_text hx] at h; cases h
  · cases h
  · rw [queryStep_graphics, graphicsStep] at h
    split at h
    · cases h
    · split at h
      · cases h
      · split at h
        · split at h <;> cases h
        · split at h
          · cases h
          · split at h
            · split at h <;> cases h
            · split at h <;> cases h
  · rw [queryStep_control, controlStep] at h
    split at h
    · cases h
    · split at h
      · split at h <;> cases h
      · split at h <;> cases h
  · rw [queryStep_osc, oscStep] at h
    split at h
    · split at h <;> cases h
    · split at h <;> cases h
  · cases h
  · rw [queryStep_other hk] at h; cases h

/-- Nothing done in it and nothing at its end: the buffer is plain up to a harmless string. -/
theorem quiet_of_mute {w : Bytes} (ha : (run (queryStep c) w).actions = [])
    (hm : Mute c (run (queryStep c) w).pending) (hn : findTerminator true 0 w = none) :
    Quiet (queryStep c) Harmless w := by
  by_cases hne : w = []
  · subst hne
    exact absurd hm not_mute_nil
  · cases h : queryStep c w with
    | hold =>
      rw [run_hold h] at hm
      exact .hold hne h (hm.harmless hne h hn)
    | flush =>
      rw [run_flush h] at hm
      exact absurd hm not_mute_nil
    | take n shown actions =>
      obtain ⟨hpos, hle⟩ := queryStep_progress c _ _ _ _ hne h
      rw [run_take (queryStep_progress c) hne h] at ha hm
      obtain ⟨hnil, ha⟩ := List.append_eq_nil_iff.mp ha
      have hnil : actions = [] := hnil
      subst hnil
      cases shown with
      | false => exact absurd rfl (not_shown hne h)
      | true =>
        exact .take hne h (quiet_of_mute ha hm (findTerminator_rest hn n))
termination_by w.length
decreasing_by rw [List.length_drop]; omega

/-- Everything up to the end of an over-long string is passed on. -/
theorem run_closed {w b : Bytes} (ho : Overlong w) (hs : findOSCTerminator (w ++ b) = some (w ++ b).length) (more : Bytes) :
    run (queryStep c) (w ++ b ++ more) = Result.andThen ⟨w ++ b, [], []⟩ (run (queryStep c) more) := by
  have hne : w ++ b ++ more ≠ [] := by
    intro h
    rw [(List.append_eq_nil_iff.mp (List.append_eq_nil_iff.mp h).1).1] at ho
    exact absurd ho.2 (by simp)
  have hstep : queryStep c (w ++ b ++ more) = .take (w ++ b).length true [] := by
    rw [List.append_assoc] at *
    exact overlong_step ho (by rw [← List.append_assoc]; exact findOSCTerminator_append hs more)
  rw [run_take (queryStep_progress c) hne hstep, List.drop_left]
  simp only [taken, if_true, List.take_left]

theorem closing_end {w b : Bytes} (ho : Overlong w) (hb : Closing b) :
    findOSCTerminator (w ++ b) = some (w ++ b).length := by
  obtain ⟨rest, rfl, hn⟩ := ho.1.eq
  have hshift := findTerminator_shift true (2 + rest.length) 0 b
  rw [Nat.zero_add, hb.1] at hshift
  rw [List.cons_append, List.cons_append, findOSCTerminator_cons, findTerminator_skip hn hb.2, hshift]
  simp only [Option.map_some, List.length_cons, List.length_append]
  congr 1; omega

theorem backslash_end {w : Bytes} (ho : Overlong w) (he : w.getLast? = some esc) :
    findOSCTerminator (w ++ [code '\\']) = some (w ++ [code '\\']).length := by
  obtain ⟨rest, rfl, hn⟩ := ho.1.eq
  match rest with
  | [] => exact absurd ho.2 (by decide)
  | r :: rest =>
    have hlast : (r :: rest).dropLast ++ [esc] = r :: rest :=
      List.dropLast_append_getLast? esc (by rw [List.getLast?_cons_cons, List.getLast?_cons_cons] at he; exact he)
    rw [← hlast] at hn
    rw [List.cons_append, List.cons_append, findOSCTerminator_cons, ← hlast, List.append_assoc,
      findTerminator_suffix hn (List.cons_ne_nil _ _), List.cons_append, List.nil_append, findTerminator,
      if_neg (by decide), if_pos (by decide)]
    simp only [List.length_cons, List.length_append, List.length_nil]
    congr 1; omega

/-- If no cut behind an over-long string shows, all of it was harmless. -/
theorem quiet_of_agrees {w : Bytes} (ho : Overlong w) (h : ∀ b, b ≠ [] → Agrees (queryStep c) w b) :
    Quiet (queryStep c) Harmless (w.drop 1) := by
  have hp := queryStep_progress c
  have hne : w ≠ [] := by
    rintro rfl
    exact absurd ho.2 (by simp)
  obtain ⟨held, hheld⟩ : ∃ held, held = (run (queryStep c) w).pending := ⟨_, rfl⟩
  have hclosed : ∀ b, b ≠ [] → findOSCTerminator (w ++ b) = some (w ++ b).length →
      (run (queryStep c) w).actions = [] ∧ (run (queryStep c) (held ++ b)).actions = [] := by
    intro b hb hs
    have ha := congrArg Result.actions (h b hb)
    have hrun := run_closed (c := c) ho hs []
    rw [List.append_nil] at hrun
    rw [hrun, ← hheld] at ha
    exact List.append_eq_nil_iff.mp ha.symm
  have hbel : Closing [bel] := by unfold Closing; decide
  have hacts := (hclosed [bel] (by simp) (closing_end ho hbel)).1
  have hm : Mute c held := {
    closing := fun b hb => by
      refine (hclosed b ?_ (closing_end ho hb)).2
      rintro rfl
      exact absurd hb.1 (by decide)
    backslash := fun he => by
      refine (hclosed _ (by simp) (backslash_end ho ?_)).2
      obtain ⟨front, hfront⟩ := run_pending_suffix hp w
      rw [← hheld] at hfront
      rw [← hfront, List.getLast?_append, he]
      rfl
    after := by
      have ha := congrArg Result.actions (h (bel :: deviceAttributes) (by simp))
      have hrun := run_closed (c := c) ho (closing_end ho hbel) deviceAttributes
      rw [List.append_assoc, List.singleton_append] at hrun
      rw [hrun, ← hheld, run_deviceAttributes] at ha
      intro hnil
      have ha : answered primaryDeviceAttributesResponse =
        (run (queryStep c) w).actions ++ (run (queryStep c) (held ++ bel :: deviceAttributes)).actions := ha
      rw [hacts, hnil] at ha
      cases ha }
  rw [run_take hp hne (ho.step c)] at hacts hheld
  refine quiet_of_mute hacts (by rw [hheld] at hm; exact hm) ?_
  obtain ⟨rest, rfl, hn⟩ := ho.1.eq
  show findTerminator true 0 (code ']' :: rest) = none
  rw [findTerminator, if_neg (by decide), if_neg]
  · exact findTerminator_far (findTerminator_far_none hn) _
  · rintro ⟨he, -⟩
    exact absurd he (by decide)

theorem cutSafe_of_agrees {w : Bytes} (h : ∀ b, b ≠ [] → Agrees (queryStep c) w b) : CutSafe c w := by
  by_cases hne : w = []
  · subst hne; exact .nil
  · cases hd : queryStep c w with
    | hold => exact .hold hd
    | flush => exact absurd (h _ (by decide)) (flush_disagrees hne hd)
    | take n shown actions =>
      by_cases ho : Overlong w
      · exact .overlong ho (quiet_of_agrees ho h)
      · obtain ⟨hpos, hle⟩ := queryStep_progress c _ _ _ _ hne hd
        refine .take hne hd ho (cutSafe_of_agrees fun b hb => ?_)
        exact (agrees_take (queryStep_progress c) hne hd (queryStep_append hne hd ho b)).mp (h b hb)
termination_by w.length
decreasing_by rw [List.length_drop]; omega

/-! ## The filter -/

/-- Feeding `a` and then `b` shows, does and holds what feeding both at once does. -/
def QueryFilter.CutAgrees (f : QueryFilter) (a b : Bytes) : Prop :=
  let first := f.filterTerminalQueryOutput a
  let second := first.1.filterTerminalQueryOutput b
  let whole := f.filterTerminalQueryOutput (a ++ b)
  whole.2.1 = first.2.1 ++ second.2.1 ∧ whole.2.2 = first.2.2 ++ second.2.2 ∧
    whole.1.terminalQueryPending = second.1.terminalQueryPending

theorem cutAgrees_iff (f : QueryFilter) {a b : Bytes} (ha : a ≠ []) (hb : b ≠ []) :
    f.CutAgrees a b ↔ Agrees (queryStep f.colors) (f.terminalQueryPending ++ a) b := by
  have hab : a ++ b ≠ [] := by simp [ha]
  unfold QueryFilter.CutAgrees QueryFilter.filterTerminalQueryOutput Agrees
  simp only [if_neg ha, if_neg hb, if_neg hab]
  rw [← List.append_assoc, Result.ext_iff]
  exact Iff.rfl

theorem cutAgrees_nil (f : QueryFilter) (a : Bytes) : f.CutAgrees a [] := by
  unfold QueryFilter.CutAgrees
  rw [List.append_nil]
  exact ⟨(List.append_nil _).symm, (List.append_nil _).symm, rfl⟩

/-- A cut after `a` never shows, whatever comes next, exactly if the filter does not give up in it. -/
theorem cut_anywhere_iff (f : QueryFilter) (a : Bytes) :
    (∀ b, f.CutAgrees a b) ↔ a = [] ∨ CutSafe f.colors (f.terminalQueryPending ++ a) := by
  by_cases ha : a = []
  · subst ha
    exact ⟨fun _ => .inl rfl, fun _ b => ⟨rfl, rfl, rfl⟩⟩
  · constructor
    · intro h
      exact .inr (cutSafe_of_agrees fun b hb => (cutAgrees_iff f ha hb).mp (h b))
    · intro h b
      by_cases hb : b = []
      · subst hb; exact cutAgrees_nil f a
      · exact (cutAgrees_iff f ha hb).mpr (cutSafe_agrees (h.resolve_left ha) b)

/-- An image and a query in one read: the query is not answered. -/
theorem image_hides_query : ¬∀ (f : QueryFilter) (a b : Bytes), f.CutAgrees a b := by
  intro h
  have := (h ⟨{}, []⟩ (ascii "\x1b_Gf=24;AAAA\x1b\\") deviceAttributes).2.1
  revert this
  decide

end Webshell
