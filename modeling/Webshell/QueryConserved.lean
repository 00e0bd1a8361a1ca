import Webshell.PaneQueryCuts
import Webshell.PrivateControl

/-!
# What the query filter takes out

Cut into pieces, the buffer is what was passed on and the queries that were
answered, in their order, and the bytes that are held. A piece that was passed
on may still let an answer of the client be expected.
-/

namespace Webshell

open Scanner

/-- A query of the agent's own, and the response to it. -/
inductive AnsweredQuery (c : TerminalColors) : Bytes → Bytes → Prop
  | primary {params : Bytes} : params = [] ∨ params = ascii "0" →
    AnsweredQuery c (esc :: code '[' :: (params ++ [code 'c'])) primaryDeviceAttributesResponse
  | secondary {params : Bytes} : params = ascii ">" ∨ params = ascii ">0" →
    AnsweredQuery c (esc :: code '[' :: (params ++ [code 'c'])) secondaryDeviceAttributesResponse
  | identify : AnsweredQuery c [esc, code 'Z'] primaryDeviceAttributesResponse
  | osc {text t response : Bytes} : c.oscAnswer text = some response → Terminator t →
    AnsweredQuery c (esc :: code ']' :: (text ++ t)) response
  | graphics {body control : Bytes} : ¬ [esc, code '\\'] <:+: body → control = body.takeWhile (· ≠ code ';') →
    attributes control "a" = ascii "q" → attributes control "i" ≠ [] →
    (∀ b ∈ attributes control "i", code '0' ≤ b ∧ b ≤ code '9') →
    AnsweredQuery c (esc :: code '_' :: code 'G' :: (body ++ [esc, code '\\']))
      (ascii "\x1b_Gi=" ++ attributes control "i" ++ ascii ";" ++ kittyGraphicsMessage control ++ ascii "\x1b\\")

inductive QueryPiece
  | passed (bytes : Bytes)
  | removed (sequence response : Bytes)

namespace QueryPiece

def raw : QueryPiece → Bytes
  | passed bytes => bytes
  | removed sequence _ => sequence

def shown : QueryPiece → Bytes
  | passed bytes => bytes
  | removed _ _ => []

def actions : QueryPiece → List QueryAction
  | passed bytes => clientActions bytes
  | removed _ response => answered response

def Valid (c : TerminalColors) : QueryPiece → Prop
  | passed _ => True
  | removed sequence response => AnsweredQuery c sequence response

end QueryPiece

/-- An escape sequence that has begun and not ended. -/
def Incomplete (w : Bytes) : Prop :=
  w = [esc] ∨
  (w.take 2 = [esc, code '_'] ∧ ¬ [esc, code '\\'] <:+: w.drop 2) ∨
  (w.take 2 = [esc, code '['] ∧ ∀ b ∈ w.drop 2, ¬ (0x40 ≤ b ∧ b ≤ 0x7e)) ∨
  (w.take 2 = [esc, code ']'] ∧ bel ∉ w.drop 2 ∧ ¬ [esc, code '\\'] <:+: w.drop 2)

/-- A graphics sequence whose end has come before a semicolon has. -/
def Stalled (w : Bytes) : Prop :=
  w.take 3 = [esc, code '_', code 'G'] ∧ code ';' ∉ w ∧ w.length ≤ maxPendingTerminalQuery ∧
    [esc, code '\\'] <:+: w.drop 2

/-- Nothing is held, or the begin of one sequence, within the limit. -/
def Held (w : Bytes) : Prop :=
  w = [] ∨ (w.head? = some esc ∧ w.length ≤ maxPendingKittyGraphicsQuery ∧ (Incomplete w ∨ Stalled w))

/-! ## Terminators and final bytes -/

theorem no_st_cons {b : UInt8} {v : Bytes} (he : ¬ (b = esc ∧ v.head? = some (code '\\')))
    (h : ¬ [esc, code '\\'] <:+: v) : ¬ [esc, code '\\'] <:+: b :: v := by
  intro hi
  rcases List.infix_cons_iff.mp hi with hp | hi
  · rw [List.cons_prefix_cons] at hp
    obtain ⟨y, rfl⟩ := hp.2
    exact he ⟨hp.1.symm, rfl⟩
  · exact h hi

theorem findTerminator_open {bell : Bool} : ∀ {i : Nat} {x : Bytes}, findTerminator bell i x = none →
    ¬ [esc, code '\\'] <:+: x ∧ (bell = true → bel ∉ x)
  | _, [], _ => ⟨by simp, fun _ => by simp⟩
  | i, b :: rest, h => by
    rw [findTerminator] at h
    split at h
    · cases h
    rename_i hb
    split at h
    · cases h
    rename_i he
    obtain ⟨hst, hbel⟩ := findTerminator_open h
    refine ⟨no_st_cons he hst, fun hbell hm => ?_⟩
    rcases List.mem_cons.mp hm with hm | hm
    · exact hb (by rw [hbell, ← hm]; rfl)
    · exact hbel hbell hm

theorem findTerminator_split {bell : Bool} : ∀ {i : Nat} {x : Bytes} {stop : Nat}, findTerminator bell i x = some stop →
    ∃ v t rest, x = v ++ t ++ rest ∧ stop = i + (v ++ t).length ∧ (t = [esc, code '\\'] ∨ bell = true ∧ t = [bel]) ∧
      ¬ [esc, code '\\'] <:+: v
  | _, [], _, h => by cases h
  | i, b :: rest, stop, h => by
    rw [findTerminator] at h
    split at h
    · rename_i hb
      cases h
      simp only [Bool.and_eq_true, decide_eq_true_eq] at hb
      obtain ⟨hbell, rfl⟩ := hb
      exact ⟨[], [bel], rest, rfl, rfl, .inr ⟨hbell, rfl⟩, by simp⟩
    split at h
    · rename_i he
      cases h
      obtain ⟨rfl, hh⟩ := he
      cases rest with
      | nil => cases hh
      | cons c rest =>
        rw [List.head?_cons, Option.some.injEq] at hh
        subst hh
        exact ⟨[], [esc, code '\\'], rest, rfl, rfl, .inl rfl, by simp⟩
    · rename_i he
      obtain ⟨v, t, rest', rfl, rfl, ht, hv⟩ := findTerminator_split h
      refine ⟨b :: v, t, rest', by simp, by simp only [List.length_append, List.length_cons]; omega, ht, no_st_cons ?_ hv⟩
      rintro ⟨hb, hh⟩
      refine he ⟨hb, ?_⟩
      cases v with
      | nil => cases hh
      | cons c v => exact hh

theorem findFinal_none : ∀ {i : Nat} {x : Bytes}, findFinal i x = none → i + x.length ≤ maxPendingTerminalQuery →
    ∀ b ∈ x, ¬ (0x40 ≤ b ∧ b ≤ 0x7e)
  | _, [], _, _, b, hb => by cases hb
  | i, a :: rest, h, hl, b, hb => by
    rw [List.length_cons] at hl
    rw [findFinal] at h
    split at h
    · cases h
    rename_i ha
    rw [if_neg (by omega)] at h
    rcases List.mem_cons.mp hb with rfl | hb
    · exact ha
    · exact findFinal_none h (by omega) b hb

/-! ## Decisions -/

section
variable {c : TerminalColors} {rest : Bytes} {n : Nat} {shown : Bool} {actions : List QueryAction}

/-- What a decision to take does: pass on, or answer. -/
def Takes (c : TerminalColors) (front : Bytes) (shown : Bool) (actions : List QueryAction) : Prop :=
  (shown = true ∧ actions = clientActions front) ∨
    (shown = false ∧ ∃ response, actions = answered response ∧ AnsweredQuery c front response)

theorem clientActions_other {w : Bytes} (h : w.take 2 ≠ [esc, code '[']) : clientActions w = [] := by
  unfold clientActions terminalClientGeneratedResponse isCursorPositionQuery
  by_cases h₅ : w = ascii "\x1b[5n"
  · exact absurd (by rw [h₅]; rfl) h
  · by_cases h₆ : w = ascii "\x1b[6n"
    · exact absurd (by rw [h₆]; rfl) h
    · simp [h₅, h₆]

theorem takes_byte (b : UInt8) : Takes c [b] true [] := by
  refine .inl ⟨rfl, (clientActions_other ?_).symm⟩
  simp

theorem graphicsStep_takes (h : graphicsStep (esc :: code '_' :: rest) = .take n shown actions) :
    Takes c ((esc :: code '_' :: rest).take n) shown actions := by
  unfold graphicsStep at h
  split at h
  · cases h
  split at h
  · cases h
    exact takes_byte esc
  rename_i hkind
  rw [not_not] at hkind
  split at h
  · split at h <;> cases h
  split at h
  · cases h
  split at h
  · split at h <;> cases h
  rename_i stop hstop
  obtain ⟨rest, rfl⟩ : ∃ more, rest = code 'G' :: more := by
    cases rest with
    | nil => cases hkind
    | cons g more =>
      simp only [List.getElem?_cons_succ, List.getElem?_cons_zero, Option.some.injEq] at hkind
      exact ⟨more, by rw [hkind]⟩
  have hscan : findTerminator false 2 (code 'G' :: rest) = some stop := by
    unfold findAPCTerminator at hstop
    split at hstop
    · cases hstop
    · exact hstop
  obtain ⟨v, t, more, hcut, hn, ht, hv⟩ := findTerminator_split hscan
  obtain rfl : t = [esc, code '\\'] := ht.resolve_right fun hb => absurd hb.1 (by decide)
  cases v with
  | nil => exact absurd (List.cons.inj hcut).1 (by decide)
  | cons g body =>
    simp only [List.cons_append, List.cons.injEq] at hcut
    obtain ⟨rfl, rfl⟩ := hcut
    have hfront : (esc :: code '_' :: code 'G' :: (body ++ [esc, code '\\'] ++ more)).take stop =
        esc :: code '_' :: code 'G' :: (body ++ [esc, code '\\']) := by
      have hlen : stop = (esc :: code '_' :: code 'G' :: (body ++ [esc, code '\\'])).length := by
        rw [hn]
        simp only [List.length_append, List.length_cons, List.length_nil]
        omega
      rw [hlen, show esc :: code '_' :: code 'G' :: (body ++ [esc, code '\\'] ++ more) =
        (esc :: code '_' :: code 'G' :: (body ++ [esc, code '\\'])) ++ more by simp, List.take_left]
    have hbody : ((esc :: code '_' :: code 'G' :: (body ++ [esc, code '\\'])).drop 3).dropLast.dropLast = body := by
      simp [List.dropLast_append_of_ne_nil]
    have hfree : ¬ [esc, code '\\'] <:+: body := fun hi => hv (List.infix_cons_iff.mpr (.inr hi))
    simp only [hfront] at h
    split at h
    · rename_i response hr
      cases h
      rw [hfront]
      unfold kittyGraphicsQueryResponse at hr
      split at hr
      · cases hr
      split at hr
      · cases hr
      simp only [hbody] at hr
      split at hr
      · cases hr
      rename_i ha
      split at hr
      · cases hr
      rename_i hi
      cases hr
      rw [not_or, Bool.not_eq_true, List.any_eq_false] at hi
      refine .inr ⟨rfl, _, rfl, .graphics hfree rfl (not_not.mp ha) hi.1 fun b hb => ?_⟩
      have hdigit := hi.2 b hb
      simp only [Bool.or_eq_true, decide_eq_true_eq, not_or, UInt8.not_lt] at hdigit
      exact hdigit
    · cases h
      rw [hfront]
      exact .inl ⟨rfl, (clientActions_other (by simp; decide)).symm⟩

theorem controlStep_takes (h : controlStep (esc :: code '[' :: rest) = .take n shown actions) :
    Takes c ((esc :: code '[' :: rest).take n) shown actions := by
  unfold controlStep at h
  split at h
  · cases h
  split at h
  · split at h
    · cases h
    · cases h
      exact takes_byte esc
  rename_i final hfinal
  split at h
  · rename_i response hr
    cases h
    refine .inr ⟨rfl, response, rfl, ?_⟩
    obtain ⟨k, rfl⟩ : ∃ k, final = k + 2 := ⟨final - 2, by have := (findFinal_bounds hfinal).1; omega⟩
    generalize hs : (esc :: code '[' :: rest).take (k + 2 + 1) = sequence at hr
    have hseq : sequence = esc :: code '[' :: rest.take (k + 1) := hs.symm
    unfold terminalQueryResponse at hr
    split at hr
    · cases hr
    rename_i hform
    simp only [not_or, not_not] at hform
    have hlast : (rest.take (k + 1)).getLast? = some (code 'c') := by
      have := hform.2.2.2
      rw [hseq] at this
      cases hr' : rest.take (k + 1) with
      | nil =>
        rw [hr'] at this
        exact absurd this (by decide)
      | cons a more =>
        rw [hr', List.getLast?_cons_cons, List.getLast?_cons_cons] at this
        exact this
    have hcut := List.dropLast_append_getLast? _ hlast
    have hparams : (sequence.drop 2).dropLast = (rest.take (k + 1)).dropLast := by rw [hseq]; rfl
    simp only [hparams] at hr
    rw [hseq, ← hcut]
    split at hr
    · rename_i hp
      cases hr
      exact .primary hp
    · split at hr
      · rename_i hp
        cases hr
        exact .secondary hp
      · cases hr
  · cases h
    exact .inl ⟨rfl, rfl⟩

theorem oscStep_takes (h : oscStep c (esc :: code ']' :: rest) = .take n shown actions) :
    Takes c ((esc :: code ']' :: rest).take n) shown actions := by
  unfold oscStep at h
  split at h
  · split at h
    · cases h
    · cases h
      exact takes_byte esc
  rename_i stop hstop
  have hscan : findTerminator true 2 rest = some stop := by
    unfold findOSCTerminator at hstop
    split at hstop
    · cases hstop
    · exact hstop
  obtain ⟨text, t, more, rfl, hn, ht, -⟩ := findTerminator_split hscan
  have hfront : (esc :: code ']' :: (text ++ t ++ more)).take stop = esc :: code ']' :: (text ++ t) := by
    have hlen : stop = (esc :: code ']' :: (text ++ t)).length := by
      rw [hn]
      simp only [List.length_cons]
      omega
    rw [hlen, show esc :: code ']' :: (text ++ t ++ more) = (esc :: code ']' :: (text ++ t)) ++ more by simp, List.take_left]
  rw [hfront] at h
  split at h
  · rename_i response hr
    cases h
    rw [hfront]
    refine .inr ⟨rfl, response, rfl, .osc ?_ (ht.elim .inr fun hb => .inl hb.2)⟩
    unfold TerminalColors.terminalOSCQueryResponse at hr
    split at hr
    · cases hr
    rcases ht with rfl | ⟨-, rfl⟩
    · have hlast : (esc :: code ']' :: (text ++ [esc, code '\\'])).getLast? = some (code '\\') := by
        rw [show esc :: code ']' :: (text ++ [esc, code '\\']) = (esc :: code ']' :: text ++ [esc]) ++ [code '\\'] by simp,
          List.getLast?_concat]
      rw [if_neg (by rw [hlast]; decide)] at hr
      split at hr
      · simpa [List.dropLast_append_of_ne_nil] using hr
      · cases hr
    · have hlast : (esc :: code ']' :: (text ++ [bel])).getLast? = some bel := by
        rw [show esc :: code ']' :: (text ++ [bel]) = (esc :: code ']' :: text) ++ [bel] by simp, List.getLast?_concat]
      rw [if_pos hlast] at hr
      simpa using hr
  · cases h
    rw [hfront]
    exact .inl ⟨rfl, (clientActions_other (by simp; decide)).symm⟩

theorem queryStep_takes {w : Bytes} (hne : w ≠ []) (h : queryStep c w = .take n shown actions) :
    Takes c (w.take n) shown actions := by
  rcases sequence_cases hne with ⟨x, rest, hx, rfl⟩ | rfl | ⟨rest, rfl⟩ | ⟨rest, rfl⟩ | ⟨rest, rfl⟩ | ⟨rest, rfl⟩ |
    ⟨kind, rest, hk, rfl⟩
  · rw [queryStep_text hx] at h
    cases h
    exact takes_byte x
  · cases h
  · exact graphicsStep_takes h
  · exact controlStep_takes h
  · exact oscStep_takes h
  · cases h
    exact .inr ⟨rfl, _, rfl, .identify⟩
  · rw [queryStep_other hk] at h
    cases h
    exact takes_byte esc

theorem graphicsStep_hold (h : graphicsStep (esc :: code '_' :: rest) = .hold) : Held (esc :: code '_' :: rest) := by
  unfold graphicsStep at h
  split at h
  · rename_i hl
    simp only [List.length_cons] at hl
    refine .inr ⟨rfl, ?_, .inl (.inr (.inl ⟨rfl, fun hi => ?_⟩))⟩
    · simp only [List.length_cons, maxPendingKittyGraphicsQuery]
      omega
    · have := hi.length_le
      simp only [List.length_cons, List.length_nil, List.drop_succ_cons, List.drop_zero] at this
      omega
  rename_i hl
  split at h
  · cases h
  rename_i hkind
  rw [not_not] at hkind
  split at h
  · rename_i hsemi
    split at h
    · rename_i hle
      refine .inr ⟨rfl, Nat.le_trans hle (by decide), ?_⟩
      by_cases hst : [esc, code '\\'] <:+: rest
      · refine .inr ⟨?_, ?_, hle, hst⟩
        · cases rest with
          | nil => cases hkind
          | cons g more =>
            simp only [List.getElem?_cons_succ, List.getElem?_cons_zero, Option.some.injEq] at hkind
            rw [hkind]
            rfl
        · unfold indexByte at hsemi
          rw [List.findIdx?_eq_none_iff] at hsemi
          intro hm
          simpa using hsemi _ hm
      · exact .inl (.inr (.inl ⟨rfl, hst⟩))
    · cases h
  split at h
  · cases h
  split at h
  · rename_i hstop
    split at h
    · rename_i hle
      refine .inr ⟨rfl, hle, .inl (.inr (.inl ⟨rfl, ?_⟩))⟩
      unfold findAPCTerminator at hstop
      rw [if_neg (by simp only [List.length_cons] at hl ⊢; simp; omega)] at hstop
      exact (findTerminator_open hstop).1
    · cases h
  · split at h <;> cases h

theorem controlStep_hold (h : controlStep (esc :: code '[' :: rest) = .hold) : Held (esc :: code '[' :: rest) := by
  unfold controlStep at h
  split at h
  · rename_i hl
    simp only [List.length_cons] at hl
    obtain rfl : rest = [] := List.length_eq_zero_iff.mp (by omega)
    exact .inr ⟨rfl, by decide, .inl (.inr (.inr (.inl ⟨rfl, by simp⟩)))⟩
  split at h
  · rename_i hfinal
    split at h
    · rename_i hle
      refine .inr ⟨rfl, Nat.le_trans hle (by decide), .inl (.inr (.inr (.inl ⟨rfl, ?_⟩)))⟩
      refine findFinal_none hfinal ?_
      simp only [List.length_cons, List.drop_succ_cons, List.drop_zero] at hle ⊢
      omega
    · cases h
  · split at h <;> cases h

theorem oscStep_hold (h : oscStep c (esc :: code ']' :: rest) = .hold) : Held (esc :: code ']' :: rest) := by
  unfold oscStep at h
  split at h
  · rename_i hstop
    split at h
    · rename_i hle
      rw [findOSCTerminator_cons] at hstop
      obtain ⟨hst, hbel⟩ := findTerminator_open hstop
      exact .inr ⟨rfl, Nat.le_trans hle (by decide), .inl (.inr (.inr (.inr ⟨rfl, hbel rfl, hst⟩)))⟩
    · cases h
  · split at h <;> cases h

theorem queryStep_hold {w : Bytes} (h : queryStep c w = .hold) : Held w := by
  by_cases hne : w = []
  · exact .inl hne
  rcases sequence_cases hne with ⟨x, rest, hx, rfl⟩ | rfl | ⟨rest, rfl⟩ | ⟨rest, rfl⟩ | ⟨rest, rfl⟩ | ⟨rest, rfl⟩ |
    ⟨kind, rest, hk, rfl⟩
  · rw [queryStep_text hx] at h
    cases h
  · exact .inr ⟨rfl, by decide, .inl (.inl rfl)⟩
  · exact graphicsStep_hold h
  · exact controlStep_hold h
  · exact oscStep_hold h
  · cases h
  · rw [queryStep_other hk] at h
    cases h

/-! ## The run -/

/-- The buffer is the pieces and what is held; the pieces account for the output and what is done. -/
structure Conserved (c : TerminalColors) (w : Bytes) (r : Result UInt8 QueryAction) (pieces : List QueryPiece) : Prop where
  valid : ∀ p ∈ pieces, p.Valid c
  whole : w = pieces.flatMap QueryPiece.raw ++ r.pending
  output : r.output = pieces.flatMap QueryPiece.shown
  actions : r.actions = pieces.flatMap QueryPiece.actions

theorem Takes.conserved {w : Bytes} {r : Result UInt8 QueryAction} {pieces : List QueryPiece}
    (h : Takes c (w.take n) shown actions) (hr : Conserved c (w.drop n) r pieces) :
    ∃ p, Conserved c w ((taken w n shown actions).andThen r) (p :: pieces) := by
  have hw : w = w.take n ++ (pieces.flatMap QueryPiece.raw ++ r.pending) := by
    rw [← hr.whole, List.take_append_drop]
  rcases h with ⟨rfl, rfl⟩ | ⟨rfl, response, rfl, hq⟩
  · refine ⟨.passed (w.take n), List.forall_mem_cons.mpr ⟨trivial, hr.valid⟩, ?_, ?_, ?_⟩
    · rw [List.flatMap_cons, List.append_assoc]
      exact hw
    · rw [List.flatMap_cons, ← hr.output]
      rfl
    · rw [List.flatMap_cons, ← hr.actions]
      rfl
  · refine ⟨.removed (w.take n) response, List.forall_mem_cons.mpr ⟨hq, hr.valid⟩, ?_, ?_, ?_⟩
    · rw [List.flatMap_cons, List.append_assoc]
      exact hw
    · rw [List.flatMap_cons, ← hr.output]
      rfl
    · rw [List.flatMap_cons, ← hr.actions]
      rfl

theorem run_conserved (c : TerminalColors) (w : Bytes) :
    (∃ pieces, Conserved c w (run (queryStep c) w) pieces) ∧ Held (run (queryStep c) w).pending := by
  by_cases hne : w = []
  · subst hne
    exact ⟨⟨[], by simp, rfl, rfl, rfl⟩, .inl rfl⟩
  cases h : queryStep c w with
  | hold =>
    rw [run_hold h]
    exact ⟨⟨[], by simp, rfl, rfl, rfl⟩, queryStep_hold h⟩
  | flush =>
    rw [run_flush h]
    refine ⟨⟨[.passed w], by simp [QueryPiece.Valid], by simp [QueryPiece.raw], by simp [QueryPiece.shown], ?_⟩, .inl rfl⟩
    obtain ⟨rest, -, rfl⟩ := queryStep_flush hne h
    have hnone : clientActions (esc :: code '_' :: rest) = [] := clientActions_other (by simp; decide)
    simp only [List.flatMap_cons, List.flatMap_nil, List.append_nil, QueryPiece.actions, hnone]
  | take n shown actions =>
    obtain ⟨hpos, hle⟩ := queryStep_progress c _ _ _ _ hne h
    obtain ⟨⟨pieces, hpieces⟩, hheld⟩ := run_conserved c (w.drop n)
    rw [run_take (queryStep_progress c) hne h]
    obtain ⟨p, hp⟩ := (queryStep_takes hne h).conserved hpieces
    exact ⟨⟨p :: pieces, hp⟩, hheld⟩
termination_by w.length
decreasing_by rw [List.length_drop]; omega

end

/-- Only the queries that are taken out are answered, and none of the bytes gets lost. What is passed
on may let the client's own answer be expected. -/
theorem queryFilter_conserved (f : QueryFilter) (data : Bytes) :
    (∃ pieces : List QueryPiece, (∀ p ∈ pieces, p.Valid f.colors) ∧
      f.terminalQueryPending ++ data =
        pieces.flatMap QueryPiece.raw ++ (f.filterTerminalQueryOutput data).1.terminalQueryPending ∧
      (f.filterTerminalQueryOutput data).2.1 = pieces.flatMap QueryPiece.shown ∧
      (f.filterTerminalQueryOutput data).2.2 = pieces.flatMap QueryPiece.actions) ∧
    (Held f.terminalQueryPending ∨ data ≠ [] → Held (f.filterTerminalQueryOutput data).1.terminalQueryPending) := by
  unfold QueryFilter.filterTerminalQueryOutput
  by_cases hd : data = []
  · subst hd
    refine ⟨⟨[], by simp, by simp, rfl, rfl⟩, fun h => ?_⟩
    exact h.resolve_right (absurd rfl)
  · simp only [if_neg hd]
    obtain ⟨⟨pieces, h⟩, hheld⟩ := run_conserved f.colors (f.terminalQueryPending ++ data)
    exact ⟨⟨pieces, h.valid, h.whole, h.output, h.actions⟩, fun _ => hheld⟩

/-! ## Less than a query -/

/-- What only the queries that are taken out account for. -/
def QueryPiece.replies : QueryPiece → List QueryAction
  | passed _ => []
  | removed _ response => answered response

/-- Inputs are expected and written only for queries that are taken out. -/
def OnlyQueriesReply (f : QueryFilter) (data : Bytes) : Prop :=
  ∃ pieces : List QueryPiece, (∀ p ∈ pieces, p.Valid f.colors) ∧
    f.terminalQueryPending ++ data =
      pieces.flatMap QueryPiece.raw ++ (f.filterTerminalQueryOutput data).1.terminalQueryPending ∧
    (f.filterTerminalQueryOutput data).2.1 = pieces.flatMap QueryPiece.shown ∧
    (f.filterTerminalQueryOutput data).2.2.filter (fun a => !(a matches .expectGeneratedCursorReport _)) =
      pieces.flatMap QueryPiece.replies

def HeldIncomplete (f : QueryFilter) (data : Bytes) : Prop :=
  (f.filterTerminalQueryOutput data).1.terminalQueryPending ≠ [] →
    Incomplete (f.filterTerminalQueryOutput data).1.terminalQueryPending

theorem replies_even (pieces : List QueryPiece) : 2 ∣ (pieces.flatMap QueryPiece.replies).length := by
  induction pieces with
  | nil => exact ⟨0, rfl⟩
  | cons p pieces ih =>
    rw [List.flatMap_cons, List.length_append]
    refine (Nat.dvd_add_right ?_).mpr ih
    cases p with
    | passed bytes => exact ⟨0, rfl⟩
    | removed sequence response => exact ⟨1, rfl⟩

/-- A status report is passed on, and its answer expected; the end of an image's sequence may be held. -/
theorem queryFilter_passes_status :
    (¬ ∀ (f : QueryFilter) (data : Bytes), OnlyQueriesReply f data) ∧
      ¬ ∀ (f : QueryFilter) (data : Bytes), HeldIncomplete f data := by
  refine ⟨fun h => ?_, fun h => ?_⟩
  · obtain ⟨pieces, -, -, -, hp⟩ := h ⟨{}, []⟩ (ascii "\x1b[5n")
    have heven := replies_even pieces
    rw [← hp] at heven
    revert heven
    decide
  · have hi := h ⟨{}, []⟩ (ascii "\x1b_Ga=d\x1b\\")
    unfold HeldIncomplete at hi
    have hp : (QueryFilter.filterTerminalQueryOutput ⟨{}, []⟩ (ascii "\x1b_Ga=d\x1b\\")).1.terminalQueryPending =
      ascii "\x1b_Ga=d\x1b\\" := rfl
    rw [hp] at hi
    rcases hi (by decide) with h' | ⟨-, h'⟩ | ⟨h', -⟩ | ⟨h', -⟩
    · revert h'
      decide
    · exact h' ⟨ascii "Ga=d", [], rfl⟩
    · revert h'
      decide
    · revert h'
      decide

end Webshell
