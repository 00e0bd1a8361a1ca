import Webshell.PaneInput
import Webshell.PaneQueryCuts
import Mathlib.Algebra.GroupWithZero.Nat
import Mathlib.Data.List.Perm.Basic

/-!
# Who answers a query

The filter answers some queries itself and passes others on; a browser may
answer either. Each consumes what is expected before it writes, so what is
written is counted against the queries that were seen.
-/

namespace Webshell

open Scanner

/-- A call in progress: a filter with what it still does for the last sequence and the rest of its
buffer, a filter that has consumed an expectation and is about to write, a client's message that has. -/
inductive PaneCall
  | filtering (actions : List QueryAction) (buffer : Bytes)
  | answering (data : Bytes) (actions : List QueryAction) (buffer : Bytes)
  | message (data : Bytes)
  deriving DecidableEq

inductive AnswerEvent
  /-- `filterTerminalQueryOutput` is called with the next read. -/
  | output (data : Bytes)
  /-- A client's `generated_input` message arrives, and consumes. -/
  | generatedInput (data : Bytes) (now : Nat)
  /-- Ordinary input arrives. -/
  | input (data : Bytes) (now : Nat)
  | setTerminalColors (colors : TerminalColors)
  /-- The call at this place takes its next step. -/
  | step (call now : Nat)

/-- A running pane, with what its filters have seen and the generated inputs written to its PTY. -/
structure AnswerRun where
  filter : QueryFilter
  pane : PaneInput := {}
  calls : List PaneCall := []
  seen : List QueryAction := []
  forwarded : List Bytes := []

/-- How many answers `r` a query asks for. -/
def QueryAction.asks (r : Bytes) : QueryAction → Nat
  | .expectGeneratedInput data count => if data = r then count else 0
  | _ => 0

def QueryAction.asksReports : QueryAction → Nat
  | .expectGeneratedCursorReport count => count
  | _ => 0

namespace AnswerRun

variable (s : AnswerRun)

/-- The queries expecting `r` that were seen. -/
def queries (r : Bytes) : Nat := (s.seen.map (QueryAction.asks r)).sum

/-- The cursor position queries that were seen. -/
def cursorQueries : Nat := (s.seen.map QueryAction.asksReports).sum

/-- The call at `i` is replaced by what it goes on with. -/
def proceed (i : Nat) (next : Option PaneCall) : AnswerRun := { s with calls := next.toList ++ s.calls.eraseIdx i }

/-- One turn of the filter's loop. -/
def turn (i : Nat) (buffer : Bytes) : AnswerRun :=
  if buffer = [] then s.proceed i none
  else
    match queryStep s.filter.colors buffer with
    | .hold => { s.proceed i none with filter := { s.filter with terminalQueryPending := buffer } }
    | .flush => s.proceed i none
    | .take n _ actions => { s.proceed i (some (.filtering actions (buffer.drop n))) with seen := s.seen ++ actions }

/-- The next thing a filter does for the last sequence. -/
def act (i : Nat) (action : QueryAction) (actions : List QueryAction) (buffer : Bytes) (now : Nat) : AnswerRun :=
  match action with
  | .expectGeneratedInput data count =>
    { s.proceed i (some (.filtering actions buffer)) with pane := s.pane.expectGeneratedInput data count }
  | .expectGeneratedCursorReport count =>
    { s.proceed i (some (.filtering actions buffer)) with pane := s.pane.expectGeneratedCursorReport count now }
  | .writeGeneratedInput data =>
    let (pane, consumed) := s.pane.consumeExpectedGeneratedInput data now
    { s.proceed i (some (if consumed then .answering data actions buffer else .filtering actions buffer)) with pane }

def stepCall (i now : Nat) : PaneCall → AnswerRun
  | .filtering [] buffer => s.turn i buffer
  | .filtering (action :: actions) buffer => s.act i action actions buffer now
  | .answering data actions buffer =>
    { s.proceed i (some (.filtering actions buffer)) with forwarded := data :: s.forwarded }
  | .message data => { s.proceed i none with forwarded := data :: s.forwarded }

end AnswerRun

def answerMachine : Machine AnswerRun AnswerEvent where
  step s
    | .output data =>
      if data = [] then some s
      else some { s with
        filter := { s.filter with terminalQueryPending := [] }
        calls := .filtering [] (s.filter.terminalQueryPending ++ data) :: s.calls }
    | .generatedInput data now =>
      let (pane, consumed) := s.pane.consumeExpectedGeneratedInput data now
      some { s with pane, calls := if consumed then .message data :: s.calls else s.calls }
    | .input data now => some { s with pane := (s.pane.writeInputWithDimensions data now).1 }
    | .setTerminalColors colors => some { s with filter := { s.filter with colors } }
    | .step i now => (s.calls[i]?).map (s.stepCall i now)

/-- The filter answers some query with `r`. -/
def ServerAnswers (r : Bytes) : Prop := ∃ colors buffer n, queryStep colors buffer = .take n false (answered r)

/-! ## What the filter does for a sequence -/

/-- The forms of the filter's own answers. -/
def AnswerForm (r : Bytes) : Prop :=
  r = primaryDeviceAttributesResponse ∨ r = secondaryDeviceAttributesResponse ∨
    (∃ rest, r = esc :: code ']' :: rest) ∨ ∃ rest, r = esc :: code '_' :: rest

/-- The status report, which is left to the client. -/
def statusReport : Bytes := ascii "\x1b[0n"

theorem AnswerForm.not_report {r : Bytes} (h : AnswerForm r) : isCursorPositionReport r = false := by
  rcases h with rfl | rfl | ⟨rest, rfl⟩ | ⟨rest, rfl⟩
  · decide +kernel
  · decide +kernel
  · unfold isCursorPositionReport
    rw [if_pos]
    exact Or.inr (Or.inr (Or.inl (by simp [show code ']' ≠ code '[' by decide])))
  · unfold isCursorPositionReport
    rw [if_pos]
    exact Or.inr (Or.inr (Or.inl (by simp [show code '_' ≠ code '[' by decide])))

theorem AnswerForm.not_status {r : Bytes} (h : AnswerForm r) : r ≠ statusReport := by
  have hs : statusReport = esc :: code '[' :: [code '0', code 'n'] := by decide
  rcases h with rfl | rfl | ⟨rest, rfl⟩ | ⟨rest, rfl⟩
  · decide
  · decide
  · rw [hs]
    intro he
    exact absurd (List.cons.inj (List.cons.inj he).2).1 (by decide)
  · rw [hs]
    intro he
    exact absurd (List.cons.inj (List.cons.inj he).2).1 (by decide)

theorem oscResponse_form {c : TerminalColors} {sequence r : Bytes} (h : c.terminalOSCQueryResponse sequence = some r) :
    AnswerForm r := by
  have hanswer : ∀ text, c.oscAnswer text = some r → AnswerForm r := by
    intro text ht
    unfold TerminalColors.oscAnswer at ht
    have hcolor : ∀ number color, AnswerForm (terminalOSCColorResponse number color) := fun _ _ =>
      Or.inr (Or.inr (Or.inl ⟨_, rfl⟩))
    split at ht
    · cases ht
      exact Or.inr (Or.inr (Or.inl ⟨_, rfl⟩))
    · split at ht
      · cases ht; exact hcolor _ _
      · split at ht
        · cases ht; exact hcolor _ _
        · split at ht
          · cases ht; exact hcolor _ _
          · cases ht
  unfold TerminalColors.terminalOSCQueryResponse at h
  split at h
  · cases h
  · split at h
    · exact hanswer _ h
    · split at h
      · exact hanswer _ h
      · cases h

theorem kittyResponse_form {sequence r : Bytes} (h : kittyGraphicsQueryResponse sequence = some r) : AnswerForm r := by
  unfold kittyGraphicsQueryResponse at h
  split at h
  · cases h
  · split at h
    · cases h
    · simp only at h
      split at h
      · cases h
      · split at h
        · cases h
        · cases h
          exact Or.inr (Or.inr (Or.inr ⟨_, rfl⟩))

theorem queryResponse_form {sequence r : Bytes} (h : terminalQueryResponse sequence = some r) : AnswerForm r := by
  unfold terminalQueryResponse at h
  split at h
  · cases h
  · simp only at h
    split at h
    · cases h; exact Or.inl rfl
    · split at h
      · cases h; exact Or.inr (Or.inl rfl)
      · cases h

theorem AnswerForm.ne_nil {r : Bytes} (h : AnswerForm r) : r ≠ [] := by
  rcases h with rfl | rfl | ⟨rest, rfl⟩ | ⟨rest, rfl⟩
  · decide
  · decide
  · exact List.cons_ne_nil _ _
  · exact List.cons_ne_nil _ _

/-- What a filter does for one sequence. -/
def Planned (actions : List QueryAction) : Prop :=
  actions = [] ∨ (∃ r, AnswerForm r ∧ actions = answered r) ∨ actions = [.expectGeneratedInput statusReport 1] ∨
    actions = [.expectGeneratedCursorReport 1]

theorem clientActions_planned (sequence : Bytes) : Planned (clientActions sequence) := by
  unfold clientActions terminalClientGeneratedResponse
  split
  · rename_i response hr
    split at hr
    · cases hr; exact Or.inr (Or.inr (Or.inl rfl))
    · cases hr
  · split
    · exact Or.inr (Or.inr (Or.inr rfl))
    · exact Or.inl rfl

theorem queryStep_planned {c : TerminalColors} {w : Bytes} {n : Nat} {shown : Bool} {actions : List QueryAction}
    (h : queryStep c w = .take n shown actions) : Planned actions := by
  have hanswered : ∀ r, AnswerForm r → Planned (answered r) := fun r hr => Or.inr (Or.inl ⟨r, hr, rfl⟩)
  by_cases hne : w = []
  · rw [hne] at h; cases h
  · rcases sequence_cases hne with ⟨x, rest, hx, rfl⟩ | rfl | ⟨rest, rfl⟩ | ⟨rest, rfl⟩ | ⟨rest, rfl⟩ | ⟨rest, rfl⟩ |
      ⟨kind, rest, hk, rfl⟩
    · rw [queryStep_text hx] at h; cases h; exact Or.inl rfl
    · cases h
    · rw [queryStep_graphics] at h
      unfold graphicsStep at h
      split at h
      · cases h
      · split at h
        · cases h; exact Or.inl rfl
        · split at h
          · split at h <;> cases h
          · split at h
            · cases h
            · split at h
              · split at h <;> cases h
              · split at h
                · rename_i response hr
                  cases h; exact hanswered _ (kittyResponse_form hr)
                · cases h; exact Or.inl rfl
    · rw [queryStep_control] at h
      unfold controlStep at h
      split at h
      · cases h
      · split at h
        · split at h <;> cases h
          exact Or.inl rfl
        · split at h
          · rename_i response hr
            cases h; exact hanswered _ (queryResponse_form hr)
          · cases h; exact clientActions_planned _
    · rw [queryStep_osc] at h
      unfold oscStep at h
      split at h
      · split at h <;> cases h
        exact Or.inl rfl
      · split at h
        · rename_i response hr
          cases h; exact hanswered _ (oscResponse_form hr)
        · cases h; exact Or.inl rfl
    · cases h; exact hanswered _ (Or.inl rfl)
    · rw [queryStep_other hk] at h; cases h; exact Or.inl rfl

theorem serverAnswers_form {r : Bytes} (h : ServerAnswers r) : AnswerForm r := by
  obtain ⟨c, w, n, hs⟩ := h
  rcases queryStep_planned hs with h | ⟨r', hr', h⟩ | h | h
  · cases h
  · cases h; exact hr'
  · cases h
  · cases h

/-! ## The ledger of the calls -/

namespace PaneCall

/-- What a call still does for the last sequence. -/
def actions : PaneCall → List QueryAction
  | .filtering actions _ => actions
  | .answering _ actions _ => actions
  | .message _ => []

/-- What a call is about to write. -/
def written : PaneCall → Option Bytes
  | .filtering _ _ => none
  | .answering data _ _ => some data
  | .message data => some data

/-- The expectations of `r` that a call has yet to register, and the `r` it is about to write. -/
def due (r : Bytes) (call : PaneCall) : Nat :=
  (call.actions.map (QueryAction.asks r)).sum + if call.written = some r then 1 else 0

def reportsDue (call : PaneCall) : Nat :=
  (call.actions.map QueryAction.asksReports).sum + if call.written.any isCursorPositionReport then 1 else 0

/-- The filter has registered its expectation of `r` and has yet to consume one. -/
def unanswered (r : Bytes) (call : PaneCall) : Nat :=
  if call.written = none ∧ call.actions = [.writeGeneratedInput r] then 1 else 0

/-- Behind its registration a filter answers; behind its write nothing is left. -/
def Shaped (call : PaneCall) : Prop :=
  match call with
  | .filtering actions _ => Planned actions ∨ ∃ r, AnswerForm r ∧ actions = [.writeGeneratedInput r]
  | .answering _ actions _ => actions = []
  | .message _ => True

end PaneCall

namespace AnswerRun

def total (calls : List PaneCall) (f : PaneCall → Nat) : Nat := (calls.map f).sum

theorem total_perm {calls calls' : List PaneCall} (h : calls.Perm calls') (f : PaneCall → Nat) :
    total calls f = total calls' f := (h.map f).sum_nat

theorem total_append (calls calls' : List PaneCall) (f : PaneCall → Nat) :
    total (calls ++ calls') f = total calls f + total calls' f := by
  unfold total
  rw [List.map_append, List.sum_append]

/-- Everything asked for is registered, on its way or forwarded. -/
structure Answering (s : AnswerRun) : Prop where
  shaped : ∀ call ∈ s.calls, call.Shaped
  asked : ∀ r, isCursorPositionReport r = false →
    s.queries r = s.pane.pendingGeneratedInputs r + s.forwarded.count r + total s.calls (PaneCall.due r)
  unanswered : ∀ r, AnswerForm r → s.pane.pendingGeneratedInputs r ≤ total s.calls (PaneCall.unanswered r)
  noReports : s.pane.NoReports
  reports : s.forwarded.countP isCursorPositionReport + s.pane.pendingCursorReports + total s.calls PaneCall.reportsDue ≤
    s.cursorQueries

/-- Some calls take the place of others; beside the rest, the books of both agree. -/
structure Replaces (s s' : AnswerRun) (before after rest : List PaneCall) : Prop where
  calls : s.calls.Perm (before ++ rest)
  calls' : s'.calls.Perm (after ++ rest)
  shaped : ∀ call ∈ after, call.Shaped
  asked : ∀ r, isCursorPositionReport r = false →
    s'.queries r + (s.pane.pendingGeneratedInputs r + s.forwarded.count r + total before (PaneCall.due r)) =
      s.queries r + (s'.pane.pendingGeneratedInputs r + s'.forwarded.count r + total after (PaneCall.due r))
  unanswered : ∀ r, AnswerForm r → s'.pane.pendingGeneratedInputs r = 0 ∨
    s'.pane.pendingGeneratedInputs r + total before (PaneCall.unanswered r) ≤
      s.pane.pendingGeneratedInputs r + total after (PaneCall.unanswered r)
  noReports : s'.pane.NoReports
  reports : s'.forwarded.countP isCursorPositionReport + s'.pane.pendingCursorReports + total after PaneCall.reportsDue +
      s.cursorQueries ≤
    s.forwarded.countP isCursorPositionReport + s.pane.pendingCursorReports + total before PaneCall.reportsDue + s'.cursorQueries

theorem Answering.replace {s s' : AnswerRun} {rest : List PaneCall} (before after : List PaneCall) (h : Answering s)
    (hr : Replaces s s' before after rest) : Answering s' where
  shaped := by
    intro call hc
    rcases List.mem_append.mp (hr.calls'.mem_iff.mp hc) with hc | hc
    · exact hr.shaped call hc
    · exact h.shaped call (hr.calls.mem_iff.mpr (List.mem_append_right _ hc))
  asked := by
    intro r hno
    have hs := h.asked r hno
    have hs' := hr.asked r hno
    rw [total_perm hr.calls, total_append] at hs
    rw [total_perm hr.calls', total_append]
    omega
  unanswered := by
    intro r hform
    have hs := h.unanswered r hform
    rw [total_perm hr.calls, total_append] at hs
    rw [total_perm hr.calls', total_append]
    rcases hr.unanswered r hform with hz | hs'
    · omega
    · omega
  noReports := hr.noReports
  reports := by
    have hs := h.reports
    have hs' := hr.reports
    rw [total_perm hr.calls, total_append] at hs
    rw [total_perm hr.calls', total_append]
    omega

end AnswerRun

/-! ## What is consumed -/

namespace PaneInput

variable {p : PaneInput} {data : Bytes} {now : Nat}

theorem locked_fields (p : PaneInput) (now : Nat) :
    (p.cursorReportWindowActiveLocked now).1.pendingGeneratedInputs = p.pendingGeneratedInputs ∧
      (p.cursorReportWindowActiveLocked now).1.pendingCursorReports ≤ p.pendingCursorReports := by
  unfold cursorReportWindowActiveLocked
  split
  · exact ⟨rfl, Nat.le_refl _⟩
  · exact ⟨rfl, Nat.zero_le _⟩

/-- An expectation of the input is consumed, or one of a report, or none. -/
inductive Consumes (p : PaneInput) (data : Bytes) : PaneInput × Bool → Prop
  | expected (p' : PaneInput) (hpos : p.pendingGeneratedInputs data ≠ 0)
      (hmap : ∀ r, p.pendingGeneratedInputs r = p'.pendingGeneratedInputs r + if data = r then 1 else 0)
      (hreports : p'.pendingCursorReports = p.pendingCursorReports) : Consumes p data (p', true)
  | report (p' : PaneInput) (hdata : isCursorPositionReport data = true)
      (hmap : p'.pendingGeneratedInputs = p.pendingGeneratedInputs)
      (hreports : p'.pendingCursorReports + 1 ≤ p.pendingCursorReports) : Consumes p data (p', true)
  | nothing (p' : PaneInput) (hnone : data ≠ [] → p.pendingGeneratedInputs data = 0)
      (hmap : p'.pendingGeneratedInputs = p.pendingGeneratedInputs)
      (hreports : p'.pendingCursorReports ≤ p.pendingCursorReports) : Consumes p data (p', false)

theorem consumes (p : PaneInput) (data : Bytes) (now : Nat) : Consumes p data (p.consumeExpectedGeneratedInput data now) := by
  unfold consumeExpectedGeneratedInput
  have hlocked := locked_fields p now
  split
  · rename_i hd
    exact .nothing p (fun hne => absurd hd hne) rfl (Nat.le_refl _)
  · split
    · rename_i hz
      simp only
      split
      · rename_i hc
        simp only [Bool.and_eq_true, decide_eq_true_eq] at hc
        refine .report _ hc.2 hlocked.1 ?_
        have hpos := hc.1.2
        have hle := hlocked.2
        change (p.cursorReportWindowActiveLocked now).1.pendingCursorReports - 1 + 1 ≤ p.pendingCursorReports
        omega
      · exact .nothing _ (fun _ => hz) hlocked.1 hlocked.2
    · rename_i hz
      refine .expected _ hz (fun r => ?_) rfl
      simp only
      by_cases hr : r = data
      · subst hr
        simp only [if_true]
        omega
      · rw [if_neg hr, if_neg (fun he => hr he.symm), Nat.add_zero]

theorem typed_fields (p : PaneInput) (data : Bytes) (now : Nat) :
    (p.writeInputWithDimensions data now).1.pendingGeneratedInputs = p.pendingGeneratedInputs ∧
      (p.writeInputWithDimensions data now).1.pendingCursorReports ≤ p.pendingCursorReports := by
  have hlocked := locked_fields p now
  unfold writeInputWithDimensions consumeGeneratedCursorReportInput
  simp only
  split
  · exact ⟨rfl, Nat.le_refl _⟩
  · split
    · exact ⟨rfl, Nat.le_refl _⟩
    · split
      · exact hlocked
      · split
        · exact ⟨hlocked.1, Nat.le_trans (Nat.sub_le _ _) hlocked.2⟩
        · exact hlocked

theorem expect_fields (p : PaneInput) {data : Bytes} (hd : data ≠ []) (count : Nat) :
    (∀ r, (p.expectGeneratedInput data count).pendingGeneratedInputs r =
        p.pendingGeneratedInputs r + if data = r then count else 0) ∧
      (p.expectGeneratedInput data count).pendingCursorReports = p.pendingCursorReports := by
  unfold expectGeneratedInput
  split
  · rename_i h
    have hz : count = 0 := h.resolve_left hd
    subst hz
    exact ⟨fun r => by simp, rfl⟩
  · refine ⟨fun r => ?_, rfl⟩
    simp only
    by_cases hr : r = data
    · subst hr; simp
    · rw [if_neg hr, if_neg (fun he => hr he.symm), Nat.add_zero]

theorem expectReport_fields (p : PaneInput) (count now : Nat) :
    (p.expectGeneratedCursorReport count now).pendingGeneratedInputs = p.pendingGeneratedInputs ∧
      (p.expectGeneratedCursorReport count now).pendingCursorReports = p.pendingCursorReports + count := by
  unfold expectGeneratedCursorReport
  split
  · rename_i h
    subst h
    exact ⟨rfl, rfl⟩
  · exact ⟨rfl, rfl⟩

end PaneInput

/-! ## One step -/

namespace AnswerRun

variable {s s' : AnswerRun}

theorem erase_perm {i : Nat} {call : PaneCall} (h : s.calls[i]? = some call) :
    s.calls.Perm ([call] ++ s.calls.eraseIdx i) := by
  obtain ⟨hi, rfl⟩ := List.getElem?_eq_some_iff.mp h
  exact (List.getElem_cons_eraseIdx_perm hi).symm

theorem total_one (call : PaneCall) (f : PaneCall → Nat) : total [call] f = f call := by
  unfold total
  rw [List.map_cons, List.map_nil, List.sum_cons, List.sum_nil, Nat.add_zero]

@[simp] theorem total_none (f : PaneCall → Nat) : total [] f = 0 := rfl

@[simp] theorem proceed_forwarded (s : AnswerRun) (i : Nat) (next : Option PaneCall) :
    (s.proceed i next).forwarded = s.forwarded := rfl

theorem queries_append (s : AnswerRun) (actions : List QueryAction) (r : Bytes) :
    ({ s with seen := s.seen ++ actions } : AnswerRun).queries r = s.queries r + (actions.map (QueryAction.asks r)).sum := by
  unfold queries
  rw [List.map_append, List.sum_append]

theorem cursorQueries_append (s : AnswerRun) (actions : List QueryAction) :
    ({ s with seen := s.seen ++ actions } : AnswerRun).cursorQueries =
      s.cursorQueries + (actions.map QueryAction.asksReports).sum := by
  unfold cursorQueries
  rw [List.map_append, List.sum_append]

/-- A call that consumes is about to write; one that does not, is not. -/
theorem replaces_consume (h : Answering s) {data : Bytes} {p' : PaneInput} {consumed : Bool}
    (hc : PaneInput.Consumes s.pane data (p', consumed)) (before after : List PaneCall) {rest calls' : List PaneCall}
    (hb : s.calls.Perm (before ++ rest)) (ha : calls'.Perm (after ++ rest)) (hshaped : ∀ call ∈ after, call.Shaped)
    (hdue : ∀ r, total after (PaneCall.due r) =
      total before (PaneCall.due r) + if consumed = true ∧ data = r then 1 else 0)
    (hunanswered : ∀ r, total before (PaneCall.unanswered r) ≤
      total after (PaneCall.unanswered r) + if data = r then 1 else 0)
    (hreports : total after PaneCall.reportsDue =
      total before PaneCall.reportsDue + if consumed = true ∧ isCursorPositionReport data = true then 1 else 0) :
    Replaces s { s with pane := p', calls := calls' } before after rest := by
  have hnone : ∀ r, AnswerForm r → isCursorPositionReport data = true → data ≠ r := by
    rintro r hform hdata rfl
    rw [hform.not_report] at hdata
    cases hdata
  cases hc with
  | expected _ hpos hmap hcursor =>
    have hno : isCursorPositionReport data = false := by
      cases hd : isCursorPositionReport data with
      | false => rfl
      | true => exact absurd (h.noReports data hd) hpos
    refine ⟨hb, ha, hshaped, fun r hr => ?_, fun r hform => Or.inr ?_, fun r hr => ?_, ?_⟩
    · have hm := hmap r
      have hd := hdue r
      simp only [true_and] at hd
      change s.queries r + _ = s.queries r + _
      simp only
      omega
    · have hm := hmap r
      have hu := hunanswered r
      simp only
      omega
    · have hm := hmap r
      have hz := h.noReports r hr
      simp only
      omega
    · simp only [hno, Bool.false_eq_true, and_false, if_false, Nat.add_zero] at hreports
      change _ + s.cursorQueries ≤ _ + s.cursorQueries
      simp only
      omega
  | report _ hdata hmap hcursor =>
    refine ⟨hb, ha, hshaped, fun r hr => ?_, fun r hform => Or.inr ?_, fun r hr => ?_, ?_⟩
    · have hd := hdue r
      have hne : data ≠ r := by
        rintro rfl
        rw [hr] at hdata
        cases hdata
      simp only [hne, and_false, if_false, Nat.add_zero] at hd
      change s.queries r + _ = s.queries r + _
      simp only [hmap]
      omega
    · have hu := hunanswered r
      rw [if_neg (hnone r hform hdata)] at hu
      simp only [hmap]
      omega
    · simp only [hmap]
      exact h.noReports r hr
    · simp only [hdata, and_self, if_true] at hreports
      change _ + s.cursorQueries ≤ _ + s.cursorQueries
      simp only
      omega
  | nothing _ hzero hmap hcursor =>
    simp only [Bool.false_eq_true, false_and, if_false, Nat.add_zero] at hdue hreports
    refine ⟨hb, ha, hshaped, fun r hr => ?_, fun r hform => ?_, fun r hr => ?_, ?_⟩
    · have hd := hdue r
      change s.queries r + _ = s.queries r + _
      simp only [hmap]
      omega
    · by_cases hr : data = r
      · subst hr
        left
        simp only [hmap]
        exact hzero hform.ne_nil
      · right
        have hu := hunanswered r
        rw [if_neg hr] at hu
        simp only [hmap]
        omega
    · simp only [hmap]
      exact h.noReports r hr
    · change _ + s.cursorQueries ≤ _ + s.cursorQueries
      simp only
      omega

/-- What was about to be written is written. -/
theorem replaces_forward {call : PaneCall} {data : Bytes} {after rest calls' : List PaneCall} (h : Answering s)
    (hw : call.written = some data) (hactions : call.actions = []) (hb : s.calls.Perm ([call] ++ rest))
    (ha : calls'.Perm (after ++ rest)) (hafter : after = [] ∨ ∃ buffer, after = [.filtering [] buffer]) :
    Replaces s { s with calls := calls', forwarded := data :: s.forwarded } [call] after rest := by
  have hnothing : (∀ call ∈ after, call.Shaped) ∧ (∀ r, total after (PaneCall.due r) = 0) ∧
      total after PaneCall.reportsDue = 0 := by
    rcases hafter with rfl | ⟨buffer, rfl⟩
    · exact ⟨fun _ hc => absurd hc List.not_mem_nil, fun _ => rfl, rfl⟩
    · refine ⟨fun call hc => ?_, fun _ => rfl, rfl⟩
      rw [List.mem_singleton.mp hc]
      exact Or.inl (Or.inl rfl)
  obtain ⟨hshaped, hdue, hreports⟩ := hnothing
  refine ⟨hb, ha, hshaped, fun r hr => ?_, fun r hform => Or.inr ?_, h.noReports, ?_⟩
  · rw [hdue, total_one]
    unfold PaneCall.due
    change s.queries r + _ = s.queries r + _
    simp only [hactions, hw, List.map_nil, List.sum_nil, Option.some.injEq, List.count_cons, beq_iff_eq]
    omega
  · rw [total_one]
    unfold PaneCall.unanswered
    rw [hw]
    simp only [reduceCtorEq, false_and, if_false]
    omega
  · rw [hreports, total_one]
    unfold PaneCall.reportsDue
    change _ + s.cursorQueries ≤ _ + s.cursorQueries
    simp only [hactions, hw, List.map_nil, List.sum_nil, Option.any_some, List.countP_cons]
    omega

/-- A filter goes on, with what it does for the sequence it has seen. -/
theorem replaces_seen (before calls' : List PaneCall) {after rest : List PaneCall} (h : Answering s) (filter : QueryFilter)
    {actions : List QueryAction} (hactions : Planned actions) (hb : s.calls.Perm (before ++ rest))
    (ha : calls'.Perm (after ++ rest)) (hbefore : before = [] ∨ ∃ buffer, before = [.filtering [] buffer])
    (hafter : after = [] ∧ actions = [] ∨ ∃ buffer, after = [.filtering actions buffer]) :
    Replaces s { s with filter, calls := calls', seen := s.seen ++ actions } before after rest := by
  have hpast : (∀ r, total before (PaneCall.due r) = 0) ∧ (∀ r, total before (PaneCall.unanswered r) = 0) ∧
      total before PaneCall.reportsDue = 0 := by
    rcases hbefore with rfl | ⟨buffer, rfl⟩
    · exact ⟨fun _ => rfl, fun _ => rfl, rfl⟩
    · exact ⟨fun _ => rfl, fun _ => rfl, rfl⟩
  have hnext : (∀ call ∈ after, call.Shaped) ∧
      (∀ r, total after (PaneCall.due r) = (actions.map (QueryAction.asks r)).sum) ∧
      total after PaneCall.reportsDue = (actions.map QueryAction.asksReports).sum := by
    rcases hafter with ⟨rfl, rfl⟩ | ⟨buffer, rfl⟩
    · exact ⟨fun _ hc => absurd hc List.not_mem_nil, fun _ => rfl, rfl⟩
    · refine ⟨fun call hc => ?_, fun r => ?_, ?_⟩
      · rw [List.mem_singleton.mp hc]
        exact Or.inl hactions
      · rw [total_one]
        rfl
      · rw [total_one]
        rfl
  obtain ⟨hdue, hunanswered, hreports⟩ := hpast
  obtain ⟨hshaped, hdue', hreports'⟩ := hnext
  refine ⟨hb, ha, hshaped, fun r hr => ?_, fun r hform => Or.inr ?_, h.noReports, ?_⟩
  · have hq := s.queries_append actions r
    change (AnswerRun.queries { s with seen := s.seen ++ actions } r) + _ = _
    rw [hq, hdue, hdue']
    simp only
    omega
  · rw [hunanswered]
    simp only
    omega
  · have hq := s.cursorQueries_append actions
    change _ ≤ _ + (AnswerRun.cursorQueries { s with seen := s.seen ++ actions })
    rw [hq, hreports, hreports']
    simp only
    omega

theorem turn_answering (h : Answering s) {i : Nat} {buffer : Bytes} (hi : s.calls[i]? = some (.filtering [] buffer)) :
    Answering (s.turn i buffer) := by
  have hb := erase_perm hi
  have hend : ∀ filter : QueryFilter, Answering { s.proceed i none with filter } := by
    intro filter
    have hr := replaces_seen _ (s.calls.eraseIdx i) h filter (Or.inl rfl) hb (.refl _) (Or.inr ⟨_, rfl⟩) (Or.inl ⟨rfl, rfl⟩)
    rw [List.append_nil] at hr
    exact h.replace _ _ hr
  unfold turn
  split
  · exact hend s.filter
  · split
    · exact hend _
    · exact hend s.filter
    · rename_i n shown actions hstep
      exact h.replace _ _ (replaces_seen _ _ h s.filter (queryStep_planned hstep) hb (.refl _) (Or.inr ⟨_, rfl⟩) (Or.inr ⟨_, rfl⟩))

/-- An expectation is registered; where it is of an answer of the filter's own, the answer follows. -/
theorem expect_answering (h : Answering s) {i : Nat} {data : Bytes} {actions : List QueryAction} {buffer : Bytes}
    (hi : s.calls[i]? = some (.filtering (.expectGeneratedInput data 1 :: actions) buffer)) (hne : data ≠ [])
    (hno : isCursorPositionReport data = false) (hshaped : (PaneCall.filtering actions buffer).Shaped)
    (hfollows : AnswerForm data → actions = [.writeGeneratedInput data]) :
    Answering { s.proceed i (some (.filtering actions buffer)) with pane := s.pane.expectGeneratedInput data 1 } := by
  obtain ⟨hmap, hcursor⟩ := s.pane.expect_fields hne 1
  refine h.replace _ _ ⟨erase_perm hi, .refl _, fun call hc => ?_, fun r _ => ?_, fun r hform => Or.inr ?_, fun r hr => ?_, ?_⟩
  · rw [List.mem_singleton.mp hc]
    exact hshaped
  · rw [Option.toList_some, total_one, total_one]
    change s.queries r + _ = s.queries r + _
    simp only [hmap, PaneCall.due, PaneCall.actions, PaneCall.written, List.map_cons, List.sum_cons, QueryAction.asks,
      reduceCtorEq, if_false, proceed_forwarded]
    omega
  · rw [Option.toList_some, total_one, total_one]
    simp only [hmap, PaneCall.unanswered, PaneCall.actions, PaneCall.written, true_and]
    by_cases hr : data = r
    · subst hr
      rw [hfollows hform]
      simp
    · simp [hr]
  · have hd : data ≠ r := by
      rintro rfl
      rw [hno] at hr
      cases hr
    simp only [hmap, if_neg hd, Nat.add_zero]
    exact h.noReports r hr
  · rw [Option.toList_some, total_one, total_one]
    change _ + s.cursorQueries ≤ _ + s.cursorQueries
    simp only [hcursor, PaneCall.reportsDue, PaneCall.actions, PaneCall.written, List.map_cons, List.sum_cons,
      QueryAction.asksReports, Option.any_none, Bool.false_eq_true, if_false, proceed_forwarded]
    omega

theorem expectReport_answering (h : Answering s) {i now : Nat} {buffer : Bytes}
    (hi : s.calls[i]? = some (.filtering [.expectGeneratedCursorReport 1] buffer)) :
    Answering { s.proceed i (some (.filtering [] buffer)) with pane := s.pane.expectGeneratedCursorReport 1 now } := by
  obtain ⟨hmap, hcursor⟩ := s.pane.expectReport_fields 1 now
  refine h.replace _ _ ⟨erase_perm hi, .refl _, fun call hc => ?_, fun r _ => ?_, fun r _ => Or.inr ?_, fun r hr => ?_, ?_⟩
  · rw [List.mem_singleton.mp hc]
    exact Or.inl (Or.inl rfl)
  · rw [Option.toList_some, total_one, total_one]
    simp only [hmap]
    rfl
  · rw [Option.toList_some, total_one, total_one]
    simp only [hmap]
    exact Nat.le_refl _
  · simp only [hmap]
    exact h.noReports r hr
  · rw [Option.toList_some, total_one, total_one]
    change _ + s.cursorQueries ≤ _ + s.cursorQueries
    simp only [hcursor, PaneCall.reportsDue, PaneCall.actions, PaneCall.written, List.map_cons, List.sum_cons,
      List.map_nil, List.sum_nil, QueryAction.asksReports, Option.any_none, Bool.false_eq_true, if_false, proceed_forwarded]
    omega

/-- The filter's own answer consumes like any client's. -/
theorem answer_answering (h : Answering s) {i now : Nat} {data : Bytes} {buffer : Bytes}
    (hi : s.calls[i]? = some (.filtering [.writeGeneratedInput data] buffer)) :
    Answering (s.act i (.writeGeneratedInput data) [] buffer now) := by
  have hc := s.pane.consumes data now
  rcases hr : s.pane.consumeExpectedGeneratedInput data now with ⟨pane, consumed⟩
  rw [hr] at hc
  unfold act
  simp only [hr]
  refine h.replace _ _ (replaces_consume h hc _ _ (erase_perm hi) (.refl _) (fun call hcall => ?_) (fun r => ?_) (fun r => ?_) ?_)
  · rw [List.mem_singleton.mp hcall]
    split
    · rfl
    · exact Or.inl (Or.inl rfl)
  · rw [Option.toList_some, total_one, total_one]
    cases consumed <;> simp [PaneCall.due, PaneCall.actions, PaneCall.written, QueryAction.asks]
  · rw [Option.toList_some, total_one, total_one]
    simp only [PaneCall.unanswered, PaneCall.actions, PaneCall.written, true_and, List.cons.injEq, and_true,
      QueryAction.writeGeneratedInput.injEq]
    omega
  · rw [Option.toList_some, total_one, total_one]
    cases consumed <;> simp [PaneCall.reportsDue, PaneCall.actions, PaneCall.written, QueryAction.asksReports]

theorem act_answering (h : Answering s) {i now : Nat} {action : QueryAction} {actions : List QueryAction} {buffer : Bytes}
    (hi : s.calls[i]? = some (.filtering (action :: actions) buffer)) :
    Answering (s.act i action actions buffer now) := by
  rcases h.shaped _ (List.mem_of_getElem? hi) with (hp | ⟨r, hr, hp⟩ | hp | hp) | ⟨r, hr, hp⟩
  · cases hp
  · cases hp
    exact expect_answering h hi hr.ne_nil hr.not_report (Or.inr ⟨r, hr, rfl⟩) (fun _ => rfl)
  · cases hp
    exact expect_answering h hi (by decide) (by decide +kernel) (Or.inl (Or.inl rfl))
      (fun hform => absurd rfl hform.not_status)
  · cases hp
    exact expectReport_answering h hi
  · cases hp
    exact answer_answering h hi

theorem step_answering {e : AnswerEvent} (h : Answering s) (hstep : answerMachine.step s e = some s') : Answering s' := by
  cases e with
  | output data =>
    unfold answerMachine at hstep
    simp only at hstep
    split at hstep
    · cases hstep; exact h
    · cases hstep
      have hr := replaces_seen [] _ h { s.filter with terminalQueryPending := [] } (Or.inl rfl) (.refl _) (.refl _)
        (Or.inl rfl) (Or.inr ⟨s.filter.terminalQueryPending ++ data, rfl⟩)
      rw [List.append_nil] at hr
      exact h.replace _ _ hr
  | generatedInput data now =>
    have hc := s.pane.consumes data now
    unfold answerMachine at hstep
    simp only at hstep
    generalize s.pane.consumeExpectedGeneratedInput data now = r at hc hstep
    obtain ⟨pane, consumed⟩ := r
    cases hstep
    refine h.replace _ _ (replaces_consume h hc [] (if consumed then [.message data] else []) (.refl _) ?_
      ?_ ?_ ?_ ?_)
    · cases consumed <;> exact .refl _
    · cases consumed <;> simp [PaneCall.Shaped]
    · cases consumed <;> simp [total, PaneCall.due, PaneCall.actions, PaneCall.written]
    · simp
    · cases consumed <;> cases hd : isCursorPositionReport data <;>
        simp [total, PaneCall.reportsDue, PaneCall.actions, PaneCall.written, hd]
  | input data now =>
    cases hstep
    obtain ⟨hmap, hcursor⟩ := s.pane.typed_fields data now
    refine h.replace [] [] ⟨.refl _, .refl _, fun _ hc => absurd hc List.not_mem_nil, fun r _ => ?_,
      fun r _ => Or.inr ?_, fun r hr => ?_, ?_⟩
    · simp only [hmap]
      rfl
    · simp only [hmap]
      exact Nat.le_refl _
    · simp only [hmap]
      exact h.noReports r hr
    · change _ + s.cursorQueries ≤ _ + s.cursorQueries
      simp only
      omega
  | setTerminalColors colors =>
    cases hstep
    exact ⟨h.shaped, h.asked, h.unanswered, h.noReports, h.reports⟩
  | step i now =>
    unfold answerMachine at hstep
    simp only at hstep
    cases hi : s.calls[i]? with
    | none => rw [hi] at hstep; cases hstep
    | some call =>
      rw [hi] at hstep
      cases hstep
      have hb := erase_perm hi
      cases call with
      | filtering actions buffer =>
        cases actions with
        | nil => exact turn_answering h hi
        | cons action actions => exact act_answering h hi
      | answering data actions buffer =>
        have hactions : actions = [] := h.shaped _ (List.mem_of_getElem? hi)
        subst hactions
        exact h.replace _ _ (replaces_forward h rfl rfl hb (.refl _) (Or.inr ⟨buffer, rfl⟩))
      | message data => exact h.replace _ _ (replaces_forward h rfl rfl hb (.refl _) (Or.inl rfl))

theorem start_answering (filter : QueryFilter) : Answering { filter } :=
  ⟨fun _ hc => absurd hc List.not_mem_nil, fun _ _ => rfl, fun _ _ => Nat.le_refl _, fun _ _ => rfl, Nat.le_refl _⟩

theorem reachable_answering {filter : QueryFilter} {s : AnswerRun} (h : answerMachine.Reachable { filter } s) : Answering s :=
  answerMachine.reachable_inv (fun _ _ _ hs hstep => step_answering hs hstep) h (start_answering filter)

/-- No more answers are written than queries were seen, as many as were seen of the queries that the
pane answers itself, and none that nobody asked for. -/
theorem answered_once {filter : QueryFilter} {s : AnswerRun} (h : answerMachine.Reachable { filter } s) :
    (∀ r, isCursorPositionReport r = false → s.forwarded.count r ≤ s.queries r) ∧
      (∀ r, ServerAnswers r → s.calls = [] → s.forwarded.count r = s.queries r) ∧
      s.forwarded.countP isCursorPositionReport ≤ s.cursorQueries ∧
      ∀ r ∈ s.forwarded, 0 < s.queries r ∨ isCursorPositionReport r = true ∧ 0 < s.cursorQueries := by
  have hs := reachable_answering h
  have hreports := hs.reports
  refine ⟨fun r hr => ?_, fun r hr hidle => ?_, by omega, fun r hr => ?_⟩
  · have hasked := hs.asked r hr
    omega
  · have hform := serverAnswers_form hr
    have hasked := hs.asked r hform.not_report
    have hunanswered := hs.unanswered r hform
    rw [hidle] at hasked hunanswered
    simp only [total_none] at hasked hunanswered
    omega
  · cases hd : isCursorPositionReport r with
    | false =>
      left
      have hasked := hs.asked r hd
      have hpos := List.count_pos_iff.mpr hr
      omega
    | true =>
      right
      have hpos := List.countP_pos_iff.mpr ⟨r, hr, hd⟩
      exact ⟨rfl, by omega⟩

/-- The pane and a browser both answer one query for the device attributes, the browser first. -/
def bothAnswer : List AnswerEvent :=
  [.output (ascii "\x1b[c"), .step 0 0, .step 0 0, .generatedInput primaryDeviceAttributesResponse 0, .step 1 0, .step 1 0,
    .step 0 0]

theorem answered_once_both : ∃ s, answerMachine.run { filter := ⟨{}, []⟩ } bothAnswer = some s ∧ s.calls = [] ∧
    s.forwarded.count primaryDeviceAttributesResponse = s.queries primaryDeviceAttributesResponse := by
  have hidle : (answerMachine.run { filter := ⟨{}, []⟩ } bothAnswer).map (fun s => s.calls) = some [] := by decide +kernel
  obtain ⟨s, hs, hcalls⟩ := Option.map_eq_some_iff.mp hidle
  refine ⟨s, hs, hcalls, (answered_once ⟨_, hs⟩).2.1 _ ⟨{}, ascii "\x1b[c", 3, by decide +kernel⟩ hcalls⟩

end AnswerRun

end Webshell
