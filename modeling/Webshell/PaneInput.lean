import Webshell.PaneQueries
import Webshell.Machine

/-!
# Answers that a pane expects

The answers to queries that were passed on come back from the clients as input.
The pane counts what it still expects, answer by answer; cursor position
reports are counted together, for as long as their window is open.
-/

namespace Webshell

open GoText

/-- `2 * time.Second`. -/
def generatedCursorReportWindow : Nat := 2000000000

/-- The expectations of a pane; an answer that is not in the map is expected 0 times. -/
structure PaneInput where
  pendingGeneratedInputs : Bytes → Nat := fun _ => 0
  pendingCursorReports : Nat := 0
  pendingCursorReportUntil : Option Nat := none

/-! ## Reports -/

def isReportNumber (part : Bytes) : Bool :=
  part ≠ [] && part.length ≤ 4 && part.all fun b => code '0' ≤ b && b ≤ code '9'

def isCursorPositionReport (data : Bytes) : Bool :=
  if data.length < 6 ∨ data[0]? ≠ some esc ∨ data[1]? ≠ some (code '[') ∨ data.getLast? ≠ some (code 'R') then false
  else
    match (data.drop 2).dropLast.splitOn (code ';') with
    | [row, column] => isReportNumber row && isReportNumber column
    | _ => false

/-- One alternative of `cursorPositionReportTailPattern`, without its `R`. -/
def isReportTail (part : Bytes) : Bool :=
  match part.splitOn (code ';') with
  | [number] => isReportNumber number || (number.head? = some (code '[') && isReportNumber number.tail)
  | [row, column] =>
    (row = [] || isReportNumber row || (row.head? = some (code '[') && isReportNumber row.tail)) && isReportNumber column
  | _ => false

/-- Every piece of the pattern ends in its only `R`. -/
def isCursorPositionReportTail (data : Bytes) : Bool :=
  data.getLast? = some (code 'R') && (data.dropLast.splitOn (code 'R')).all isReportTail

namespace PaneInput

variable (p : PaneInput)

def expectGeneratedInput (data : Bytes) (count : Nat) : PaneInput :=
  if data = [] ∨ count = 0 then p
  else
    { p with pendingGeneratedInputs := fun key => if key = data then p.pendingGeneratedInputs key + count else p.pendingGeneratedInputs key }

def expectGeneratedCursorReport (count now : Nat) : PaneInput :=
  if count = 0 then p
  else
    { p with
      pendingCursorReports := p.pendingCursorReports + count
      pendingCursorReportUntil := some (now + generatedCursorReportWindow) }

/-- The window is open: its end has been set and is still to come. -/
def windowActive (now : Nat) : Bool :=
  match p.pendingCursorReportUntil with
  | none => false
  | some deadline => now < deadline

/-- A window that is found closed loses its count and its end. -/
def cursorReportWindowActiveLocked (now : Nat) : PaneInput × Bool :=
  if p.windowActive now then (p, true) else ({ p with pendingCursorReports := 0, pendingCursorReportUntil := none }, false)

/-- One report fewer is expected, and the window stays open from now on. -/
def acceptCursorReport (now : Nat) : PaneInput :=
  { p with
    pendingCursorReports := p.pendingCursorReports - 1
    pendingCursorReportUntil := some (now + generatedCursorReportWindow) }

def consumeExpectedGeneratedInput (data : Bytes) (now : Nat) : PaneInput × Bool :=
  if data = [] then (p, false)
  else if p.pendingGeneratedInputs data = 0 then
    let window := p.cursorReportWindowActiveLocked now
    if window.2 && 0 < window.1.pendingCursorReports && isCursorPositionReport data then
      (window.1.acceptCursorReport now, true)
    else (window.1, false)
  else
    ({ p with pendingGeneratedInputs := fun key => if key = data then p.pendingGeneratedInputs key - 1 else p.pendingGeneratedInputs key }, true)

/-- Whether the input is dropped, and the report it is where it is one that is expected. -/
def consumeGeneratedCursorReportInput (data : Bytes) (now : Nat) : PaneInput × Bool × Bytes :=
  if data = [] then (p, false, [])
  else
    let fullReport := isCursorPositionReport data
    let tailReport := isCursorPositionReportTail data
    if !fullReport && !tailReport then (p, false, [])
    else
      let window := p.cursorReportWindowActiveLocked now
      if !window.2 then (window.1, false, [])
      else if fullReport && 0 < window.1.pendingCursorReports then (window.1.acceptCursorReport now, false, data)
      else (window.1, true, [])

/-- What reaches the PTY of a generated input: `writeGeneratedInput`. -/
def writeGeneratedInput (data : Bytes) (now : Nat) : PaneInput × Option Bytes :=
  let consumed := p.consumeExpectedGeneratedInput data now
  (consumed.1, if consumed.2 then some data else none)

/-- What reaches the PTY of an ordinary input: `writeInputWithDimensions`, without the resize. -/
def writeInputWithDimensions (data : Bytes) (now : Nat) : PaneInput × Option Bytes :=
  if data = [] then (p, none)
  else
    let (pane, dropInput, generatedInput) := p.consumeGeneratedCursorReportInput data now
    (pane, if dropInput then none else if generatedInput = [] then some data else some generatedInput)

end PaneInput

/-! ## Runs with a clock -/

inductive ReportAction
  | expectGeneratedCursorReport (count : Nat)
  | writeGeneratedInput (data : Bytes)
  | writeInput (data : Bytes)
  deriving DecidableEq

/-- What is done, and when. -/
structure ReportEvent where
  now : Nat
  action : ReportAction

def PaneInput.perform (p : PaneInput) (e : ReportEvent) : PaneInput × Option Bytes :=
  match e.action with
  | .expectGeneratedCursorReport count => (p.expectGeneratedCursorReport count e.now, none)
  | .writeGeneratedInput data => p.writeGeneratedInput data e.now
  | .writeInput data => p.writeInputWithDimensions data e.now

/-- A pane with the queries seen and the reports forwarded since the window last lapsed. -/
structure ReportRun where
  pane : PaneInput := {}
  clock : Nat := 0
  queries : Nat := 0
  forwarded : Nat := 0

namespace ReportRun

/-- Where the window is not open at its time, it lapses now, and the counts begin again. -/
def lapse (s : ReportRun) : ReportRun :=
  if s.pane.windowActive s.clock then s else { s with queries := 0, forwarded := 0 }

def atTime (s : ReportRun) (now : Nat) : ReportRun := { s with clock := now }.lapse

def count (s : ReportRun) (e : ReportEvent) : ReportRun :=
  let (pane, written) := s.pane.perform e
  { s with
    pane
    queries := match e.action with
      | .expectGeneratedCursorReport count => s.queries + count
      | _ => s.queries
    forwarded := if written.any isCursorPositionReport then s.forwarded + 1 else s.forwarded }

end ReportRun

/-- Time does not go back. -/
def reportMachine : Machine ReportRun ReportEvent where
  step s e := if e.now < s.clock then none else some ((s.atTime e.now).count e).lapse

/-- No query comes to a window that has closed unnoticed, with reports still counted. -/
def Unstale (s : ReportRun) (e : ReportEvent) : Prop :=
  ∀ count, e.action = .expectGeneratedCursorReport count → count ≠ 0 →
    s.pane.windowActive e.now = true ∨ s.pane.pendingCursorReports = 0

/-- No more reports are forwarded than there were queries. In an open window every further report
that is typed is dropped, and every tail of one; outside of it nothing that is typed is. -/
def AnswersLive (s : ReportRun) (e : ReportEvent) : Prop :=
  ∀ s', reportMachine.step s e = some s' → s'.forwarded ≤ s'.queries ∧
    ∀ data, e.action = .writeInput data →
      (s.pane.windowActive e.now = false → data ≠ [] → (s.pane.perform e).2 = some data) ∧
      (s.pane.windowActive e.now = true →
        isCursorPositionReportTail data = true ∨ isCursorPositionReport data = true ∧ s.queries ≤ s.forwarded →
          (s.pane.perform e).2 = none)

/-! ## The window -/

namespace PaneInput

variable {p : PaneInput} {now : Nat}

theorem windowActive_expect (p : PaneInput) {count : Nat} (h : count ≠ 0) (now : Nat) :
    (p.expectGeneratedCursorReport count now).windowActive now = true := by
  unfold expectGeneratedCursorReport windowActive generatedCursorReportWindow
  simp [h]

theorem windowActive_accept (p : PaneInput) (now : Nat) : (p.acceptCursorReport now).windowActive now = true := by
  unfold acceptCursorReport windowActive generatedCursorReportWindow
  simp

/-- An open window was open before. -/
theorem windowActive_mono {now' : Nat} (h : now ≤ now') (ha : p.windowActive now' = true) : p.windowActive now = true := by
  unfold windowActive at ha ⊢
  cases hu : p.pendingCursorReportUntil with
  | none => rw [hu] at ha; cases ha
  | some deadline =>
    rw [hu] at ha
    simp only [decide_eq_true_eq] at ha ⊢
    omega

theorem locked_open (h : p.windowActive now = true) : p.cursorReportWindowActiveLocked now = (p, true) := by
  unfold cursorReportWindowActiveLocked
  rw [if_pos h]

theorem locked_closed (h : p.windowActive now = false) : p.cursorReportWindowActiveLocked now =
    ({ p with pendingCursorReports := 0, pendingCursorReportUntil := none }, false) := by
  unfold cursorReportWindowActiveLocked
  rw [if_neg (by rw [h]; exact Bool.false_ne_true)]

/-- No report is expected as an answer of its own. -/
def NoReports (p : PaneInput) : Prop := ∀ data, isCursorPositionReport data = true → p.pendingGeneratedInputs data = 0

def reported (written : Option Bytes) : Nat := if written.any isCursorPositionReport then 1 else 0

/-- What an input does to the reports that are expected. -/
structure Reports (p : PaneInput) (now : Nat) (r : PaneInput × Option Bytes) : Prop where
  asked : r.1.NoReports
  opened : p.windowActive now = true → r.1.pendingCursorReports + reported r.2 = p.pendingCursorReports
  closed : p.windowActive now = false → r.1.windowActive now = false

theorem reports_accept (h : p.NoReports) (ha : p.windowActive now = true) (hp : 0 < p.pendingCursorReports) {data : Bytes}
    (hd : isCursorPositionReport data = true) : Reports p now (p.acceptCursorReport now, some data) where
  asked := h
  opened _ := by
    unfold reported acceptCursorReport
    simp only [Option.any_some, hd, if_true]
    omega
  closed hc := by rw [ha] at hc; cases hc

/-- Nothing is counted where no report is written, or the window is closed. -/
theorem reports_locked (h : p.NoReports) (written : Option Bytes)
    (hw : p.windowActive now = true → reported written = 0) :
    Reports p now ((p.cursorReportWindowActiveLocked now).1, written) := by
  cases ha : p.windowActive now with
  | true =>
    rw [locked_open ha]
    exact ⟨h, fun _ => by rw [hw ha, Nat.add_zero], fun hc => hc⟩
  | false =>
    rw [locked_closed ha]
    refine ⟨h, fun hc => ?_, fun _ => rfl⟩
    rw [ha] at hc
    cases hc

theorem reports_kept (h : p.NoReports) {written : Option Bytes} (hw : reported written = 0) : Reports p now (p, written) :=
  ⟨h, fun _ => by rw [hw, Nat.add_zero], fun hc => hc⟩

theorem reports_generated (h : p.NoReports) (data : Bytes) : Reports p now (p.writeGeneratedInput data now) := by
  unfold writeGeneratedInput consumeExpectedGeneratedInput
  by_cases hd : data = []
  · rw [if_pos hd]
    exact reports_kept h rfl
  · rw [if_neg hd]
    by_cases hz : p.pendingGeneratedInputs data = 0
    · rw [if_pos hz]
      simp only
      split
      · rename_i hc
        simp only [Bool.and_eq_true, decide_eq_true_eq] at hc
        obtain ⟨⟨hopen, hp⟩, hreport⟩ := hc
        cases ha : p.windowActive now with
        | false => rw [locked_closed ha] at hopen; cases hopen
        | true =>
          rw [locked_open ha] at hp ⊢
          exact reports_accept h ha hp hreport
      · exact reports_locked h _ fun _ => rfl
    · rw [if_neg hz]
      have hno : isCursorPositionReport data = false := by
        cases hr : isCursorPositionReport data with
        | false => rfl
        | true => exact absurd (h data hr) hz
      refine ⟨fun key hk => ?_, fun _ => ?_, fun hc => hc⟩
      · have hkey := h key hk
        simp only
        split
        · omega
        · exact hkey
      · simp only [reported, if_true, Option.any_some, hno, Bool.false_eq_true, if_false, Nat.add_zero]

theorem reports_typed (h : p.NoReports) (data : Bytes) : Reports p now (p.writeInputWithDimensions data now) := by
  unfold writeInputWithDimensions consumeGeneratedCursorReportInput
  by_cases hd : data = []
  · rw [if_pos hd]
    exact reports_kept h rfl
  · simp only [if_neg hd]
    by_cases hn : (!isCursorPositionReport data && !isCursorPositionReportTail data) = true
    · rw [if_pos hn]
      refine reports_kept h ?_
      simp only [Bool.and_eq_true, Bool.not_eq_true'] at hn
      simp only [reported, Bool.false_eq_true, if_false, if_true, Option.any_some, hn.1]
    · rw [if_neg hn]
      cases ha : p.windowActive now with
      | false =>
        have hlocked := reports_locked h (some data) (fun ht => by rw [ha] at ht; cases ht)
        rw [locked_closed ha] at hlocked ⊢
        exact hlocked
      | true =>
        rw [locked_open ha]
        simp only [Bool.not_true, Bool.false_eq_true, if_false]
        split
        · rename_i hc
          simp only [Bool.and_eq_true, decide_eq_true_eq] at hc
          simp only [Bool.false_eq_true, if_false]
          exact reports_accept h ha hc.2 hc.1
        · exact reports_kept h rfl

/-- In an open window a tail is dropped, and a report that no query is left for. -/
theorem typed_dropped (ha : p.windowActive now = true) {data : Bytes}
    (hd : isCursorPositionReportTail data = true ∨ isCursorPositionReport data = true)
    (hp : isCursorPositionReport data = true → p.pendingCursorReports = 0) :
    (p.writeInputWithDimensions data now).2 = none := by
  unfold writeInputWithDimensions consumeGeneratedCursorReportInput
  by_cases he : data = []
  · rw [if_pos he]
  · have hn : (!isCursorPositionReport data && !isCursorPositionReportTail data) = false := by
      rcases hd with hd | hd <;> simp [hd]
    have hc : (isCursorPositionReport data && decide (0 < p.pendingCursorReports)) = false := by
      cases hr : isCursorPositionReport data with
      | false => rfl
      | true => simp [hp hr]
    simp only [if_neg he, hn, locked_open ha, hc, Bool.not_true, Bool.false_eq_true, if_false, if_true]

/-- Outside of the window nothing that is typed is dropped. -/
theorem typed_kept (ha : p.windowActive now = false) {data : Bytes} (hd : data ≠ []) :
    (p.writeInputWithDimensions data now).2 = some data := by
  unfold writeInputWithDimensions consumeGeneratedCursorReportInput
  simp only [if_neg hd, locked_closed ha]
  by_cases hn : (!isCursorPositionReport data && !isCursorPositionReportTail data) = true
  · simp only [if_pos hn, Bool.false_eq_true, if_false, if_true]
  · simp only [if_neg hn, Bool.not_false, Bool.false_eq_true, if_false, if_true]

end PaneInput

/-! ## Tails -/

theorem reportTail_esc (rest : Bytes) : isReportTail (esc :: rest) = false := by
  have hno : ∀ part : Bytes, isReportNumber (esc :: part) = false := by
    intro part
    unfold isReportNumber
    simp only [List.all_cons, show (code '0' ≤ esc) = False by decide, decide_false, Bool.false_and, Bool.and_false]
  have hsplit : ∃ part more, (esc :: rest).splitOn (code ';') = (esc :: part) :: more := by
    unfold List.splitOn
    rw [List.splitOnP_cons_eq_if_modifyHead, if_neg (by decide)]
    cases hr : rest.splitOnP (· == code ';') with
    | nil => exact absurd hr (List.splitOnP_ne_nil _ _)
    | cons part more => exact ⟨part, more, rfl⟩
  obtain ⟨part, more, hp⟩ := hsplit
  unfold isReportTail
  rw [hp]
  cases more with
  | nil => simp [hno, show esc ≠ code '[' by decide]
  | cons column more =>
    cases more with
    | nil => simp [hno, show esc ≠ code '[' by decide]
    | cons _ _ => rfl

/-- A complete report is no tail of one. -/
theorem report_not_tail {data : Bytes} (h : isCursorPositionReport data = true) : isCursorPositionReportTail data = false := by
  unfold isCursorPositionReport at h
  split at h
  · cases h
  · rename_i hd
    match data with
    | [] => exact absurd (Or.inl (by simp)) hd
    | [_] => exact absurd (Or.inl (by simp)) hd
    | first :: second :: rest =>
      have hfirst : first = esc := by
        by_contra hne
        exact hd (Or.inr (Or.inl (by simpa using hne)))
      subst hfirst
      unfold isCursorPositionReportTail List.splitOn
      rw [List.dropLast_cons_of_ne_nil (List.cons_ne_nil _ _), List.splitOnP_cons_eq_if_modifyHead, if_neg (by decide)]
      cases hr : (second :: rest).dropLast.splitOnP (· == code 'R') with
      | nil => exact absurd hr (List.splitOnP_ne_nil _ _)
      | cons part more =>
        simp only [List.modifyHead_cons, List.all_cons, reportTail_esc, Bool.false_and, Bool.and_false]

/-! ## Counting -/

/-- In an open window every query is answered or still counted. -/
structure Counted (s : ReportRun) : Prop where
  asked : s.pane.NoReports
  opened : s.pane.windowActive s.clock = true → s.pane.pendingCursorReports + s.forwarded = s.queries
  closed : s.pane.windowActive s.clock = false → s.queries = 0 ∧ s.forwarded = 0

namespace ReportRun

variable {s : ReportRun} {e : ReportEvent}

theorem lapse_counted (ha : s.pane.NoReports)
    (ho : s.pane.windowActive s.clock = true → s.pane.pendingCursorReports + s.forwarded = s.queries) : Counted s.lapse := by
  unfold lapse
  split
  · rename_i hopen
    exact ⟨ha, ho, fun hc => by rw [hopen] at hc; cases hc⟩
  · rename_i hclosed
    exact ⟨ha, fun hopen => absurd hopen hclosed, fun _ => ⟨rfl, rfl⟩⟩

theorem lapse_fields (s : ReportRun) : s.lapse.pane = s.pane ∧ s.lapse.clock = s.clock := by
  unfold lapse
  split <;> exact ⟨rfl, rfl⟩

theorem atTime_counted (h : Counted s) {now : Nat} (hn : s.clock ≤ now) : Counted (s.atTime now) :=
  lapse_counted h.asked fun hopen => h.opened (PaneInput.windowActive_mono hn hopen)

theorem perform_reports (h : s.pane.NoReports) (hq : ∀ count, e.action ≠ .expectGeneratedCursorReport count) :
    PaneInput.Reports s.pane e.now (s.pane.perform e) := by
  unfold PaneInput.perform
  cases ha : e.action with
  | expectGeneratedCursorReport count => exact absurd ha (hq count)
  | writeGeneratedInput data => exact PaneInput.reports_generated h data
  | writeInput data => exact PaneInput.reports_typed h data

theorem count_input (hq : ∀ count, e.action ≠ .expectGeneratedCursorReport count) : s.count e =
    { s with
      pane := (s.pane.perform e).1
      forwarded := s.forwarded + PaneInput.reported (s.pane.perform e).2 } := by
  unfold count PaneInput.reported
  cases ha : e.action with
  | expectGeneratedCursorReport count => exact absurd ha (hq count)
  | _ => simp only; split <;> rfl

theorem count_counted (h : Counted s) (hc : s.clock = e.now) (hs : Unstale s e) : Counted (s.count e).lapse := by
  by_cases hq : ∀ count, e.action ≠ .expectGeneratedCursorReport count
  · have hr := perform_reports h.asked hq
    rw [count_input hq]
    apply lapse_counted
    · exact hr.asked
    · simp only
      rw [hc]
      intro hopen
      have hbefore : s.pane.windowActive e.now = true := by
        cases hb : s.pane.windowActive e.now with
        | true => rfl
        | false => rw [hr.closed hb] at hopen; cases hopen
      have hpending := hr.opened hbefore
      have hcount := h.opened (by rw [hc]; exact hbefore)
      omega
  · simp only [not_forall, not_not] at hq
    obtain ⟨count, hq⟩ := hq
    have he : s.count e =
        { s with pane := s.pane.expectGeneratedCursorReport count e.now, queries := s.queries + count } := by
      unfold ReportRun.count PaneInput.perform
      rw [hq]
      rfl
    rw [he]
    by_cases hz : count = 0
    · subst hz
      apply lapse_counted
      · exact h.asked
      · exact fun hopen => h.opened hopen
    · apply lapse_counted
      · unfold PaneInput.expectGeneratedCursorReport
        rw [if_neg hz]
        exact h.asked
      · intro _
        unfold PaneInput.expectGeneratedCursorReport
        simp only [if_neg hz]
        rcases hs count hq hz with hopen | hpending
        · have hcount := h.opened (by rw [hc]; exact hopen)
          omega
        · cases ha : s.pane.windowActive s.clock with
          | true =>
            have hcount := h.opened ha
            omega
          | false =>
            obtain ⟨hqueries, hforwarded⟩ := h.closed ha
            omega

theorem step_counted {s' : ReportRun} (h : Counted s) (hs : Unstale s e) (hstep : reportMachine.step s e = some s') :
    Counted s' := by
  unfold reportMachine at hstep
  simp only at hstep
  split at hstep
  · cases hstep
  · rename_i hn
    cases hstep
    have hfields := lapse_fields { s with clock := e.now }
    refine count_counted (atTime_counted h (by omega)) hfields.2 fun count hq hz => ?_
    unfold atTime
    rw [hfields.1]
    exact hs count hq hz

theorem counted_le (h : Counted s) : s.forwarded ≤ s.queries := by
  cases ha : s.pane.windowActive s.clock with
  | true =>
    have hcount := h.opened ha
    omega
  | false =>
    obtain ⟨hqueries, hforwarded⟩ := h.closed ha
    omega

theorem step_live (h : Counted s) (hs : Unstale s e) : AnswersLive s e := by
  intro s' hstep
  refine ⟨counted_le (step_counted h hs hstep), fun data hd => ?_⟩
  have hn : s.clock ≤ e.now := by
    by_contra hlt
    unfold reportMachine at hstep
    simp only at hstep
    rw [if_pos (by omega)] at hstep
    cases hstep
  have hperform : s.pane.perform e = s.pane.writeInputWithDimensions data e.now := by
    unfold PaneInput.perform
    rw [hd]
  rw [hperform]
  refine ⟨fun hclosed hne => PaneInput.typed_kept hclosed hne, fun hopen hreport => ?_⟩
  have hcount := h.opened (PaneInput.windowActive_mono hn hopen)
  apply PaneInput.typed_dropped hopen (hreport.imp id And.left)
  intro hr
  rcases hreport with htail | ⟨-, hnone⟩
  · rw [report_not_tail hr] at htail
    cases htail
  · omega

end ReportRun

/-- In a run in which no query comes to a stale window, only live queries are answered. -/
theorem reports_live {es : List ReportEvent} (h : reportMachine.Along Unstale {} es) :
    reportMachine.Along AnswersLive {} es := by
  have key : ∀ (es : List ReportEvent) (s : ReportRun), Counted s → reportMachine.Along Unstale s es →
      reportMachine.Along AnswersLive s es := by
    intro es
    induction es with
    | nil => exact fun _ _ _ => trivial
    | cons e es ih =>
      intro s hs h
      refine ⟨ReportRun.step_live hs h.1, fun s' hstep => ih s' ?_ (h.2 s' hstep)⟩
      exact ReportRun.step_counted hs h.1 hstep
  exact key es {} ⟨fun _ _ => rfl, fun h => (by cases h), fun _ => ⟨rfl, rfl⟩⟩ h

/-- A query that is answered, by a report of row 1 and column 1, within its window. -/
def askAndAnswer : List ReportEvent :=
  [⟨0, .expectGeneratedCursorReport 1⟩, ⟨1, .writeGeneratedInput (ascii "\x1b[1;1R")⟩, ⟨2, .writeInput (ascii "\x1b[1;1R")⟩]

theorem reports_live_answer : reportMachine.Along AnswersLive {} askAndAnswer := by
  apply reports_live
  refine ⟨fun _ _ _ => Or.inr rfl, fun s hs => ⟨fun _ hq => ?_, fun s' hs' => ⟨fun _ hq => ?_, fun _ _ => trivial⟩⟩⟩
  · cases hq
  · cases hq

/-- A query of three seconds ago was never answered; its count comes back with the next one. -/
def unansweredThenAsk : List ReportEvent :=
  [⟨0, .expectGeneratedCursorReport 1⟩, ⟨3000000000, .expectGeneratedCursorReport 1⟩,
    ⟨3000000000, .writeGeneratedInput (ascii "\x1b[1;1R")⟩, ⟨3000000000, .writeGeneratedInput (ascii "\x1b[1;1R")⟩]

/-- Two reports are forwarded for one query. -/
theorem stale_query_answered : ¬ reportMachine.Along AnswersLive {} unansweredThenAsk ∧
    (reportMachine.run {} unansweredThenAsk).map (fun s => (s.queries, s.forwarded)) = some (1, 2) := by
  have htwo : (reportMachine.run {} unansweredThenAsk).map (fun s => (s.queries, s.forwarded)) = some (1, 2) := by
    decide +kernel
  refine ⟨fun h => ?_, htwo⟩
  have hlive := ((h.2 _ rfl).2 _ rfl).2 _ rfl
  have hle := (hlive.1 _ rfl).1
  exact absurd hle (by decide +kernel)

end Webshell
