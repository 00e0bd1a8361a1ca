import Webshell.PaneResize

/-!
# Reported sizes and protected owners

Two properties of runs, each with the requests that break it: a resize reported
as applied is what the PTY has, unless it repeats a geometry that never reached
the PTY; an owner is left alone by others, unless one of them asks for the size
the pane already has.
-/

namespace Webshell

open GoText TerminalPane

/-! ## Events that are no size request -/

theorem detach_sizing (p : TerminalPane) (client : Nat) (answers : PaneAnswers) :
    (p.detachClient client answers).sizing =
      { p.sizing with resizeOwner := if p.resizeOwner = some client then none else p.resizeOwner } := by
  unfold detachClient
  simp only
  split
  · rw [enqueueText_sizing]; rfl
  · rfl

theorem attach_sizing (p : TerminalPane) (request : HistorySyncRequest) (answers : PaneAnswers) :
    (p.attachClient request answers).1.sizing = p.sizing := by
  unfold attachClient
  split
  · rfl
  · split
    · rfl
    · rename_i generation _
      simp only
      cases attachHistory { p with historyGeneration := generation } request answers <;> rfl

theorem append_sizing (p : TerminalPane) (filtered : Bytes) (answers : PaneAnswers) :
    (p.appendOutput filtered answers).sizing = p.sizing := by
  unfold appendOutput
  split
  · rfl
  · simp only
    exact recordCheckpointFailure_sizing ..

theorem limit_sizing (p : TerminalPane) (limit : Int) (answers : PaneAnswers) :
    (p.setHistoryLimitBytes limit answers).sizing = p.sizing := by
  unfold setHistoryLimitBytes
  simp only
  split
  · rfl
  · exact resizeCheckpoint_sizing ..

theorem accept_pane {p p' : TerminalPane} {client : Nat} {result : ResizeResult}
    (h : p.accept client result = some p') : p' = result.pane := by
  unfold accept at h
  split at h
  · cases h; rfl
  · cases h

theorem control_sizing {p : TerminalPane} {message : TerminalControlMessage} {client : Nat} {answers : PaneAnswers}
    (h : (PaneEvent.control client message answers).sizeRequest = none) :
    (p.handleTerminalControlMessage message client answers).1.pane.sizing = p.sizing := by
  unfold handleTerminalControlMessage
  cases ht : message.type with
  | input =>
    simp only [PaneEvent.sizeRequest, ht] at h ⊢
    split at h
    · rename_i hd; rw [if_pos hd]
    · rename_i hd
      rw [if_neg hd]
      split at h
      · cases h
      · rename_i he
        rw [if_neg he]
        split at h
        · cases h
        · rename_i hpos
          simp only [applyLegacyInputResize]
          rw [if_pos (by omega)]
  | resize =>
    simp only [PaneEvent.sizeRequest, ht] at h ⊢
    split at h
    · cases h
    · rename_i hpos; rw [if_neg hpos]
  | ping => simp only [enqueueText_sizing]
  | _ => rfl

theorem frame_sizing {p : TerminalPane} {message : TerminalControlMessage} {client : Nat} {answers : PaneAnswers}
    (h : (PaneEvent.resizeFrame client message answers).sizeRequest = none) :
    (p.handleResizeFrame message client answers).pane = p := by
  simp only [PaneEvent.sizeRequest] at h
  unfold handleResizeFrame
  simp only
  split at h
  · cases h
  · rename_i hpos; rw [if_neg hpos]

/-- Without a size request, the sizes and the epoch stay, and so does the owner unless it detaches. -/
theorem step_other {p p' : TerminalPane} {e : PaneEvent} (h : e.sizeRequest = none)
    (hs : paneMachine.step p e = some p') :
    p'.geometry = p.geometry ∧ p'.ptyGeometry = p.ptyGeometry ∧ p'.resizeEpoch = p.resizeEpoch ∧
      (p'.resizeOwner = p.resizeOwner ∨ ∃ client answers, e = .detach client answers ∧ p.resizeOwner = some client) := by
  have of_sizing : p'.sizing = p.sizing →
      p'.geometry = p.geometry ∧ p'.ptyGeometry = p.ptyGeometry ∧ p'.resizeEpoch = p.resizeEpoch ∧
        (p'.resizeOwner = p.resizeOwner ∨ ∃ client answers, e = .detach client answers ∧ p.resizeOwner = some client) :=
    fun hz => ⟨congrArg Sizing.geometry hz, congrArg Sizing.ptyGeometry hz, congrArg Sizing.resizeEpoch hz,
      Or.inl (congrArg Sizing.resizeOwner hz)⟩
  cases e with
  | attach request answers => cases hs; exact of_sizing (attach_sizing ..)
  | detach client answers =>
    simp only [paneMachine] at hs
    split at hs
    · cases hs
      have hz := detach_sizing p client answers
      refine ⟨congrArg Sizing.geometry hz, congrArg Sizing.ptyGeometry hz, congrArg Sizing.resizeEpoch hz, ?_⟩
      by_cases ho : p.resizeOwner = some client
      · exact Or.inr ⟨client, answers, rfl, ho⟩
      · have := congrArg Sizing.resizeOwner hz
        simp only [if_neg ho] at this
        exact Or.inl this
    · cases hs
  | output filtered answers =>
    simp only [paneMachine] at hs
    split at hs
    · cases hs; exact of_sizing rfl
    · split at hs
      · cases hs; exact of_sizing (append_sizing ..)
      · cases hs
  | deliver client =>
    simp only [paneMachine, deliver] at hs
    split at hs
    · cases hs
    · cases hs; exact of_sizing rfl
  | limit bytes answers => cases hs; exact of_sizing (limit_sizing ..)
  | control client message answers => exact of_sizing ((congrArg sizing (accept_pane hs)).trans (control_sizing h))
  | resizeFrame client message answers => exact of_sizing (congrArg sizing ((accept_pane hs).trans (frame_sizing h)))
  | receive client =>
    simp only [paneMachine] at hs
    split at hs
    · cases hs
    · obtain ⟨c, -, rfl⟩ := Option.map_eq_some_iff.mp hs
      exact of_sizing rfl
  | dequeued client size => cases hs; exact of_sizing rfl
  | exit exitCode exitText =>
    cases hs
    unfold markExited
    by_cases hx : p.exited = true
    · rw [if_pos hx]; exact ⟨rfl, rfl, rfl, Or.inl rfl⟩
    · rw [if_neg hx]; exact ⟨rfl, rfl, rfl, Or.inl rfl⟩
  | retain => cases hs; exact of_sizing rfl
  | notifyExit client retained answers =>
    simp only [paneMachine, notifyExit] at hs
    split at hs
    · cases hs; exact of_sizing (enqueueText_sizing ..)
    · cases hs
  | close =>
    cases hs
    unfold close
    by_cases hx : p.closing = true
    · rw [if_pos hx]; exact ⟨rfl, rfl, rfl, Or.inl rfl⟩
    · rw [if_neg hx]; exact ⟨rfl, rfl, rfl, Or.inl rfl⟩
  | closeClient client => cases hs; exact of_sizing rfl

/-! ## What a request leaves of the size -/

theorem parseTerminalResizeEpoch_ne_zero {value : String} {epoch : Nat}
    (h : parseTerminalResizeEpoch value = some epoch) : epoch ≠ 0 := by
  unfold parseTerminalResizeEpoch at h
  split at h
  · cases h
  · split at h
    · cases h
    · cases h; assumption

theorem epoch_ne_zero {q : SizeRequest} {epoch : Nat} (h : q.epoch = some epoch) : epoch ≠ 0 := by
  unfold SizeRequest.epoch at h
  split at h
  · cases h
  · exact parseTerminalResizeEpoch_ne_zero h

/-- A granted request leaves an epoch that is not zero, if there was one before. -/
theorem grant_epoch (s : Sizing) (q : SizeRequest) (h : s.resizeEpoch ≠ 0) :
    (s.grant q.source q.epoch).resizeEpoch ≠ 0 := by
  unfold Sizing.grant
  cases he : q.epoch with
  | none => exact h
  | some epoch => exact epoch_ne_zero he

theorem settled_geometry {p : TerminalPane} {admitted : Prop} {requested : Geometry} {epoch : Option Nat} {source : Nat}
    {answers : PaneAnswers} {r : ResizeResult} (h : Settled p admitted requested epoch source answers r) :
    r.pane.geometry = p.geometry ∨ r.pane.geometry = requested := by
  cases h with
  | refused _ _ _ hs => exact Or.inl (congrArg Sizing.geometry hs)
  | same _ _ _ _ _ hs => exact Or.inl (congrArg Sizing.geometry hs)
  | failed _ _ _ _ _ _ _ hs => exact Or.inr (congrArg Sizing.geometry hs)
  | resized _ _ _ _ _ _ hs => exact Or.inr (congrArg Sizing.geometry hs)

theorem step_bounded {p p' : TerminalPane} {e : PaneEvent} (hb : p.geometry.Bounded)
    (hs : paneMachine.step p e = some p') : p'.geometry.Bounded := by
  cases hq : e.sizeRequest with
  | none => rw [(step_other hq hs).1]; exact hb
  | some q =>
    rw [step_sizeRequest hq] at hs
    rw [accept_pane hs]
    rcases settled_geometry (answer_settled hb (sizeRequest_sender hq).2) with h | h
    · rw [h]; exact hb
    · rw [h]; exact normalizeGeometry_bounded hb ..

theorem start_bounded (generation : String) (cols rows limit : Int) (localPTY : Bool) :
    (start generation cols rows limit localPTY).geometry.Bounded := by
  constructor <;> show (0 : Int) ≤ 65535 <;> decide

/-! ## Honest reports -/

/-- An `applyResize` that reports success on a running pane has the PTY at the pane's geometry,
which is the one it broadcasts. -/
def ReportsHonestly (p : TerminalPane) (e : PaneEvent) : Prop :=
  ∀ q, e.sizeRequest = some q → q.legacy = false → p.closing = false → p.exited = false → (p.answer q).error = none →
    (p.answer q).pane.ptyGeometry = (p.answer q).pane.geometry ∧
      ∀ epoch g, (p.answer q).applied = some (epoch, g) → (p.answer q).pane.ptyGeometry = g

/-- An admitted request asks for the stored geometry, and the PTY has another one. -/
def RepeatsStale (p : TerminalPane) (e : PaneEvent) : Prop :=
  ∃ q, e.sizeRequest = some q ∧ q.legacy = false ∧ p.closing = false ∧ p.exited = false ∧
    p.Admitted q.message q.source ∧ p.requested q.message = p.geometry ∧ p.ptyGeometry ≠ p.geometry

theorem settled_honest {p : TerminalPane} {admitted : Prop} {requested : Geometry} {epoch : Option Nat} {source : Nat}
    {answers : PaneAnswers} {r : ResizeResult} (h : Settled p admitted requested epoch source answers r)
    (hc : p.closing = false) (hx : p.exited = false) :
    (r.error = none → r.pane.ptyGeometry = r.pane.geometry ∧
      ∀ epoch g, r.applied = some (epoch, g) → r.pane.ptyGeometry = g) ↔
        ¬(admitted ∧ requested = p.geometry ∧ p.ptyGeometry ≠ p.geometry) := by
  cases h with
  | refused hr he _ _ =>
    refine iff_of_true (fun h => absurd h he) fun hn => ?_
    rcases hr with h | h
    · exact h hn.1
    · rw [hc] at h; cases h
  | same hadm _ hsame herr happ hs =>
    have h1 : r.pane.ptyGeometry = p.ptyGeometry := congrArg Sizing.ptyGeometry hs
    have h2 : r.pane.geometry = p.geometry := congrArg Sizing.geometry hs
    rw [h1, h2, happ]
    constructor
    · exact fun h hn => hn.2.2 (h herr).1
    · intro hn _
      have hpty : p.ptyGeometry = p.geometry := not_not.mp fun hne => hn ⟨hadm, hsame, hne⟩
      refine ⟨hpty, fun epoch g hg => ?_⟩
      obtain ⟨_, -, he⟩ := Option.map_eq_some_iff.mp hg
      cases he
      exact hpty
  | failed _ _ hne _ _ he _ _ => exact iff_of_true (fun h => absurd h he) fun hn => hne hn.2.1
  | resized _ _ hne hp _ happ hs =>
    have hpty : answers.pty = none := hp.resolve_left (by rw [hx]; decide)
    have h1 : r.pane.ptyGeometry = requested := by
      refine (congrArg Sizing.ptyGeometry hs).trans ?_
      simp [Sizing.grant, stored, hx, hpty]
    have h2 : r.pane.geometry = requested := congrArg Sizing.geometry hs
    refine iff_of_true (fun _ => ⟨by rw [h1, h2], fun epoch g hg => ?_⟩) fun hn => hne hn.2.1
    rw [happ] at hg
    obtain ⟨_, -, he⟩ := Option.map_eq_some_iff.mp hg
    cases he
    exact h1

theorem reportsHonestly_iff {p : TerminalPane} (hb : p.geometry.Bounded) (e : PaneEvent) :
    ReportsHonestly p e ↔ ¬RepeatsStale p e := by
  constructor
  · rintro hr ⟨q, hq, hl, hc, hx, hbad⟩
    have hs := answer_settled hb (sizeRequest_sender hq).2
    simp only [AdmittedRequest, hl, Bool.false_eq_true, if_false] at hs
    exact (settled_honest hs hc hx).mp (hr q hq hl hc hx) hbad
  · rintro hn q hq hl hc hx
    have hs := answer_settled hb (sizeRequest_sender hq).2
    simp only [AdmittedRequest, hl, Bool.false_eq_true, if_false] at hs
    exact (settled_honest hs hc hx).mpr fun hbad => hn ⟨q, hq, hl, hc, hx, hbad⟩

/-- In a run, every success reported is true exactly if no admitted request repeats a
geometry that the PTY did not take. -/
theorem resize_reports_iff (generation : String) (cols rows limit : Int) (localPTY : Bool) (es : List PaneEvent) :
    paneMachine.Along ReportsHonestly (.start generation cols rows limit localPTY) es ↔
      paneMachine.Along (fun p e => ¬RepeatsStale p e) (.start generation cols rows limit localPTY) es :=
  paneMachine.along_iff (fun _ e hb _ => reportsHonestly_iff hb e) (fun _ _ _ hb _ _ hs => step_bounded hb hs)
    (start_bounded ..) (paneMachine.along_true ..)

/-- A resize of 100 by 30 under the first epoch. -/
def resizeMessage : TerminalControlMessage := { type := .resize, Cols := 100, Rows := 30, ResizeEpoch := "1" }

/-- The PTY refuses a size, and the client tries again. -/
theorem retried_resize_misreports : ∃ p q r,
    paneMachine.run (.start "g" 80 24 0 false) [.attach {} {}] = some p ∧
      paneMachine.step p (.control 0 resizeMessage { pty := some "ioctl: input/output error" }) = some q ∧
        (p.applyResize resizeMessage 0 { pty := some "ioctl: input/output error" }).error ≠ none ∧
          retryable "pty_resize_failed" = true ∧
            (q.applyResize resizeMessage 0 {}) = r ∧ r.error = none ∧ r.applied = some (1, ⟨100, 30, 0, 0⟩) ∧
              r.pane.ptyGeometry = ⟨80, 24, 0, 0⟩ :=
  ⟨_, _, _, rfl, rfl, by decide, by decide, rfl, rfl, rfl, rfl⟩

/-! ## Protected owners -/

/-- A successful resize of client `c` that carries an epoch. -/
def TookOwnership (c : Nat) (p : TerminalPane) (e : PaneEvent) (p' : TerminalPane) : Prop :=
  ∃ q, e.sizeRequest = some q ∧ q.source = c ∧ q.epoch ≠ none ∧ (p.answer q).error = none ∧
    paneMachine.step p e = some p'

/-- Client `c` stays attached, and no other takes the ownership from it with a claim. -/
def Undisturbed (c : Nat) (p : TerminalPane) (e : PaneEvent) : Prop :=
  (∀ answers, e ≠ .detach c answers) ∧
    ∀ d message p', e.sender = some (d, message) → d ≠ c → message.Claim = true → paneMachine.step p e = some p' →
      p'.resizeOwner = some c

/-- A message from another client that claims nothing changes neither size nor owner. -/
def LeavesSizeAlone (c : Nat) (p : TerminalPane) (e : PaneEvent) : Prop :=
  ∀ d message p', e.sender = some (d, message) → d ≠ c → message.Claim = false → paneMachine.step p e = some p' →
    p'.geometry = p.geometry ∧ p'.resizeOwner = p.resizeOwner

/-- Another client asks, without a claim, for the size the pane has: with the current epoch, or
by the legacy path. -/
def AsksForPresentSize (c : Nat) (p : TerminalPane) (e : PaneEvent) : Prop :=
  ∃ q, e.sizeRequest = some q ∧ q.source ≠ c ∧ q.message.Claim = false ∧ (paneMachine.step p e).isSome = true ∧
    p.closing = false ∧ p.requested q.message = p.geometry ∧
      (q.legacy = false → parseTerminalResizeEpoch q.message.ResizeEpoch = some p.resizeEpoch)

/-- Client `c` owns the size, and an epoch has been applied. -/
structure OwnedBy (c : Nat) (p : TerminalPane) : Prop where
  owner : p.resizeOwner = some c
  epoch : p.resizeEpoch ≠ 0
  bounded : p.geometry.Bounded

/-- Under an owner, what others are granted without a claim is what they have already. -/
theorem OwnedBy.admitted {c : Nat} {p : TerminalPane} (h : OwnedBy c p) {q : SizeRequest} (hd : q.source ≠ c)
    (hclaim : q.message.Claim = false) : p.AdmittedRequest q ↔ p.requested q.message = p.geometry ∧
      (q.legacy = false → parseTerminalResizeEpoch q.message.ResizeEpoch = some p.resizeEpoch) := by
  have hown : p.resizeOwner ≠ some q.source := by
    rw [h.owner]; exact fun e => hd (Option.some.inj e).symm
  have hsome : p.resizeOwner ≠ none := by rw [h.owner]; exact Option.some_ne_none _
  unfold AdmittedRequest
  cases hl : q.legacy with
  | true =>
    simp only [if_true, AdmittedLegacy]
    constructor
    · rintro (hz | ho | hg)
      · exact absurd hz h.epoch
      · exact absurd ho hown
      · exact ⟨hg, fun hf => by cases hf⟩
    · exact fun hg => Or.inr (Or.inr hg.1)
  | false =>
    simp only [Bool.false_eq_true, if_false, Admitted, forall_const]
    cases he : parseTerminalResizeEpoch q.message.ResizeEpoch with
    | none =>
      refine iff_of_false (fun hn => ?_) (fun hn => by cases hn.2)
      exact hn.2.elim h.epoch hown
    | some epoch =>
      simp only [Option.some.injEq]
      constructor
      · rintro ⟨-, hsame, ho | hc | heq | ho⟩
        · exact absurd ho hsome
        · rw [hclaim] at hc; cases hc
        · exact ⟨hsame heq, heq⟩
        · exact absurd ho hown
      · rintro ⟨hg, rfl⟩
        exact ⟨Nat.le_refl _, fun _ => hg, Or.inr (Or.inr (Or.inl rfl))⟩

theorem leavesSizeAlone_iff {c : Nat} {p : TerminalPane} (h : OwnedBy c p) (e : PaneEvent) :
    LeavesSizeAlone c p e ↔ ¬AsksForPresentSize c p e := by
  constructor
  · rintro halone ⟨q, hq, hd, hclaim, hread, hc, hpresent⟩
    obtain ⟨p', hs⟩ := Option.isSome_iff_exists.mp hread
    have howner := (halone q.source q.message p' (sizeRequest_sender hq).1 hd hclaim hs).2
    rw [step_sizeRequest hq] at hs
    have hpane := accept_pane hs
    have hset := answer_settled h.bounded (sizeRequest_sender hq).2
    generalize p.answer q = r at hset hpane
    cases hset with
    | refused hr _ _ _ =>
      rcases hr with hr | hr
      · exact hr ((h.admitted hd hclaim).mpr hpresent)
      · rw [hc] at hr; cases hr
    | same _ _ _ _ _ hs =>
      have ho : r.pane.resizeOwner = some q.source := congrArg Sizing.resizeOwner hs
      rw [hpane, ho, h.owner] at howner
      exact hd (Option.some.inj howner)
    | failed _ _ hne _ _ _ _ _ => exact hne hpresent.1
    | resized _ _ hne _ _ _ _ => exact hne hpresent.1
  · rintro hn d message p' hsender hd hclaim hs
    cases hq : e.sizeRequest with
    | none =>
      obtain ⟨hg, -, -, ho⟩ := step_other hq hs
      refine ⟨hg, ho.resolve_right ?_⟩
      rintro ⟨client, answers, rfl, -⟩
      cases hsender
    | some q =>
      have hq' := sizeRequest_sender hq
      obtain ⟨rfl, rfl⟩ : q.source = d ∧ q.message = message := by
        have := hq'.1.symm.trans hsender
        simpa using this
      have hread : (paneMachine.step p e).isSome = true := by rw [hs]; rfl
      rw [step_sizeRequest hq] at hs
      have hpane := accept_pane hs
      have hset := answer_settled h.bounded hq'.2
      generalize p.answer q = r at hset hpane
      rw [hpane]
      cases hset with
      | refused _ _ _ hs => exact ⟨congrArg Sizing.geometry hs, congrArg Sizing.resizeOwner hs⟩
      | same hadm hc _ _ _ _ =>
        exact absurd ⟨q, hq, hd, hclaim, hread, hc, (h.admitted hd hclaim).mp hadm⟩ hn
      | failed hadm _ hne _ _ _ _ _ => exact absurd ((h.admitted hd hclaim).mp hadm).1 hne
      | resized hadm _ hne _ _ _ _ => exact absurd ((h.admitted hd hclaim).mp hadm).1 hne

/-- Ownership lasts through a step that leaves the owner in peace. -/
theorem OwnedBy.step {c : Nat} {p p' : TerminalPane} {e : PaneEvent} (h : OwnedBy c p) (hu : Undisturbed c p e)
    (ha : LeavesSizeAlone c p e) (hs : paneMachine.step p e = some p') : OwnedBy c p' := by
  have hb := step_bounded h.bounded hs
  cases hq : e.sizeRequest with
  | none =>
    obtain ⟨-, -, he, ho⟩ := step_other hq hs
    refine ⟨?_, by rw [he]; exact h.epoch, hb⟩
    rcases ho with ho | ⟨client, answers, rfl, ho⟩
    · rw [ho]; exact h.owner
    · rw [h.owner] at ho; cases ho
      exact absurd rfl (hu.1 answers)
  | some q =>
    obtain ⟨hsender, hpos⟩ := sizeRequest_sender hq
    have hset := answer_settled h.bounded hpos
    have hpane := accept_pane ((step_sizeRequest hq p).symm.trans hs)
    have hown : q.source ≠ c → p'.resizeOwner = some c := by
      intro hd
      cases hclaim : q.message.Claim with
      | true => exact hu.2 _ _ _ hsender hd hclaim hs
      | false => exact ((ha _ _ _ hsender hd hclaim hs).2).trans h.owner
    generalize p.answer q = r at hset hpane
    subst hpane
    have hgrant := grant_epoch p.sizing q h.epoch
    cases hset with
    | refused _ _ _ hz =>
      exact ⟨(congrArg Sizing.resizeOwner hz).trans h.owner,
        fun hn => h.epoch ((congrArg Sizing.resizeEpoch hz).symm.trans hn), hb⟩
    | same _ _ _ _ _ hz =>
      refine ⟨?_, fun hn => hgrant ((congrArg Sizing.resizeEpoch hz).symm.trans hn), hb⟩
      by_cases hd : q.source = c
      · rw [← hd]; exact congrArg Sizing.resizeOwner hz
      · exact hown hd
    | failed _ _ _ _ _ _ _ hz =>
      exact ⟨(congrArg Sizing.resizeOwner hz).trans h.owner,
        fun hn => h.epoch ((congrArg Sizing.resizeEpoch hz).symm.trans hn), hb⟩
    | resized _ _ _ _ _ _ hz =>
      refine ⟨?_, fun hn => hgrant ((congrArg Sizing.resizeEpoch hz).symm.trans hn), hb⟩
      by_cases hd : q.source = c
      · rw [← hd]; exact congrArg Sizing.resizeOwner hz
      · exact hown hd

theorem TookOwnership.owned {c : Nat} {p p' : TerminalPane} {e : PaneEvent} (hb : p.geometry.Bounded)
    (h : TookOwnership c p e p') : OwnedBy c p' := by
  obtain ⟨q, hq, rfl, he, hok, hs⟩ := h
  have hb' := step_bounded hb hs
  have hset := answer_settled hb (sizeRequest_sender hq).2
  have hpane := accept_pane ((step_sizeRequest hq p).symm.trans hs)
  obtain ⟨epoch, he⟩ := Option.ne_none_iff_exists'.mp he
  generalize p.answer q = r at hset hpane hok
  subst hpane
  have hgrant : ∀ s : Sizing, (s.grant q.source q.epoch).resizeEpoch ≠ 0 := by
    intro s
    unfold Sizing.grant
    rw [he]; exact epoch_ne_zero he
  cases hset with
  | refused _ herr _ _ => exact absurd hok herr
  | same _ _ _ _ _ hz =>
    exact ⟨congrArg Sizing.resizeOwner hz, fun hn => hgrant _ ((congrArg Sizing.resizeEpoch hz).symm.trans hn), hb'⟩
  | failed _ _ _ _ _ herr _ _ => exact absurd hok herr
  | resized _ _ _ _ _ _ hz =>
    exact ⟨congrArg Sizing.resizeOwner hz, fun hn => hgrant _ ((congrArg Sizing.resizeEpoch hz).symm.trans hn), hb'⟩

/-- From the moment client `c` took the ownership, and as long as it keeps it, others leave size
and owner alone exactly if none of them asks for the size the pane has. -/
theorem owner_protected_iff {generation : String} {cols rows limit : Int} {localPTY : Bool} {before es : List PaneEvent}
    {c : Nat} {p p' : TerminalPane} {e : PaneEvent}
    (hrun : paneMachine.run (.start generation cols rows limit localPTY) before = some p) (htook : TookOwnership c p e p')
    (hstay : paneMachine.Along (Undisturbed c) p' es) :
    paneMachine.Along (LeavesSizeAlone c) p' es ↔ paneMachine.Along (fun p e => ¬AsksForPresentSize c p e) p' es := by
  have hb := paneMachine.run_inv (fun _ _ _ hb hs => step_bounded hb hs) hrun (start_bounded ..)
  exact paneMachine.along_iff (fun _ e h _ => leavesSizeAlone_iff h e) (fun _ _ _ h hu ha hs => h.step hu ha hs)
    (htook.owned hb) hstay

theorem undisturbed_plain {c d : Nat} {message : TerminalControlMessage} {e : PaneEvent}
    (he : e.sender = some (d, message)) (hclaim : message.Claim = false) (p : TerminalPane) : Undisturbed c p e := by
  constructor
  · rintro answers rfl; cases he
  · intro d' message' p' he' _ hc
    rw [he] at he'; cases he'
    rw [hclaim] at hc; cases hc

/-- Input of a legacy client that sees the pane as it is, and then as its own window is. -/
def legacyInput (cols rows : Int) : TerminalControlMessage := { type := .input, Data := "x", Cols := cols, Rows := rows }

/-- The legacy client is refused while the sizes differ. -/
theorem owner_protected_legacyInput : ∃ p p',
    paneMachine.run (.start "g" 80 24 0 false) [.attach {} {}, .attach {} {}] = some p ∧
      TookOwnership 0 p (.control 0 resizeMessage {}) p' ∧
        (paneMachine.Along (LeavesSizeAlone 0) p' [.control 1 (legacyInput 80 24) {}] ↔
          paneMachine.Along (fun p e => ¬AsksForPresentSize 0 p e) p' [.control 1 (legacyInput 80 24) {}]) := by
  have hrun : paneMachine.run (.start "g" 80 24 0 false) [.attach {} {}, .attach {} {}] = some _ := rfl
  have quiet : ∀ p', paneMachine.Along (Undisturbed 0) p' [.control 1 (legacyInput 80 24) {}] :=
    fun p' => ⟨undisturbed_plain rfl rfl p', fun _ _ => trivial⟩
  suffices h : ∃ p p', paneMachine.run (.start "g" 80 24 0 false) [.attach {} {}, .attach {} {}] = some p ∧
      TookOwnership 0 p (.control 0 resizeMessage {}) p' by
    obtain ⟨p, p', hp, htook⟩ := h
    exact ⟨p, p', hp, htook, owner_protected_iff hp htook (quiet p')⟩
  exact ⟨_, _, hrun, _, rfl, rfl, by decide, rfl, rfl⟩

/-- With equal sizes it becomes the owner, and the next message resizes the pane. -/
theorem legacyInput_takes_over : ∃ p q r s,
    paneMachine.run (.start "g" 80 24 0 false) [.attach {} {}, .attach {} {}] = some p ∧
      TookOwnership 0 p (.control 0 resizeMessage {}) q ∧ q.resizeOwner = some 0 ∧
        paneMachine.step q (.control 1 (legacyInput 100 30) {}) = some r ∧ r.resizeOwner = some 1 ∧
          paneMachine.step r (.control 1 (legacyInput 80 24) {}) = some s ∧ s.geometry = ⟨80, 24, 0, 0⟩ ∧
            q.geometry = ⟨100, 30, 0, 0⟩ ∧ 0 ∈ s.clients :=
  ⟨_, _, _, _, rfl, ⟨_, rfl, rfl, by decide, rfl, rfl⟩, rfl, rfl, rfl, rfl, rfl, rfl, by decide⟩

end Webshell
