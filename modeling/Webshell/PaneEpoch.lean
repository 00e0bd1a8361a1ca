import Webshell.PaneOwner

/-!
# One size for an epoch

The sizes a pane has broadcast as applied, in order. The epoch never goes back,
and an epoch stands for one size unless it is sent again after a resize without
an epoch has changed the size under it.
-/

namespace Webshell

open GoText TerminalPane

/-- A pane and its `resize-applied` broadcasts so far: epoch and geometry. -/
structure SizedPane where
  pane : TerminalPane
  applied : List (Nat × Geometry)

/-- What an event broadcasts as applied. -/
def TerminalPane.broadcast (p : TerminalPane) (e : PaneEvent) : Option (Nat × Geometry) :=
  e.sizeRequest.bind fun q => (p.answer q).applied

def sizedMachine : Machine SizedPane PaneEvent where
  step s e := (paneMachine.step s.pane e).map fun p => { pane := p, applied := s.applied ++ (s.pane.broadcast e).toList }

def SizedPane.start (generation : String) (cols rows limit : Int) (localPTY : Bool) : SizedPane where
  pane := .start generation cols rows limit localPTY
  applied := []

/-- Broadcasts of one epoch carry one geometry. -/
def OneSize (applied : List (Nat × Geometry)) : Prop := ∀ a ∈ applied, ∀ b ∈ applied, a.1 = b.1 → a.2 = b.2

/-- The PTY takes the size it is given. -/
def PtyTakes (_ : SizedPane) (e : PaneEvent) : Prop := ∀ q, e.sizeRequest = some q → q.answers.pty = none

/-- The epoch does not go back, and every epoch still stands for one size. -/
def KeepsEpochs (s : SizedPane) (e : PaneEvent) : Prop :=
  ∀ s', sizedMachine.step s e = some s' → s.pane.resizeEpoch ≤ s'.pane.resizeEpoch ∧ OneSize s'.applied

/-- The epoch in force is sent again, for the size the pane has, and that is not the size
last broadcast. -/
def ReusesEpoch (s : SizedPane) (e : PaneEvent) : Prop :=
  ∃ q, e.sizeRequest = some q ∧ (paneMachine.step s.pane e).isSome = true ∧ s.pane.closing = false ∧
    q.epoch = some s.pane.resizeEpoch ∧ s.pane.requested q.message = s.pane.geometry ∧
      s.applied.getLast? ≠ some (s.pane.resizeEpoch, s.pane.geometry)

/-- The last broadcast is that of the epoch in force. -/
structure EpochInv (s : SizedPane) : Prop where
  bounded : s.pane.geometry.Bounded
  le : ∀ a ∈ s.applied, a.1 ≤ s.pane.resizeEpoch
  last : s.pane.resizeEpoch ≠ 0 → ∃ g, s.applied.getLast? = some (s.pane.resizeEpoch, g)
  oneSize : OneSize s.applied

/-! ## One request -/

/-- An epoch is let through if it is not behind, and if the one in force asks for the size there is. -/
theorem admitted_epoch {p : TerminalPane} {q : SizeRequest} {epoch : Nat} (he : q.epoch = some epoch)
    (h : p.AdmittedRequest q) :
    p.resizeEpoch ≤ epoch ∧ (epoch = p.resizeEpoch → p.requested q.message = p.geometry) := by
  unfold SizeRequest.epoch at he
  unfold AdmittedRequest at h
  split at he
  · cases he
  · rename_i hl
    rw [if_neg hl] at h
    unfold Admitted at h
    rw [he] at h
    exact ⟨h.1, h.2.1⟩

theorem admitted_current {p : TerminalPane} {q : SizeRequest} (he : q.epoch = some p.resizeEpoch)
    (hg : p.requested q.message = p.geometry) : p.AdmittedRequest q := by
  unfold SizeRequest.epoch at he
  unfold AdmittedRequest
  split at he
  · cases he
  · rename_i hl
    rw [if_neg hl]
    unfold Admitted
    rw [he]
    exact ⟨Nat.le_refl _, fun _ => hg, Or.inr (Or.inr (Or.inl rfl))⟩

/-- A request broadcasts nothing and leaves the epoch, or broadcasts its epoch with the size it leaves. -/
theorem broadcast_cases {p : TerminalPane} (hb : p.geometry.Bounded) {q : SizeRequest}
    (hpos : q.legacy = true → 0 < q.message.Cols ∧ 0 < q.message.Rows) (hpty : q.answers.pty = none) :
    ((p.answer q).applied = none ∧ (p.answer q).pane.resizeEpoch = p.resizeEpoch ∧
        ¬(p.closing = false ∧ q.epoch = some p.resizeEpoch ∧ p.requested q.message = p.geometry)) ∨
      ∃ epoch, q.epoch = some epoch ∧ p.closing = false ∧ p.resizeEpoch ≤ epoch ∧
        (epoch = p.resizeEpoch → p.requested q.message = p.geometry) ∧
          (p.answer q).applied = some (epoch, p.requested q.message) ∧ (p.answer q).pane.resizeEpoch = epoch := by
  have hset := answer_settled hb hpos
  generalize p.answer q = r at hset
  cases hset with
  | refused hr _ ha hs =>
    refine Or.inl ⟨ha, congrArg Sizing.resizeEpoch hs, ?_⟩
    rintro ⟨hc, he, hg⟩
    rcases hr with hr | hr
    · exact hr (admitted_current he hg)
    · rw [hc] at hr; cases hr
  | same hadm hc hg _ ha hs =>
    have hepoch := congrArg Sizing.resizeEpoch hs
    cases he : q.epoch with
    | none =>
      rw [he] at ha hepoch
      exact Or.inl ⟨ha, hepoch, by simp⟩
    | some epoch =>
      rw [he] at ha hepoch
      obtain ⟨hle, -⟩ := admitted_epoch he hadm
      exact Or.inr ⟨epoch, rfl, hc, hle, fun _ => hg, by rw [ha, hg]; rfl, hepoch⟩
  | failed _ _ _ _ hp _ _ _ => exact absurd hpty hp
  | resized hadm hc hg _ _ ha hs =>
    have hepoch := congrArg Sizing.resizeEpoch hs
    cases he : q.epoch with
    | none =>
      rw [he] at ha hepoch
      exact Or.inl ⟨ha, hepoch, by simp⟩
    | some epoch =>
      rw [he] at ha hepoch
      obtain ⟨hle, hsame⟩ := admitted_epoch he hadm
      exact Or.inr ⟨epoch, rfl, hc, hle, hsame, ha, hepoch⟩

/-! ## Steps -/

theorem sized_step {s s' : SizedPane} {e : PaneEvent} (hs : sizedMachine.step s e = some s') :
    paneMachine.step s.pane e = some s'.pane ∧ s'.applied = s.applied ++ (s.pane.broadcast e).toList := by
  obtain ⟨p, hp, rfl⟩ := Option.map_eq_some_iff.mp hs
  exact ⟨hp, rfl⟩

theorem OneSize.snoc {applied : List (Nat × Geometry)} {epoch : Nat} {g : Geometry} (h : OneSize applied)
    (hnew : ∀ a ∈ applied, a.1 = epoch → a.2 = g) : OneSize (applied ++ [(epoch, g)]) := by
  intro a ha b hb heq
  rcases List.mem_append.mp ha with ha | ha <;> rcases List.mem_append.mp hb with hb | hb
  · exact h a ha b hb heq
  · obtain rfl := List.mem_singleton.mp hb
    exact hnew a ha heq
  · obtain rfl := List.mem_singleton.mp ha
    exact (hnew b hb heq.symm).symm
  · rw [List.mem_singleton.mp ha, List.mem_singleton.mp hb]

/-- A step that broadcasts nothing. -/
theorem EpochInv.quiet {s s' : SizedPane} (h : EpochInv s) (hb : s'.pane.geometry.Bounded)
    (he : s'.pane.resizeEpoch = s.pane.resizeEpoch) (ha : s'.applied = s.applied) : EpochInv s' where
  bounded := hb
  le := by rw [ha, he]; exact h.le
  last := by rw [ha, he]; exact h.last
  oneSize := by rw [ha]; exact h.oneSize

/-- A step that broadcasts an epoch: it keeps the epochs exactly when no earlier broadcast of the
epoch carries another size. -/
theorem EpochInv.broadcast {s s' : SizedPane} (h : EpochInv s) {epoch : Nat} {g : Geometry}
    (hb : s'.pane.geometry.Bounded) (he : s'.pane.resizeEpoch = epoch) (hle : s.pane.resizeEpoch ≤ epoch)
    (ha : s'.applied = s.applied ++ [(epoch, g)]) (hnew : ∀ a ∈ s.applied, a.1 = epoch → a.2 = g) : EpochInv s' where
  bounded := hb
  le := by
    rw [ha, he]
    intro a hm
    rcases List.mem_append.mp hm with hm | hm
    · exact (h.le a hm).trans hle
    · rw [List.mem_singleton.mp hm]
  last := by rw [ha, he]; exact fun _ => ⟨g, by simp⟩
  oneSize := by rw [ha]; exact h.oneSize.snoc hnew

/-- Every earlier broadcast of the epoch in force carries the size of the last broadcast. -/
theorem EpochInv.current {s : SizedPane} (h : EpochInv s) {g : Geometry}
    (hlast : s.applied.getLast? = some (s.pane.resizeEpoch, g)) {a : Nat × Geometry} (ha : a ∈ s.applied)
    (he : a.1 = s.pane.resizeEpoch) : a.2 = g :=
  h.oneSize a ha _ (List.mem_of_getLast? hlast) he

/-- What a step broadcasts, if anything. -/
theorem step_broadcast {s s' : SizedPane} {e : PaneEvent} (h : EpochInv s) (hpty : PtyTakes s e)
    (hs : sizedMachine.step s e = some s') :
    s'.pane.geometry.Bounded ∧
      ((s'.applied = s.applied ∧ s'.pane.resizeEpoch = s.pane.resizeEpoch ∧ ¬ReusesEpoch s e) ∨
        ∃ q epoch, e.sizeRequest = some q ∧ q.epoch = some epoch ∧ s.pane.closing = false ∧
          s.pane.resizeEpoch ≤ epoch ∧ (epoch = s.pane.resizeEpoch → s.pane.requested q.message = s.pane.geometry) ∧
            s'.pane.resizeEpoch = epoch ∧ s'.applied = s.applied ++ [(epoch, s.pane.requested q.message)]) := by
  obtain ⟨hstep, happlied⟩ := sized_step hs
  refine ⟨step_bounded h.bounded hstep, ?_⟩
  unfold TerminalPane.broadcast at happlied
  cases hq : e.sizeRequest with
  | none =>
    rw [hq] at happlied
    refine Or.inl ⟨by simpa using happlied, (step_other hq hstep).2.2.1, ?_⟩
    rintro ⟨q, hq', -⟩
    rw [hq] at hq'; cases hq'
  | some q =>
    have hpane := hstep
    rw [step_sizeRequest hq] at hpane
    have hpane := accept_pane hpane
    rw [hq] at happlied
    simp only [Option.bind_some] at happlied
    rcases broadcast_cases h.bounded (sizeRequest_sender hq).2 (hpty q hq) with
      ⟨hnone, he, hno⟩ | ⟨epoch, hepoch, hc, hle, hsame, hsome, he⟩
    · rw [hnone] at happlied
      refine Or.inl ⟨by simpa using happlied, by rw [hpane, he], ?_⟩
      rintro ⟨q', hq', -, hc, hepoch, hg, -⟩
      rw [hq] at hq'
      cases hq'
      exact hno ⟨hc, hepoch, hg⟩
    · rw [hsome] at happlied
      exact Or.inr ⟨q, epoch, rfl, hepoch, hc, hle, hsame, by rw [hpane, he], happlied⟩

/-- The earlier broadcasts of a broadcast epoch carry its size, unless the epoch is reused. -/
theorem EpochInv.earlier {s : SizedPane} {e : PaneEvent} (h : EpochInv s)
    (hstep : (paneMachine.step s.pane e).isSome = true) (hn : ¬ReusesEpoch s e) {q : SizeRequest} {epoch : Nat}
    (hq : e.sizeRequest = some q) (hepoch : q.epoch = some epoch) (hc : s.pane.closing = false)
    (hle : s.pane.resizeEpoch ≤ epoch) (hsame : epoch = s.pane.resizeEpoch → s.pane.requested q.message = s.pane.geometry) :
    ∀ a ∈ s.applied, a.1 = epoch → a.2 = s.pane.requested q.message := by
  intro a ha heq
  have hcur : epoch = s.pane.resizeEpoch := Nat.le_antisymm (heq ▸ h.le a ha) hle
  subst hcur
  have hg := hsame rfl
  by_contra hne
  refine hn ⟨q, hq, hstep, hc, hepoch, hg, fun hlast => hne ?_⟩
  rw [hg]
  exact h.current hlast ha heq

theorem EpochInv.step {s s' : SizedPane} {e : PaneEvent} (h : EpochInv s) (hpty : PtyTakes s e) (hn : ¬ReusesEpoch s e)
    (hs : sizedMachine.step s e = some s') : EpochInv s' ∧ s.pane.resizeEpoch ≤ s'.pane.resizeEpoch := by
  obtain ⟨hb, ⟨ha, he, -⟩ | ⟨q, epoch, hq, hepoch, hc, hle, hsame, he, ha⟩⟩ := step_broadcast h hpty hs
  · exact ⟨h.quiet hb he ha, by rw [he]⟩
  · have hstep : (paneMachine.step s.pane e).isSome = true := by rw [(sized_step hs).1]; rfl
    exact ⟨h.broadcast hb he hle ha (h.earlier hstep hn hq hepoch hc hle hsame), by rw [he]; exact hle⟩

theorem keepsEpochs_iff {s : SizedPane} {e : PaneEvent} (h : EpochInv s) (hpty : PtyTakes s e) :
    KeepsEpochs s e ↔ ¬ReusesEpoch s e := by
  constructor
  · rintro hk ⟨q, hq, hstep, hc, hepoch, hg, hlast⟩
    obtain ⟨p, hp⟩ := Option.isSome_iff_exists.mp hstep
    have hs : sizedMachine.step s e = some { pane := p, applied := s.applied ++ (s.pane.broadcast e).toList } := by
      simp only [sizedMachine, hp, Option.map_some]
    have hone := (hk _ hs).2
    obtain ⟨-, ⟨-, -, hno⟩ | ⟨q', epoch, hq', hepoch', -, -, -, -, ha⟩⟩ := step_broadcast h hpty hs
    · exact hno ⟨q, hq, hstep, hc, hepoch, hg, hlast⟩
    · -- the new broadcast carries the epoch in force with another size than the last one
      rw [hq] at hq'
      cases hq'
      rw [hepoch] at hepoch'
      cases hepoch'
      obtain ⟨g, hg'⟩ := h.last (epoch_ne_zero hepoch)
      rw [ha] at hone
      have hmem := List.mem_append_left [(s.pane.resizeEpoch, s.pane.requested q.message)] (List.mem_of_getLast? hg')
      have heq := hone _ hmem _ (List.mem_append_right _ (List.mem_singleton_self _)) rfl
      simp only at heq
      rw [hg] at heq
      rw [hg', heq] at hlast
      exact hlast rfl
  · intro hn s' hs
    obtain ⟨hi, hle⟩ := h.step hpty hn hs
    exact ⟨hle, hi.oneSize⟩

theorem EpochInv.start (generation : String) (cols rows limit : Int) (localPTY : Bool) :
    EpochInv (.start generation cols rows limit localPTY) where
  bounded := start_bounded ..
  le := fun a ha => by cases ha
  last := fun h => absurd rfl h
  oneSize := fun a ha => by cases ha

/-- While the PTY takes every size, the epochs of a run are kept exactly when none is sent again
for a size it was not broadcast with. -/
theorem epochs_kept_iff {generation : String} {cols rows limit : Int} {localPTY : Bool} {es : List PaneEvent}
    (hpty : sizedMachine.Along PtyTakes (.start generation cols rows limit localPTY) es) :
    sizedMachine.Along KeepsEpochs (.start generation cols rows limit localPTY) es ↔
      sizedMachine.Along (fun s e => ¬ReusesEpoch s e) (.start generation cols rows limit localPTY) es :=
  sizedMachine.along_iff (I := EpochInv) (fun _ _ hi hp => keepsEpochs_iff hi hp)
    (fun _ _ _ hi hp hk hs => (hi.step hp ((keepsEpochs_iff hi hp).mp hk) hs).1) (EpochInv.start ..) hpty

/-- The same client, resizing without an epoch. -/
def plainResize (cols rows : Int) : TerminalControlMessage := { type := .resize, Cols := cols, Rows := rows }

theorem epochs_kept_resize :
    sizedMachine.Along KeepsEpochs (.start "g" 80 24 0 false) [.attach {} {}, .control 0 resizeMessage {}] ↔
      sizedMachine.Along (fun s e => ¬ReusesEpoch s e) (.start "g" 80 24 0 false)
        [.attach {} {}, .control 0 resizeMessage {}] := by
  refine epochs_kept_iff ⟨?_, fun s' _ => ⟨?_, fun _ _ => trivial⟩⟩
  · intro q hq
    cases hq
  · intro q hq
    cases hq
    rfl

/-- The owner resizes without an epoch and then sends its epoch again. -/
def reusedEpoch : List PaneEvent :=
  [.attach {} {}, .control 0 resizeMessage {}, .control 0 (plainResize 80 24) {},
    .control 0 { plainResize 80 24 with ResizeEpoch := "1" } {}]

theorem reused_epoch_two_sizes : ∃ s, sizedMachine.run (.start "g" 80 24 0 false) reusedEpoch = some s ∧
    s.applied = [(1, ⟨100, 30, 0, 0⟩), (1, ⟨80, 24, 0, 0⟩)] ∧ ¬OneSize s.applied := by
  refine ⟨_, rfl, rfl, fun h => ?_⟩
  have := h (1, ⟨100, 30, 0, 0⟩) (List.mem_cons_self ..) (1, ⟨80, 24, 0, 0⟩) (by decide) rfl
  revert this
  decide

end Webshell
