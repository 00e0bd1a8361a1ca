import Webshell.ShellSessions
import Mathlib.Data.List.Range
import Mathlib.Data.List.Nodup
import Mathlib.Data.List.Perm.Subperm

/-!
# No shell is left behind

After `Close` returned, every shell that was ever started is killed and waited
for, or a cleanup failure is on record; no shell is started any more. What
goroutines have to do of themselves comes to an end, and a shell whose context
has ended is closed by then.
-/

namespace Webshell

/-! ## One shell -/

namespace ShellSession

variable {s s' : ShellSession} {event : ShellEvent}

structure Ok (s : ShellSession) : Prop where
  closed : s.closed = true ↔ s.closing ≠ .never
  after : s.after = .unset ↔ s.opening = .started
  closes : s.after = .stopped ∨ s.after = .fired → s.closed = true
  stopped : s.hasStop = true → s.closed = true → s.after ≠ .waiting
  failed : ∀ err, s.opening = .returned (some err) → ∃ cleanup, s.closing = .done cleanup
  exited : s.closing = .waited none ∨ s.closing = .done none → s.exited = true

theorem stopAfter_after (s : ShellSession) : s.stopAfter = { s with after := if s.after = .waiting then .stopped else s.after } := by
  unfold stopAfter
  by_cases ha : s.after = .waiting <;> simp [ha]

/-- `Close` is begun once. -/
theorem beginClose_cases (s : ShellSession) : (s.closing ≠ .never ∧ s.beginClose = s) ∨
    (s.closing = .never ∧ ∃ after, (after = s.after ∨ s.after = .waiting ∧ after = .stopped) ∧ (s.hasStop = true → after ≠ .waiting) ∧
      s.beginClose = { s with closing := .marked, closed := true, after := after }) := by
  by_cases h : s.closing = .never
  · refine .inr ⟨h, ?_⟩
    have hstop : ({ s with closing := .marked, closed := true } : ShellSession).hasStop = s.hasStop := rfl
    simp only [beginClose, h, if_true, hstop, stopAfter_after]
    by_cases hs : s.hasStop = true
    · by_cases ha : s.after = .waiting
      · exact ⟨.stopped, .inr ⟨ha, rfl⟩, by simp, by simp [hs, ha]⟩
      · exact ⟨s.after, .inl rfl, fun _ => ha, by simp [hs, ha]⟩
    · exact ⟨s.after, .inl rfl, fun h => absurd h hs, by simp [hs]⟩
  · exact .inl ⟨h, by simp [beginClose, h]⟩

theorem Ok.beginClose (h : s.Ok) : s.beginClose.Ok := by
  rcases s.beginClose_cases with ⟨-, he⟩ | ⟨hn, after, ha, hs, he⟩
  · rwa [he]
  · rw [he]
    refine ⟨by simp, ?_, fun _ => rfl, fun hstop _ => hs hstop, fun err ho => ?_, by simp⟩
    · rcases ha with rfl | ⟨hw, rfl⟩
      · exact h.after
      · have := h.after
        simp only [hw] at this
        simpa using this
    · obtain ⟨cleanup, hc⟩ := h.failed err ho
      rw [hn] at hc
      cases hc

theorem Ok.unset_ne (h : s.Ok) (ho : s.opening ≠ .started) : s.after ≠ .unset := fun hu => ho (h.after.mp hu)

/-- `Close` gets on. -/
theorem Ok.goesOn (h : s.Ok) {closing : ShellClosing} (hold : s.closing ≠ .never) (hdone : ∀ err, s.closing ≠ .done err)
    (hnew : closing ≠ .never) (hexited : closing = .waited none ∨ closing = .done none → s.exited = true) :
    ({ s with closing := closing } : ShellSession).Ok := by
  refine ⟨by simpa [hnew, hold] using h.closed, h.after, h.closes, h.stopped, fun err ho => ?_, hexited⟩
  obtain ⟨cleanup, hd⟩ := h.failed err ho
  exact absurd hd (hdone cleanup)

theorem Ok.step (h : s.Ok) (hs : s.step event = some s') : s'.Ok := by
  cases event with
  | close => exact Option.some.inj hs ▸ h.beginClose
  | ctxEnds =>
    obtain ⟨-, he⟩ := Option.ite_none_left_eq_some.mp hs
    cases he
    exact ⟨h.closed, h.after, h.closes, h.stopped, h.failed, h.exited⟩
  | exits =>
    obtain ⟨-, he⟩ := Option.ite_none_left_eq_some.mp hs
    cases he
    exact ⟨h.closed, h.after, h.closes, h.stopped, h.failed, fun _ => rfl⟩
  | arm =>
    obtain ⟨-, he⟩ := Option.ite_none_right_eq_some.mp hs
    cases he
    exact ⟨h.closed, by simp, by simp, by simp [hasStop], by simp, h.exited⟩
  | setStop =>
    obtain ⟨ho, he⟩ := Option.ite_none_right_eq_some.mp hs
    have hset := h.unset_ne (by simp [ho])
    simp only [Option.some.injEq, stopAfter_after] at he
    split at he
    · rename_i hc
      subst he
      refine ⟨h.closed, ?_, fun _ => hc, ?_, by simp, h.exited⟩
      · by_cases ha : s.after = .waiting <;> simp [ha, hset]
      · by_cases ha : s.after = .waiting <;> simp [ha]
    · rename_i hc
      subst he
      exact ⟨h.closed, by simpa using hset, h.closes, fun _ hclosed => absurd hclosed hc, by simp, h.exited⟩
  | resize err =>
    obtain ⟨ho, he⟩ := Option.ite_none_right_eq_some.mp hs
    have hset := h.unset_ne (by simp [ho])
    have hstop := h.stopped (by simp [hasStop, ho])
    split at he
    · cases he
      exact ⟨h.closed, by simpa using hset, h.closes, fun _ => hstop, by simp, h.exited⟩
    · cases err with
      | none | some err =>
        cases he
        exact ⟨h.closed, by simpa using hset, h.closes, fun _ => hstop, by simp, h.exited⟩
  | closeFailed =>
    simp only [step] at hs
    split at hs
    · exact Option.some.inj hs ▸ h.beginClose
    · rename_i err cleanup ho hc
      obtain rfl := Option.some.inj hs
      have hset := h.unset_ne (by simp [ho])
      exact ⟨h.closed, by simpa using hset, h.closes, fun _ => h.stopped (by simp [hasStop, ho]), fun _ _ => ⟨_, hc⟩, h.exited⟩
    · cases hs
  | fire =>
    obtain ⟨⟨ha, -⟩, he⟩ := Option.ite_none_right_eq_some.mp hs
    cases he
    have hb := h.beginClose
    have hset : s.opening ≠ .started := fun ho => by
      have := h.after.mpr ho
      simp [ha] at this
    have hclosed : s.beginClose.closed = true ∧ s.beginClose.opening = s.opening := by
      rcases s.beginClose_cases with ⟨hn, he⟩ | ⟨-, after, -, -, he⟩
      · rw [he]
        exact ⟨h.closed.mpr hn, rfl⟩
      · rw [he]
        exact ⟨rfl, rfl⟩
    exact ⟨hb.closed, by simpa [hclosed.2] using hset, fun _ => hclosed.1, by simp, hb.failed, hb.exited⟩
  | kill err =>
    obtain ⟨hc, he⟩ := Option.ite_none_right_eq_some.mp hs
    cases he
    exact h.goesOn (by simp [hc]) (by simp [hc]) (by simp) (by simp)
  | wait =>
    simp only [step] at hs
    split at hs
    · rename_i err hc
      obtain ⟨hexited, he⟩ := Option.ite_none_right_eq_some.mp hs
      cases he
      exact h.goesOn (by simp [hc]) (by simp [hc]) (by simp) fun _ => hexited
    · cases hs
  | waitTimeout =>
    simp only [step] at hs
    split at hs
    · rename_i err hc
      obtain rfl := Option.some.inj hs
      exact h.goesOn (by simp [hc]) (by simp [hc]) (by simp) (by simp)
    · cases hs
  | finish =>
    simp only [step] at hs
    split at hs
    · rename_i err hc
      obtain rfl := Option.some.inj hs
      refine h.goesOn (by simp [hc]) (by simp [hc]) (by simp) fun he => h.exited (.inl ?_)
      rcases he with he | he <;> cases he
      exact hc
    · cases hs

theorem beginClose_done (s : ShellSession) (err : Option String) : s.beginClose.closing = .done err ↔ s.closing = .done err := by
  rcases s.beginClose_cases with ⟨-, he⟩ | ⟨hn, after, -, -, he⟩
  · rw [he]
  · simp [he, hn]

theorem finish_step (hs : s.step .finish = some s') : ∃ err, s.closing = .waited err ∧ s' = { s with closing := .done err } := by
  simp only [step] at hs
  split at hs
  · rename_i err hc
    exact ⟨err, hc, (Option.some.inj hs).symm⟩
  · cases hs

/-- Only the end of `Close` ends it, and it stays. -/
theorem step_done (hs : s.step event = some s') (he : event ≠ .finish) (err : Option String) :
    s'.closing = .done err ↔ s.closing = .done err := by
  cases event with
  | close => exact Option.some.inj hs ▸ s.beginClose_done err
  | ctxEnds | exits =>
    obtain ⟨-, he⟩ := Option.ite_none_left_eq_some.mp hs
    cases he
    rfl
  | arm =>
    obtain ⟨-, he⟩ := Option.ite_none_right_eq_some.mp hs
    cases he
    rfl
  | setStop =>
    obtain ⟨-, he⟩ := Option.ite_none_right_eq_some.mp hs
    simp only [Option.some.injEq, stopAfter_after] at he
    split at he <;> subst he <;> rfl
  | resize result =>
    obtain ⟨-, he⟩ := Option.ite_none_right_eq_some.mp hs
    split at he
    · cases he
      rfl
    · cases result <;> cases he <;> rfl
  | closeFailed =>
    simp only [step] at hs
    split at hs
    · exact Option.some.inj hs ▸ s.beginClose_done err
    · cases hs
      rfl
    · cases hs
  | fire =>
    obtain ⟨-, he⟩ := Option.ite_none_right_eq_some.mp hs
    cases he
    exact s.beginClose_done err
  | kill result =>
    obtain ⟨hc, he⟩ := Option.ite_none_right_eq_some.mp hs
    cases he
    simp [hc]
  | wait =>
    simp only [step] at hs
    split at hs
    · rename_i result hc
      obtain ⟨-, he⟩ := Option.ite_none_right_eq_some.mp hs
      cases he
      simp [hc]
    · cases hs
  | waitTimeout =>
    simp only [step] at hs
    split at hs
    · rename_i result hc
      cases hs
      simp [hc]
    · cases hs
  | finish => exact absurd rfl he

/-! ### What is left to do -/

def openingWork : Opening → Nat
  | .started => 5
  | .armed => 3
  | .stopSet => 2
  | .failing _ => 1
  | .returned _ => 0

def closingWork : ShellClosing → Nat
  | .never => 4
  | .marked => 3
  | .killed _ => 2
  | .waited _ => 1
  | .done _ => 0

def afterWork : AfterFunc → Nat
  | .unset => 1
  | .waiting => 1
  | .stopped | .fired => 0

/-- How many steps can be left. -/
def work (s : ShellSession) : Nat := openingWork s.opening + closingWork s.closing + afterWork s.after

theorem beginClose_work (s : ShellSession) : s.beginClose.work ≤ s.work ∧ (s.closing = .never → s.beginClose.work < s.work) := by
  rcases s.beginClose_cases with ⟨hn, he⟩ | ⟨hn, after, ha, -, he⟩
  · rw [he]
    exact ⟨Nat.le_refl _, fun h => absurd h hn⟩
  · rw [he]
    rcases ha with rfl | ⟨hw, rfl⟩
    · simp [work, hn, closingWork]
    · simp [work, hn, hw, closingWork, afterWork]

theorem step_work (hs : s.step event = some s') (he : event.internal = true) : s'.work < s.work := by
  cases event with
  | close | ctxEnds | exits => cases he
  | arm =>
    obtain ⟨ho, he⟩ := Option.ite_none_right_eq_some.mp hs
    cases he
    simp only [work, ho, openingWork, afterWork]
    omega
  | setStop =>
    obtain ⟨ho, he⟩ := Option.ite_none_right_eq_some.mp hs
    simp only [Option.some.injEq, stopAfter_after] at he
    split at he
    · subst he
      by_cases ha : s.after = .waiting
      · simp only [work, ho, ha, openingWork, afterWork, if_true]
        omega
      · simp [work, ho, ha, openingWork]
    · subst he
      simp [work, ho, openingWork]
  | resize err =>
    obtain ⟨ho, he⟩ := Option.ite_none_right_eq_some.mp hs
    split at he
    · cases he
      simp [work, ho, openingWork]
    · cases err <;> cases he <;> simp [work, ho, openingWork]
  | closeFailed =>
    simp only [step] at hs
    split at hs
    · rename_i hc
      exact Option.some.inj hs ▸ s.beginClose_work.2 hc
    · rename_i ho hc
      cases hs
      simp [work, ho, openingWork]
    · cases hs
  | fire =>
    obtain ⟨⟨ha, -⟩, he⟩ := Option.ite_none_right_eq_some.mp hs
    cases he
    rcases s.beginClose_cases with ⟨-, hb⟩ | ⟨hn, after, -, -, hb⟩
    · simp [work, hb, ha, afterWork]
    · simp [work, hb, ha, hn, afterWork, closingWork]
  | kill err =>
    obtain ⟨hc, he⟩ := Option.ite_none_right_eq_some.mp hs
    cases he
    simp [work, hc, closingWork]
  | wait =>
    simp only [step] at hs
    split at hs
    · rename_i err hc
      obtain ⟨-, he⟩ := Option.ite_none_right_eq_some.mp hs
      cases he
      simp [work, hc, closingWork]
    · cases hs
  | waitTimeout =>
    simp only [step] at hs
    split at hs
    · rename_i err hc
      cases hs
      simp [work, hc, closingWork]
    · cases hs
  | finish =>
    obtain ⟨err, hc, rfl⟩ := finish_step hs
    simp [work, hc, closingWork]

/-- A shell that has nothing to do of itself. -/
structure Settled (s : ShellSession) : Prop where
  opened : ∃ err, s.opening = .returned err
  closing : s.closing = .never ∨ ∃ err, s.closing = .done err
  failed : ∀ err, s.opening = .returned (some err) → ∃ cleanup, s.closing = .done cleanup
  ended : s.ctxDone = true → ∃ err, s.closing = .done err

theorem Ok.settled (h : s.Ok) (hq : ∀ event, event.internal = true → s.step event = none) : s.Settled := by
  have hclosing : s.closing = .never ∨ ∃ err, s.closing = .done err := by
    cases hc : s.closing with
    | never => exact .inl rfl
    | done err => exact .inr ⟨err, rfl⟩
    | marked =>
      have := hq (.kill none) rfl
      simp [ShellSession.step, hc] at this
    | killed err =>
      have := hq .waitTimeout rfl
      simp [ShellSession.step, hc] at this
    | waited err =>
      have := hq .finish rfl
      simp [ShellSession.step, hc] at this
  have hopening : ∃ err, s.opening = .returned err := by
    cases ho : s.opening with
    | returned err => exact ⟨err, rfl⟩
    | started =>
      have := hq .arm rfl
      simp [ShellSession.step, ho] at this
    | armed =>
      have := hq .setStop rfl
      simp [ShellSession.step, ho] at this
    | stopSet =>
      have := hq (.resize none) rfl
      simp only [ShellSession.step, ho, if_true] at this
      split at this <;> cases this
    | failing err =>
      have := hq .closeFailed rfl
      rcases hclosing with hc | ⟨cleanup, hc⟩ <;> simp [ShellSession.step, ho, hc] at this
  refine ⟨hopening, hclosing, h.failed, fun hctx => hclosing.resolve_left fun hn => ?_⟩
  obtain ⟨err, ho⟩ := hopening
  have hopen : ¬s.closed = true := fun hc => h.closed.mp hc hn
  cases ha : s.after with
  | unset => exact h.unset_ne (by simp [ho]) ha
  | waiting =>
    have := hq .fire rfl
    simp [ShellSession.step, ha, hctx] at this
  | stopped => exact hopen (h.closes (.inl ha))
  | fired => exact hopen (h.closes (.inr ha))

end ShellSession

/-! ## All of them -/

/-- The shells that `Close` has yet to close, once it has read the map. -/
def ShellsClosing.pending : ShellsClosing → Option (List Nat)
  | .items rest => some rest
  | .done => some []
  | _ => none

namespace ShellSessions

structure Ok (s : ShellSessions) : Prop where
  shells : ∀ shell ∈ s.shells, shell.Ok
  nodup : s.sessions.Nodup
  /-- What is in the map: the shells whose `Close` did not succeed. -/
  mem : ∀ id, id ∈ s.sessions ↔ ∃ shell, s.shells[id]? = some shell ∧ shell.closing ≠ .done none
  count : s.sessions.length ≤ 32
  failed : ∀ shell ∈ s.shells, ∀ err, shell.closing = .done (some err) → s.failure ≠ none
  cancelled : s.closing ≠ .idle → s.cancelled = true
  closed : s.closed = s.closing.pending.isSome
  pending : ∀ rest, s.closing.pending = some rest → (∀ id ∈ rest, id < s.shells.length) ∧
    ∀ id shell, s.shells[id]? = some shell → id ∈ rest ∨ ∃ err, shell.closing = .done err

variable {s s' : ShellSessions}

theorem opens_cases (s : ShellSessions) (options : ShellOptions) (ssh ctxErr : Bool) (err : Option String) :
    (s.opens options ssh ctxErr err).1 = s ∨
    (s.closed = false ∧ s.failure = none ∧ s.cancelled = false ∧ s.sessions.length < 32 ∧ (s.opens options ssh ctxErr err).1 =
      { s with sessions := s.sessions ++ [s.shells.length], shells := s.shells ++ [{}] }) := by
  unfold opens
  split
  · exact .inl rfl
  · split
    · exact .inl rfl
    · rename_i hlive
      simp only [not_or, Bool.not_eq_true, ne_eq, not_not] at hlive
      obtain ⟨hclosed, hfailure, hcancelled, -⟩ := hlive
      split
      · exact .inl rfl
      · rename_i hroom
        split
        · exact .inl rfl
        · exact .inr ⟨hclosed, hfailure, hcancelled, by omega, rfl⟩

theorem Ok.opens (h : s.Ok) (options : ShellOptions) (ssh ctxErr : Bool) (err : Option String) :
    (s.opens options ssh ctxErr err).1.Ok := by
  rcases s.opens_cases options ssh ctxErr err with he | ⟨hclosed, -, -, hroom, he⟩
  · rwa [he]
  · rw [he]
    have hnone : s.closing.pending = none := by simpa [hclosed] using h.closed
    have hfresh : s.shells.length ∉ s.sessions := fun hm => by
      obtain ⟨shell, hshell, -⟩ := (h.mem _).mp hm
      simp at hshell
    refine ⟨?_, ?_, fun id => ?_, ?_, ?_, h.cancelled, h.closed, fun rest hr => ?_⟩
    · intro shell hm
      rcases List.mem_append.mp hm with hm | hm
      · exact h.shells shell hm
      · obtain rfl := List.mem_singleton.mp hm
        exact ⟨by simp, by simp, by simp, by simp [ShellSession.hasStop], by simp, by simp⟩
    · exact List.Nodup.append h.nodup (List.nodup_singleton _) (by simpa using hfresh)
    · rw [List.mem_append, h.mem, List.mem_singleton]
      rcases Nat.lt_trichotomy id s.shells.length with hlt | rfl | hgt
      · simp [List.getElem?_append_left hlt, Nat.ne_of_lt hlt]
      · simp
      · have hout : s.shells[id]? = none := List.getElem?_eq_none (Nat.le_of_lt hgt)
        have hout' : (s.shells ++ [({} : ShellSession)])[id]? = none := by
          apply List.getElem?_eq_none
          rw [List.length_append]
          exact hgt
        rw [hout, hout']
        simp [Nat.ne_of_gt hgt]
    · simp only [List.length_append, List.length_singleton]
      omega
    · intro shell hm err hd
      rcases List.mem_append.mp hm with hm | hm
      · exact h.failed shell hm err hd
      · obtain rfl := List.mem_singleton.mp hm
        cases hd
    · simp only at hr
      rw [hnone] at hr
      cases hr

theorem mem_set {shells : List ShellSession} {id : Nat} {shell : ShellSession} {P : ShellSession → Prop} (h : ∀ x ∈ shells, P x) (hs : P shell) :
    ∀ x ∈ shells.set id shell, P x := by
  intro x hx
  rcases List.mem_or_eq_of_mem_set hx with hx | rfl
  · exact h x hx
  · exact hs

/-- A shell takes a step that does not end its `Close`. -/
theorem Ok.setShell (h : s.Ok) {id : Nat} {shell shell' : ShellSession} (hshell : s.shells[id]? = some shell) (hok : shell'.Ok)
    (hdone : ∀ err, shell'.closing = .done err ↔ shell.closing = .done err) : ({ s with shells := s.shells.set id shell' } : ShellSessions).Ok := by
  have hlt := (List.getElem?_eq_some_iff.mp hshell).1
  have hmem : shell ∈ s.shells := List.mem_of_getElem? hshell
  refine ⟨mem_set h.shells hok, h.nodup, fun other => ?_, h.count, ?_, h.cancelled, h.closed, fun rest hr => ?_⟩
  · rw [h.mem, List.getElem?_set]
    by_cases he : id = other
    · subst he
      rw [hshell]
      simp [hlt, hdone]
    · simp [he]
  · exact mem_set h.failed fun err hd => h.failed shell hmem err ((hdone err).mp hd)
  · refine ⟨by simpa using (h.pending rest hr).1, fun other x hx => ?_⟩
    rw [List.getElem?_set] at hx
    by_cases he : id = other
    · subst he
      simp only [if_true, hlt] at hx
      obtain rfl := Option.some.inj hx
      simpa [hdone] using (h.pending rest hr).2 id shell hshell
    · simp only [he, if_false] at hx
      exact (h.pending rest hr).2 other x hx

theorem shellStep_cases {id : Nat} {event : ShellEvent} (hs : s.shellStep id event = some s') : ∃ shell shell', s.shells[id]? = some shell ∧
    shell.step event = some shell' ∧
    s' = if event = .finish then ({ s with shells := s.shells.set id shell' }).finished id shell'.closing
      else { s with shells := s.shells.set id shell' } := by
  simp only [shellStep] at hs
  split at hs
  · cases hs
  · rename_i shell hshell
    obtain ⟨shell', hstep, he⟩ := Option.map_eq_some_iff.mp hs
    exact ⟨shell, shell', hshell, hstep, he.symm⟩

theorem Ok.finished (h : s.Ok) {id : Nat} {shell : ShellSession} {err : Option String} (hshell : s.shells[id]? = some shell)
    (hok : ({ shell with closing := .done err } : ShellSession).Ok) (hc : shell.closing = .waited err) :
    (({ s with shells := s.shells.set id { shell with closing := .done err } }).finished id (.done err)).Ok := by
  have hlt := (List.getElem?_eq_some_iff.mp hshell).1
  have hshells : ∀ x ∈ s.shells.set id { shell with closing := .done err }, x.Ok := mem_set h.shells hok
  have hpending (rest : List Nat) (hr : s.closing.pending = some rest) : (∀ other ∈ rest, other < s.shells.length) ∧
      ∀ other x, (s.shells.set id { shell with closing := .done err })[other]? = some x → other ∈ rest ∨ ∃ err, x.closing = .done err := by
    refine ⟨(h.pending rest hr).1, fun other x hx => ?_⟩
    rw [List.getElem?_set] at hx
    by_cases he : id = other
    · simp only [he, if_true] at hx
      split at hx
      · obtain rfl := Option.some.inj hx
        exact .inr ⟨err, rfl⟩
      · cases hx
    · simp only [he, if_false] at hx
      exact (h.pending rest hr).2 other x hx
  cases err with
  | none =>
    refine ⟨hshells, h.nodup.erase id, fun other => ?_, ?_, ?_, h.cancelled, h.closed, fun rest hr => ?_⟩
    · simp only [ShellSessions.finished, h.nodup.mem_erase_iff, h.mem, List.getElem?_set]
      by_cases he : id = other
      · subst he
        simp [hlt]
      · simp [he, Ne.symm he]
    · exact Nat.le_trans (List.length_erase_le ..) h.count
    · exact mem_set h.failed (fun err hd => by cases hd)
    · simpa [ShellSessions.finished] using hpending rest hr
  | some failure =>
    refine ⟨hshells, h.nodup, fun other => ?_, h.count, fun _ _ _ _ => by simp [ShellSessions.finished], h.cancelled, h.closed, fun rest hr => ?_⟩
    · simp only [ShellSessions.finished, h.mem, List.getElem?_set]
      by_cases he : id = other
      · subst he
        rw [hshell]
        simp [hlt, hc]
      · simp [he]
    · simpa [ShellSessions.finished] using hpending rest hr

theorem Ok.shellStep (h : s.Ok) {id : Nat} {event : ShellEvent} (hs : s.shellStep id event = some s') : s'.Ok := by
  obtain ⟨shell, shell', hshell, hstep, rfl⟩ := shellStep_cases hs
  have hok := (h.shells shell (List.mem_of_getElem? hshell)).step hstep
  by_cases he : event = .finish
  · subst he
    obtain ⟨err, hc, rfl⟩ := ShellSession.finish_step hstep
    exact h.finished hshell hok hc
  · rw [if_neg he]
    exact h.setShell hshell hok (ShellSession.step_done hstep he)

theorem Ok.step (h : s.Ok) {event : ShellsEvent} (hs : shellsMachine.step s event = some s') : s'.Ok := by
  cases event with
  | cancel =>
    obtain rfl := Option.some.inj hs
    exact ⟨h.shells, h.nodup, h.mem, h.count, h.failed, fun _ => rfl, h.closed, h.pending⟩
  | «open» options ssh ctxErr err => exact Option.some.inj hs ▸ h.opens options ssh ctxErr err
  | close =>
    obtain rfl := Option.some.inj hs
    split
    · rename_i hidle
      have hclosed := h.closed
      rw [hidle] at hclosed
      exact ⟨h.shells, h.nodup, h.mem, h.count, h.failed, fun _ => rfl, hclosed, nofun⟩
    · exact h
  | shell id event => exact h.shellStep hs
  | closeFires =>
    obtain ⟨⟨hc, hidle⟩, he⟩ := Option.ite_none_right_eq_some.mp hs
    cases he
    have hclosed := h.closed
    rw [hidle] at hclosed
    exact ⟨h.shells, h.nodup, h.mem, h.count, h.failed, fun _ => hc, hclosed, nofun⟩
  | closeSnapshot order =>
    obtain ⟨⟨hcl, hperm⟩, he⟩ := Option.ite_none_right_eq_some.mp hs
    cases he
    have hc := h.cancelled (by simp [hcl])
    refine ⟨h.shells, h.nodup, h.mem, h.count, h.failed, fun _ => hc, rfl, ?_⟩
    rintro _ ⟨⟩
    refine ⟨fun id hm => ?_, fun id shell hshell => ?_⟩
    · obtain ⟨shell, hshell, -⟩ := (h.mem id).mp (hperm.mem_iff.mp hm)
      exact (List.getElem?_eq_some_iff.mp hshell).1
    · by_cases hd : shell.closing = .done none
      · exact .inr ⟨none, hd⟩
      · exact .inl (hperm.mem_iff.mpr ((h.mem id).mpr ⟨shell, hshell, hd⟩))
  | closeNext =>
    simp only [shellsMachine] at hs
    split at hs
    · rename_i hcl
      cases hs
      have hclosed := h.closed
      have hpending := h.pending [] (by rw [hcl]; rfl)
      rw [hcl] at hclosed
      refine ⟨h.shells, h.nodup, h.mem, h.count, h.failed, fun _ => h.cancelled (by simp [hcl]), hclosed, ?_⟩
      rintro _ ⟨⟩
      exact hpending
    · rename_i id rest hcl
      split at hs
      · exact h.shellStep hs
      · rename_i err hmap
        cases hs
        obtain ⟨shell, hshell, hd⟩ := Option.map_eq_some_iff.mp hmap
        have hclosed := h.closed
        obtain ⟨hlt, hpending⟩ := h.pending (id :: rest) (by rw [hcl]; rfl)
        rw [hcl] at hclosed
        refine ⟨h.shells, h.nodup, h.mem, h.count, h.failed, fun _ => h.cancelled (by simp [hcl]), hclosed, ?_⟩
        rintro _ ⟨⟩
        refine ⟨fun other hm => hlt other (List.mem_cons_of_mem _ hm), fun other x hx => ?_⟩
        rcases hpending other x hx with hm | hdone
        · rcases List.mem_cons.mp hm with rfl | hm
          · rw [hshell] at hx
            exact .inr ⟨err, Option.some.inj hx ▸ hd⟩
          · exact .inl hm
        · exact .inr hdone
      · cases hs
    · cases hs

theorem start_ok : ({} : ShellSessions).Ok :=
  ⟨by simp, List.nodup_nil, by simp, by simp, by simp, fun h => absurd rfl h, rfl, nofun⟩

theorem run_ok {events : List ShellsEvent} (h : shellsMachine.run {} events = some s) : s.Ok :=
  Machine.run_inv _ (fun _ _ _ hi hs => hi.step hs) h start_ok

/-! ### No shell is started any more -/

/-- `open` refuses. -/
def Refusing (s : ShellSessions) : Prop := s.closed = true ∨ s.failure ≠ none ∨ s.cancelled = true

theorem finished_frame (s : ShellSessions) (id : Nat) (closing : ShellClosing) : (s.finished id closing).shells = s.shells ∧
    (s.finished id closing).closed = s.closed ∧ (s.finished id closing).cancelled = s.cancelled ∧
    (s.finished id closing).closing = s.closing ∧ (s.failure ≠ none → (s.finished id closing).failure ≠ none) := by
  cases closing with
  | done err =>
    cases err with
    | none => exact ⟨rfl, rfl, rfl, rfl, fun h => h⟩
    | some err => exact ⟨rfl, rfl, rfl, rfl, fun _ => by simp [finished]⟩
  | never | marked | killed | waited => exact ⟨rfl, rfl, rfl, rfl, fun h => h⟩

theorem Refusing.shellStep (h : s.Refusing) {id : Nat} {event : ShellEvent} (hs : s.shellStep id event = some s') :
    s'.Refusing ∧ s'.shells.length = s.shells.length := by
  obtain ⟨shell, shell', -, -, rfl⟩ := shellStep_cases hs
  split
  · obtain ⟨hshells, hclosed, hcancelled, -, hfailure⟩ :=
      finished_frame { s with shells := s.shells.set id shell' } id shell'.closing
    refine ⟨?_, by simp [hshells]⟩
    rcases h with h | h | h
    · exact .inl (hclosed.trans h)
    · exact .inr (.inl (hfailure h))
    · exact .inr (.inr (hcancelled.trans h))
  · exact ⟨h, by simp⟩

theorem Refusing.step (h : s.Refusing) {event : ShellsEvent} (hs : shellsMachine.step s event = some s') :
    s'.Refusing ∧ s'.shells.length = s.shells.length := by
  cases event with
  | cancel => exact Option.some.inj hs ▸ ⟨.inr (.inr rfl), rfl⟩
  | «open» options ssh ctxErr err =>
    obtain rfl := Option.some.inj hs
    rcases s.opens_cases options ssh ctxErr err with he | ⟨hclosed, hfailure, hcancelled, -, -⟩
    · rw [he]
      exact ⟨h, rfl⟩
    · simp [Refusing, hclosed, hfailure, hcancelled] at h
  | close =>
    obtain rfl := Option.some.inj hs
    split
    · exact ⟨.inr (.inr rfl), rfl⟩
    · exact ⟨h, rfl⟩
  | shell id event => exact h.shellStep hs
  | closeFires =>
    obtain ⟨⟨hc, -⟩, he⟩ := Option.ite_none_right_eq_some.mp hs
    cases he
    exact ⟨.inr (.inr hc), rfl⟩
  | closeSnapshot order =>
    obtain ⟨-, he⟩ := Option.ite_none_right_eq_some.mp hs
    cases he
    exact ⟨.inl rfl, rfl⟩
  | closeNext =>
    simp only [shellsMachine] at hs
    split at hs
    · cases hs
      exact ⟨h, rfl⟩
    · split at hs
      · exact h.shellStep hs
      · cases hs
        exact ⟨h, rfl⟩
      · cases hs
    · cases hs

/-! ### What is left to do -/

def closeWork (s : ShellSessions) : Nat :=
  match s.closing with
  | .idle => s.shells.length + 3
  | .cancelled => s.shells.length + 2
  | .items rest => rest.length + 1
  | .done => 0

/-- How many steps can be left that nobody outside asks for. -/
def work (s : ShellSessions) : Nat := (s.shells.map ShellSession.work).sum + s.closeWork

theorem sum_set_lt {shells : List ShellSession} {id : Nat} {shell shell' : ShellSession} (hshell : shells[id]? = some shell)
    (hlt : shell'.work < shell.work) : ((shells.set id shell').map ShellSession.work).sum < (shells.map ShellSession.work).sum := by
  induction shells generalizing id with
  | nil => cases hshell
  | cons first rest ih =>
    cases id with
    | zero =>
      obtain rfl := Option.some.inj hshell
      simpa using hlt
    | succ id => simpa using ih hshell

theorem shellStep_work {id : Nat} {event : ShellEvent} (hs : s.shellStep id event = some s')
    (hlt : ∀ shell shell', s.shells[id]? = some shell → shell.step event = some shell' → shell'.work < shell.work) : s'.work < s.work := by
  obtain ⟨shell, shell', hshell, hstep, rfl⟩ := shellStep_cases hs
  have hsum := sum_set_lt hshell (hlt shell shell' hshell hstep)
  split
  · obtain ⟨hshells, -, -, hclosing, -⟩ := finished_frame { s with shells := s.shells.set id shell' } id shell'.closing
    simpa [work, closeWork, hshells, hclosing] using hsum
  · simpa [work, closeWork] using hsum

theorem Ok.sessions_length (h : s.Ok) : s.sessions.length ≤ s.shells.length := by
  have hsub : s.sessions ⊆ List.range s.shells.length := fun id hm => by
    obtain ⟨shell, hshell, -⟩ := (h.mem id).mp hm
    exact List.mem_range.mpr (List.getElem?_eq_some_iff.mp hshell).1
  simpa using (List.subperm_of_subset h.nodup hsub).length_le

theorem Ok.step_work (h : s.Ok) {event : ShellsEvent} (hs : shellsMachine.step s event = some s') (hi : event.internal = true) :
    s'.work < s.work := by
  cases event with
  | cancel | «open» | close => cases hi
  | shell id event => exact shellStep_work hs fun shell shell' _ hstep => ShellSession.step_work hstep hi
  | closeFires =>
    obtain ⟨⟨-, hidle⟩, he⟩ := Option.ite_none_right_eq_some.mp hs
    cases he
    simp [work, closeWork, hidle]
  | closeSnapshot order =>
    obtain ⟨⟨hc, hperm⟩, he⟩ := Option.ite_none_right_eq_some.mp hs
    cases he
    have := h.sessions_length
    have := hperm.length_eq
    simp only [work, closeWork, hc]
    omega
  | closeNext =>
    simp only [shellsMachine] at hs
    split at hs
    · rename_i hc
      cases hs
      simp [work, closeWork, hc]
    · rename_i id rest hc
      split at hs
      · rename_i hnever
        refine shellStep_work hs fun shell shell' hshell hstep => ?_
        simp only [hshell, Option.map_some, Option.some.injEq] at hnever
        exact Option.some.inj hstep ▸ shell.beginClose_work.2 hnever
      · cases hs
        simp [work, closeWork, hc]
      · cases hs
    · cases hs

theorem Ok.settled (h : s.Ok) (hq : ∀ event, event.internal = true → shellsMachine.step s event = none) :
    (∀ shell ∈ s.shells, shell.Settled) ∧ (s.cancelled = true → s.closing = .done) := by
  have hshell (id : Nat) (shell : ShellSession) (hid : s.shells[id]? = some shell) : shell.Settled := by
    refine (h.shells shell (List.mem_of_getElem? hid)).settled fun event hi => ?_
    have := hq (.shell id event) hi
    simpa [shellsMachine, ShellSessions.shellStep, hid] using this
  refine ⟨fun shell hm => ?_, fun hc => ?_⟩
  · obtain ⟨id, hid⟩ := List.mem_iff_getElem?.mp hm
    exact hshell id shell hid
  · cases hclosing : s.closing with
    | idle =>
      have := hq .closeFires rfl
      simp [shellsMachine, hc, hclosing] at this
    | cancelled =>
      have := hq (.closeSnapshot s.sessions) rfl
      simp [shellsMachine, hclosing] at this
    | done => rfl
    | items rest =>
      have hnext := hq .closeNext rfl
      cases rest with
      | nil => simp [shellsMachine, hclosing] at hnext
      | cons id rest =>
        have hlt := (h.pending (id :: rest) (by rw [hclosing]; rfl)).1 id (List.mem_cons_self ..)
        have hid := List.getElem?_eq_getElem hlt
        rcases (hshell id _ hid).closing with hn | ⟨err, hd⟩
        · simp [shellsMachine, hclosing, hid, hn, ShellSessions.shellStep, ShellSession.step] at hnext
        · simp [shellsMachine, hclosing, hid, hd] at hnext

end ShellSessions

open ShellSessions

/-- In every run: at most 32 shells are in the map, and what is not in it is
closed and waited for; once closing has begun or a cleanup failed, none is
started; and when `Close` is through, every shell is closed, all of them with
success unless a failure is on record. -/
theorem shells_cleaned_up {events : List ShellsEvent} {s : ShellSessions} (h : shellsMachine.run {} events = some s) :
    s.sessions.length ≤ 32 ∧
    (∀ id shell, s.shells[id]? = some shell → id ∉ s.sessions → shell.closing = .done none ∧ shell.exited = true) ∧
    (s.closed = true ∨ s.failure ≠ none ∨ s.cancelled = true →
      ∀ more s', shellsMachine.run s more = some s' → s'.shells.length = s.shells.length) ∧
    (s.closing = .done → (∀ shell ∈ s.shells, ∃ err, shell.closing = .done err) ∧
      (s.failure = none → s.sessions = [] ∧ ∀ shell ∈ s.shells, shell.closing = .done none ∧ shell.exited = true)) := by
  have hok := run_ok h
  have hgone (shell : ShellSession) (hm : shell ∈ s.shells) (hd : shell.closing = .done none) : shell.exited = true :=
    (hok.shells shell hm).exited (.inr hd)
  refine ⟨hok.count, fun id shell hid hout => ?_, fun hr more s' hmore => ?_, fun hdone => ?_⟩
  · have hd : shell.closing = .done none := by
      by_contra hd
      exact hout ((hok.mem id).mpr ⟨shell, hid, hd⟩)
    exact ⟨hd, hgone shell (List.mem_of_getElem? hid) hd⟩
  · have hrun := Machine.run_inv shellsMachine (I := fun t => t.Refusing ∧ t.shells.length = s.shells.length)
      (fun t e t' ht hs => ⟨(ht.1.step hs).1, (ht.1.step hs).2.trans ht.2⟩) hmore ⟨hr, rfl⟩
    exact hrun.2
  · have hclosed : ∀ shell ∈ s.shells, ∃ err, shell.closing = .done err := fun shell hm => by
      obtain ⟨id, hid⟩ := List.mem_iff_getElem?.mp hm
      exact ((hok.pending [] (by rw [hdone]; rfl)).2 id shell hid).resolve_left (by simp)
    have hwell (hf : s.failure = none) (shell : ShellSession) (hm : shell ∈ s.shells) : shell.closing = .done none := by
      obtain ⟨err, hd⟩ := hclosed shell hm
      cases err with
      | none => exact hd
      | some err => exact absurd hf (hok.failed shell hm err hd)
    refine ⟨hclosed, fun hf => ⟨List.eq_nil_iff_forall_not_mem.mpr fun id hm => ?_, fun shell hm => ?_⟩⟩
    · obtain ⟨shell, hid, hne⟩ := (hok.mem id).mp hm
      exact hne (hwell hf shell (List.mem_of_getElem? hid))
    · exact ⟨hwell hf shell hm, hgone shell hm (hwell hf shell hm)⟩

/-- What goroutines do of themselves comes to an end from every state that is
reached, in any order; and then every `open` has returned, every `Close` that
was begun is through, a shell whose context ended is closed, and all of them
are if the context of the shells did. -/
theorem shells_settle {events : List ShellsEvent} {s : ShellSessions} (h : shellsMachine.run {} events = some s) :
    (∀ more s', (∀ event ∈ more, event.internal = true) → shellsMachine.run s more = some s' → more.length ≤ s.work) ∧
    ((∀ event, event.internal = true → shellsMachine.step s event = none) →
      (∀ shell ∈ s.shells, shell.Settled) ∧ (s.cancelled = true → s.closing = .done ∧ ∀ shell ∈ s.shells, ∃ err, shell.closing = .done err)) := by
  have hok := run_ok h
  refine ⟨fun more s' hint hmore => ?_, fun hq => ?_⟩
  · clear h
    induction more generalizing s with
    | nil => exact Nat.zero_le _
    | cons event more ih =>
      obtain ⟨s₁, hs, hrest⟩ := Machine.run_cons _ hmore
      have hlt := hok.step_work hs (hint event (List.mem_cons_self ..))
      have hle := ih (hok.step hs) (fun e hm => hint e (List.mem_cons_of_mem _ hm)) hrest
      simp only [List.length_cons]
      omega
  · obtain ⟨hshells, hclose⟩ := hok.settled hq
    refine ⟨hshells, fun hc => ⟨hclose hc, fun shell hm => ?_⟩⟩
    obtain ⟨id, hid⟩ := List.mem_iff_getElem?.mp hm
    exact ((hok.pending [] (by rw [hclose hc]; rfl)).2 id shell hid).resolve_left (by simp)

/-! ## Two shells, one of which does not end -/

def shellOptions : ShellOptions := { Term := "xterm", Size := { Cols := 80, Rows := 24, PixelWidth := 0, PixelHeight := 0 } }

def twoShells : List ShellsEvent :=
  [.open shellOptions true false none, .shell 0 .arm, .shell 0 .setStop, .shell 0 (.resize none),
    .open shellOptions true false none, .cancel, .closeFires, .closeSnapshot [1, 0], .closeNext,
    .shell 1 (.kill none), .shell 1 .exits, .shell 1 .wait, .shell 1 .finish, .closeNext, .closeNext,
    .shell 0 (.kill none), .shell 0 .waitTimeout, .shell 0 .finish, .closeNext, .closeNext]

theorem twoShells_runs : (shellsMachine.run {} twoShells).isSome = true := by decide +kernel

theorem shells_cleaned_up_two : ∃ s, shellsMachine.run {} twoShells = some s ∧ s.sessions = [0] ∧ s.sessions.length ≤ 32 ∧
    (∀ shell ∈ s.shells, ∃ err, shell.closing = .done err) ∧
    ∀ s', shellsMachine.run s [.open shellOptions true false none] = some s' → s'.shells.length = s.shells.length := by
  have h := (Option.some_get twoShells_runs).symm
  obtain ⟨hcount, -, hnone, hclosed⟩ := shells_cleaned_up h
  exact ⟨_, h, by decide +kernel, hcount, (hclosed (by decide +kernel)).1, hnone (.inl (by decide +kernel)) _⟩

theorem shells_settle_two : ∃ s s', shellsMachine.run {} (twoShells.take 11) = some s ∧
    shellsMachine.run s (twoShells.drop 11) = some s' ∧ 9 ≤ s.work ∧ s'.closing = .done := by
  have h : shellsMachine.run {} (twoShells.take 11 ++ twoShells.drop 11) = some ((shellsMachine.run {} twoShells).get twoShells_runs) := by
    rw [List.take_append_drop]
    exact (Option.some_get _).symm
  obtain ⟨s, hs, hrest⟩ := Machine.run_split _ h
  exact ⟨s, _, hs, hrest, (shells_settle hs).1 _ _ (by decide +kernel) hrest, by decide +kernel⟩

end Webshell
