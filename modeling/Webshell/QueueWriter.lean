import Webshell.QueueBroker
import Webshell.QueueCredit

/-!
# No wake-up of the queue writer is lost

Whatever becomes sendable is either signalled by the goroutine that made it so
or still to be seen by the pass the writer is in.
-/

namespace Webshell

/-! ## What a step of a stream makes sendable -/

/-- A goroutine has still to signal the writer. -/
def SignalPending (q : QueueRun) : Prop :=
  .signalWriter ∈ q.reader ∨ ∃ thread ∈ q.controls, QueueWork.signalWriter ∈ thread

instance (q : QueueRun) : Decidable (SignalPending q) := inferInstanceAs (Decidable (_ ∨ _))

theorem signalPending_snoc {q : QueueRun} {controls : List (List QueueWork)} (h : q.controls = controls ++ [[.signalWriter]]) :
    SignalPending q := by
  refine .inr ⟨[.signalWriter], ?_, List.mem_singleton_self _⟩
  rw [h]
  exact List.mem_append_right _ (List.mem_singleton_self _)

theorem sendable_of_target {s : QueuePaneStream} (h : s.targetSequence ≠ 0) : ∃ head, s.Sendable head := by
  unfold QueuePaneStream.targetSequence at h
  split at h
  · exact absurd rfl h
  · rename_i head rest hb
    split at h
    · exact absurd rfl h
    · rename_i hc
      simp only [not_or, Bool.not_eq_false, Bool.not_eq_true] at hc
      split at h
      · rename_i hallows
        exact ⟨head, ⟨rest, hb⟩, hc.1, hc.2, hallows⟩
      · exact absurd rfl h

/-- Work that makes an entry sendable is followed by a signal. -/
theorem perform_noticed (s : QueuePaneStream) (work : QueueWork) :
    .signalWriter ∈ (s.perform work).2 ∨ ∀ head, (s.perform work).1.Sendable head → s.Sendable head := by
  rcases s.perform_cases work with ⟨_, _, _, _, hp⟩ | ⟨entry, -, -, hp⟩ | ⟨reason, -, -, hp⟩
  · right
    intro head hs
    rw [hp] at hs
    exact hs
  · left; rw [hp]; exact List.mem_singleton_self _
  · left; rw [hp]; exact List.mem_singleton_self _

theorem closeTurn_allows {s : QueuePaneStream} {head : QueueOutbound} (h : s.closeTurn.windowAllows head = true) :
    s.windowAllows head = true := by
  unfold QueuePaneStream.windowAllows at h ⊢
  split
  · rfl
  · rename_i hc
    have hw : s.usesWindow = true := by
      simp only [Bool.or_eq_true, Bool.not_eq_true', not_or, Bool.not_eq_false] at hc
      exact hc.1.1
    have hwindow : s.closeTurn.window.inFlight = s.window.inFlight ∧
        s.closeTurn.window.boundaries.length = s.window.boundaries.length + 1 := by
      simp [QueuePaneStream.closeTurn, hw]
    have hc' : ¬ (!s.closeTurn.usesWindow || s.closeTurn.replayBurstActive || !head.isBinary) = true := hc
    rw [if_neg hc', hwindow.1, hwindow.2] at h
    obtain ⟨hturns, hbytes⟩ := Bool.and_eq_true_iff.mp h
    exact Bool.and_eq_true_iff.mpr ⟨decide_eq_true (Nat.lt_of_succ_lt (of_decide_eq_true hturns)), hbytes⟩

/-- The end of a turn makes nothing sendable. -/
theorem finishTurn_sendable (s : QueuePaneStream) (cursor sequence : Nat) {head : QueueOutbound}
    (h : (s.finishTurn cursor sequence).1.Sendable head) : s.Sendable head := by
  have record : (s.recordTurn cursor sequence).Sendable head → s.Sendable head := by
    obtain ⟨_, hr⟩ := FlowInv.recordTurn_eq s cursor sequence
    rw [hr]
    exact fun h => h
  rcases s.finishTurn_cases cursor sequence with ⟨-, hf⟩ | ⟨-, -, hf⟩ | ⟨-, -, -, hf⟩
  · rw [hf] at h; exact h
  · rw [hf] at h; exact record h
  · rw [hf] at h
    obtain ⟨hb, hactive, hwait, hallows⟩ := h
    refine record ⟨hb, hactive, ?_, closeTurn_allows hallows⟩
    simp only [QueuePaneStream.closeTurn] at hwait
    split at hwait
    · cases hwait
    · exact hwait

theorem acknowledgeTurn_signals (q : QueueRun) (value : String) : q.acknowledgeTurn value = q ∨
    ((q.acknowledgeTurn value).turn = q.turn ∧ (q.acknowledgeTurn value).controls = q.controls ++ [[.signalWriter]]) := by
  unfold QueueRun.acknowledgeTurn
  split
  · exact .inl rfl
  · exact .inr ⟨rfl, rfl⟩

/-- What a step of a stream that is not the writer's leaves to be noticed. -/
theorem step_noticed {q q' : QueueRun} {e : QueueEvent} (h : queueMachine.step q e = some q') (he : e.ofBroker = false) :
    q'.turn = q.turn ∧ (q.signals e = true ∨ SignalPending q' ∨
      (¬ SignalPending q ∧ ∀ head, q'.stream.Sendable head → q.stream.Sendable head)) := by
  -- a step that starts no signal and makes nothing sendable keeps those that are pending
  have keep (hpending : SignalPending q → SignalPending q')
      (hsend : ∀ head, q'.stream.Sendable head → q.stream.Sendable head) :
      q.signals e = true ∨ SignalPending q' ∨
        (¬ SignalPending q ∧ ∀ head, q'.stream.Sendable head → q.stream.Sendable head) := by
    by_cases hp : SignalPending q
    · exact .inr (.inl (hpending hp))
    · exact .inr (.inr ⟨hp, hsend⟩)
  -- the reader was idle, so nothing of it is lost
  have idle (hr : q.reader = []) (hc : q'.controls = q.controls) (hp : SignalPending q) : SignalPending q' := by
    rcases hp with hp | hp
    · rw [hr] at hp; cases hp
    · exact .inr (by rw [hc]; exact hp)
  cases e with
  | capacity =>
    simp only [queueMachine, QueueRun.capacity] at h
    split at h
    · cases h; exact ⟨rfl, keep (fun hp => hp) fun _ hs => hs⟩
    · cases h
  | agentText frame =>
    simp only [queueMachine, QueueRun.agentFrame] at h
    split at h
    · rename_i hc
      cases h; exact ⟨rfl, keep (idle hc.1 rfl) fun _ hs => hs⟩
    · cases h
  | agentBinary payload =>
    simp only [queueMachine, QueueRun.agentFrame] at h
    split at h
    · rename_i hc
      cases h; exact ⟨rfl, keep (idle hc.1 rfl) fun _ hs => hs⟩
    · cases h
  | readError err stderr selector size =>
    simp only [queueMachine, QueueRun.readError] at h
    split at h
    · rename_i hc
      split at h <;> cases h <;> exact ⟨rfl, keep (idle hc.1 rfl) fun _ hs => hs⟩
    · cases h
  | readerStep =>
    simp only [queueMachine, QueueRun.readerStep] at h
    split at h
    · cases h
    · rename_i work works hw
      cases h
      refine ⟨rfl, ?_⟩
      rcases perform_noticed q.stream work with hsig | hsend
      · exact .inr (.inl (.inl (List.mem_append_left _ hsig)))
      · by_cases hs : work = .signalWriter
        · left
          simp [QueueRun.signals, hw, hs]
        · refine keep (fun hp => ?_) hsend
          rcases hp with hp | hp
          · rw [hw] at hp
            rcases List.mem_cons.mp hp with hp | hp
            · exact absurd hp.symm hs
            · exact .inl (List.mem_append_right _ hp)
          · exact .inr hp
  | brokerControl control size =>
    cases h
    refine ⟨rfl, keep (fun hp => ?_) fun _ hs => hs⟩
    rcases hp with hp | ⟨thread, ht, hp⟩
    · exact .inl hp
    · exact .inr ⟨thread, List.mem_append_left _ ht, hp⟩
  | controlStep thread =>
    simp only [queueMachine, QueueRun.controlStep] at h
    split at h
    · cases h
    · cases h
    · rename_i work works hw
      cases h
      refine ⟨rfl, ?_⟩
      have hset : (q.stream.perform work).2 ++ works ∈ q.controls.set thread ((q.stream.perform work).2 ++ works) :=
        List.mem_set (List.getElem?_eq_some_iff.mp hw).1 _
      rcases perform_noticed q.stream work with hsig | hsend
      · exact .inr (.inl (.inr ⟨_, hset, List.mem_append_left _ hsig⟩))
      · by_cases hs : work = .signalWriter
        · left
          simp [QueueRun.signals, hw, hs]
        · refine keep (fun hp => ?_) hsend
          rcases hp with hp | ⟨t, ht, hp⟩
          · exact .inl hp
          · obtain ⟨k, hk⟩ := List.mem_iff_getElem?.mp ht
            by_cases hkt : k = thread
            · subst hkt
              rw [hw] at hk
              cases hk
              rcases List.mem_cons.mp hp with hp | hp
              · exact absurd hp.symm hs
              · exact .inr ⟨_, hset, List.mem_append_right _ hp⟩
            · refine .inr ⟨t, List.mem_iff_getElem?.mpr ⟨k, ?_⟩, hp⟩
              rw [List.getElem?_set_ne (Ne.symm hkt)]; exact hk
  | acknowledgeTurn value =>
    simp only [queueMachine, Option.some.injEq] at h
    rcases acknowledgeTurn_signals q value with hq | ⟨ht, hc⟩
    · obtain rfl : q' = q := h.symm.trans hq
      exact ⟨rfl, keep (fun hp => hp) fun _ hs => hs⟩
    · rw [h] at ht hc
      exact ⟨ht, .inr (.inl (signalPending_snoc hc))⟩
  | setPriority priority =>
    simp only [queueMachine, Option.some.injEq] at h
    subst h
    exact ⟨rfl, .inr (.inl (signalPending_snoc rfl))⟩
  | registered => cases he
  | deactivate =>
    cases h
    refine ⟨rfl, keep (fun hp => hp) fun head hs => ?_⟩
    exact absurd hs.2.1 (by simp [QueuePaneStream.deactivate])
  | beginTurn => cases he
  | pop timeUp => cases he
  | finishTurn => cases he
  | notify => cases he

/-! ## The invariant -/

/-- The pass the writer is in will come to the stream, with `head` first in its buffer, or
there will be another pass. -/
def Sees (i : Nat) (q : QueueRun) (head : QueueOutbound) : QueueWriter → Prop
  | .blocked => False
  | .snapshot => True
  | .pass todo wrote => wrote = true ∨ i ∈ todo
  | .turn j todo wrote => wrote = true ∨ i ∈ todo ∨
    (j = i ∧ ∃ t, q.turn = some t ∧ t.phase = .popping ∧ t.writtenBytes = 0 ∧ head.sequence ≤ t.target)

/-- What stream `i` could send is noticed. -/
def Noticed (wake : Bool) (writer : QueueWriter) (i : Nat) (q : QueueRun) : Prop :=
  ∀ head, q.stream.Sendable head → wake = true ∨ SignalPending q ∨ Sees i q head writer

structure BrokerInv (b : QueueBroker) : Prop where
  runs : ∀ (i : Nat) (c : BrokerStream), b.streams[i]? = some c →
    ∃ flowControl limitBytes priority, queueMachine.Reachable (.start flowControl limitBytes priority) c.run
  noticed : ∀ i ∈ b.registered, ∀ c : BrokerStream, b.streams[i]? = some c → Noticed b.wake b.writer i c.run

theorem sorted_of_reachable {flowControl : FlowControl} {limitBytes priority : Int} {q : QueueRun}
    (h : queueMachine.Reachable (.start flowControl limitBytes priority) q) : Sorted q.stream := by
  obtain ⟨es, he⟩ := h
  exact (run_streamInv he).flow.sorted

namespace BrokerInv

variable {b b' : QueueBroker}

/-- A step of stream `i`. -/
theorem ofStep (h : BrokerInv b) {i : Nat} {c : BrokerStream} {e : QueueEvent} {run : QueueRun}
    (hc : b.streams[i]? = some c) (hs : queueMachine.step c.run e = some run)
    (hstreams : b'.streams = (b.setRun i run).streams)
    (hself : i ∈ b'.registered → Noticed b'.wake b'.writer i run)
    (hother : ∀ j ∈ b'.registered, j ≠ i → ∀ d : BrokerStream, b.streams[j]? = some d → Noticed b'.wake b'.writer j d.run) :
    BrokerInv b' := by
  have hat (j : Nat) (d : BrokerStream) (hd : b'.streams[j]? = some d) :
      (j = i ∧ d.run = run) ∨ (j ≠ i ∧ b.streams[j]? = some d) := by
    rw [hstreams, QueueBroker.setRun] at hd
    by_cases hj : i = j
    · subst hj
      rw [List.getElem?_modify_eq, hc] at hd
      cases hd
      exact .inl ⟨rfl, rfl⟩
    · rw [List.getElem?_modify_ne _ _ hj] at hd
      exact .inr ⟨Ne.symm hj, hd⟩
  constructor
  · intro j d hd
    rcases hat j d hd with ⟨rfl, hr⟩ | ⟨-, hd⟩
    · obtain ⟨fc, lb, pr, hreach⟩ := h.runs j c hc
      exact ⟨fc, lb, pr, hr ▸ Machine.reachable_step _ hreach hs⟩
    · exact h.runs j d hd
  · intro j hj d hd
    rcases hat j d hd with ⟨rfl, hr⟩ | ⟨hne, hd⟩
    · exact hr ▸ hself hj
    · exact hother j hj hne d hd

theorem streamStep (h : BrokerInv b) {i : Nat} {e : QueueEvent} (hs : b.streamStep i e = some b') : BrokerInv b' := by
  unfold QueueBroker.streamStep at hs
  split at hs
  · cases hs
  · rename_i c hc
    split at hs
    · cases hs
    · rename_i hbroker
      obtain ⟨run, hrun, rfl⟩ := Option.map_eq_some_iff.mp hs
      obtain ⟨hturn, hcases⟩ := step_noticed hrun (by simpa using hbroker)
      refine h.ofStep hc hrun rfl (fun hi head hsend => ?_) fun j hj hne d hd head hsend => ?_
      · rcases hcases with hsig | hpending | ⟨hnone, hkeep⟩
        · exact .inl (by simp [hsig])
        · exact .inr (.inl hpending)
        · rcases h.noticed i hi c hc head (hkeep head hsend) with hw | hp | hsees
          · exact .inl (by simp [hw])
          · exact absurd hp hnone
          · refine .inr (.inr ?_)
            unfold Sees at hsees ⊢
            simp only [QueueBroker.setRun]
            rw [hturn]
            exact hsees
      · rcases h.noticed j hj d hd head hsend with hw | hp
        · exact .inl (by simp [hw])
        · exact .inr hp

theorem register (h : BrokerInv b) {i : Nat} (hs : b.register i = some b') : BrokerInv b' := by
  unfold QueueBroker.register at hs
  split at hs
  · cases hs
  · rename_i c hc
    split at hs
    · cases hs
    · rename_i hi
      split at hs
      · obtain ⟨run, hrun, rfl⟩ := Option.map_eq_some_iff.mp hs
        exact h.ofStep hc hrun rfl (fun hi' => absurd hi' hi) fun j hj _ d hd => h.noticed j hj d hd
      · obtain ⟨run, hrun, rfl⟩ := Option.map_eq_some_iff.mp hs
        refine h.ofStep hc hrun rfl (fun _ head _ => ?_) fun j hj hne d hd => ?_
        · cases hrun
          exact .inr (.inl (signalPending_snoc rfl))
        · rcases List.mem_append.mp hj with hj | hj
          · exact h.noticed j hj d hd
          · exact absurd (List.mem_singleton.mp hj) hne

/-- The writer comes to a stream: it has nothing to send, or its turn begins. -/
theorem visit (h : BrokerInv b) (hs : b.visit = some b') : BrokerInv b' := by
  unfold QueueBroker.visit at hs
  split at hs
  · rename_i i todo wrote hwriter
    split at hs
    · cases hs
    · rename_i c hc
      obtain ⟨run, hrun, rfl⟩ := Option.map_eq_some_iff.mp hs
      have hnoticed := h.noticed
      rw [hwriter] at hnoticed
      obtain ⟨fc, lb, pr, hreach⟩ := h.runs i c hc
      have hsorted := sorted_of_reachable hreach
      have later (j : Nat) (q : QueueRun) (hne : j ≠ i) (head : QueueOutbound)
          (hsees : Sees j q head (.pass (i :: todo) wrote)) : wrote = true ∨ j ∈ todo := by
        rcases hsees with hw | hj
        · exact .inl hw
        · exact .inr ((List.mem_cons.mp hj).resolve_left hne)
      refine h.ofStep hc hrun rfl (fun hi head hsend => ?_) fun j hj hne d hd head hsend => ?_
      · simp only [queueMachine, QueueRun.beginTurn] at hrun
        split at hrun
        · cases hrun
        · split at hrun
          · rename_i hzero
            cases hrun
            exact absurd hzero (target_of_sendable hsorted hsend).1
          · cases hrun
            obtain ⟨-, hle⟩ := target_of_sendable hsorted hsend
            exact .inr (.inr (.inr (.inr ⟨rfl, _, rfl, rfl, rfl, hle⟩)))
      · rcases hnoticed j hj d hd head hsend with hw | hp | hsees
        · exact .inl hw
        · exact .inr (.inl hp)
        · refine .inr (.inr ?_)
          have hl := later j d.run hne head hsees
          simp only
          split
          · exact hl
          · exact hl.imp_right .inl
  · cases hs

/-- The first entry of a turn is there to be popped; once one is, there will be another pass. -/
theorem pop (h : BrokerInv b) {timeUp : Bool} (hs : b.pop timeUp = some b') : BrokerInv b' := by
  unfold QueueBroker.pop at hs
  split at hs
  · rename_i i todo wrote hwriter
    split at hs
    · cases hs
    · rename_i c hc
      obtain ⟨run, hrun, rfl⟩ := Option.map_eq_some_iff.mp hs
      have hnoticed := h.noticed
      rw [hwriter] at hnoticed
      have more (hlen : c.run.popped.length < run.popped.length) (j : Nat) (q : QueueRun) (head : QueueOutbound) :
          Sees j q head (.turn i todo (wrote || decide (c.run.popped.length < run.popped.length))) :=
        .inl (by simp [hlen])
      have other (j : Nat) (hj : j ∈ b.registered) (hne : j ≠ i) (d : BrokerStream) (hd : b.streams[j]? = some d) :
          Noticed b.wake (.turn i todo (wrote || decide (c.run.popped.length < run.popped.length))) j d.run := by
        intro head hsend
        rcases hnoticed j hj d hd head hsend with hw | hp | hw | ht | ⟨he, -⟩
        · exact .inl hw
        · exact .inr (.inl hp)
        · exact .inr (.inr (.inl (by simp [hw])))
        · exact .inr (.inr (.inr (.inl ht)))
        · exact absurd he.symm hne
      refine h.ofStep hc hrun rfl (fun hi head hsend => ?_) other
      simp only [queueMachine, QueueRun.popTurn] at hrun
      split at hrun
      · rename_i t ht
        split at hrun
        · rename_i hphase
          split at hrun
          · rename_i hnone
            cases hrun
            rcases hnoticed i hi c hc head hsend with hw | hp | hw | hin | ⟨-, t', ht', -, hwritten, hle⟩
            · exact .inl hw
            · exact .inr (.inl hp)
            · exact .inr (.inr (.inl (by simp [hw])))
            · exact .inr (.inr (.inr (.inl hin)))
            · -- nothing written yet and the head is within the target, so the pop did not fail
              rw [ht] at ht'
              cases ht'
              obtain ⟨rest, -, hpop⟩ := popThrough_of_sendable hsend hle
              rw [hwritten] at hnone
              exact absurd (hnone.symm.trans hpop) (by simp)
          · cases hrun
            exact .inr (.inr (more (by simp) i _ head))
        · cases hrun
      · cases hrun
  · cases hs

/-- The end of a turn makes nothing sendable and loses no signal. -/
theorem endTurn (h : BrokerInv b) {e : QueueEvent} (hs : b.endTurn e = some b')
    (hend : ∀ q q', queueMachine.step q e = some q' → (SignalPending q → SignalPending q') ∧
      (∀ head, q'.stream.Sendable head → q.stream.Sendable head) ∧ ∀ t, q.turn = some t → t.phase ≠ .popping) :
    BrokerInv b' := by
  unfold QueueBroker.endTurn at hs
  split at hs
  · rename_i i todo wrote hwriter
    split at hs
    · cases hs
    · rename_i c hc
      obtain ⟨run, hrun, rfl⟩ := Option.map_eq_some_iff.mp hs
      have hnoticed := h.noticed
      rw [hwriter] at hnoticed
      obtain ⟨hpending, hsendable, hphase⟩ := hend _ _ hrun
      have still (j : Nat) (q : QueueRun) (head : QueueOutbound) (hl : wrote = true ∨ j ∈ todo) :
          Sees j q head (if run.turn = none then .pass todo wrote else .turn i todo wrote) := by
        split
        · exact hl
        · exact hl.imp_right .inl
      refine h.ofStep hc hrun rfl (fun hi head hsend => ?_) fun j hj hne d hd head hsend => ?_
      · rcases hnoticed i hi c hc head (hsendable head hsend) with hw | hp | hw | ht | ⟨-, t, ht, hpop, -⟩
        · exact .inl hw
        · exact .inr (.inl (hpending hp))
        · exact .inr (.inr (still i _ head (.inl hw)))
        · exact .inr (.inr (still i _ head (.inr ht)))
        · exact absurd hpop (hphase t ht)
      · rcases hnoticed j hj d hd head hsend with hw | hp | hw | ht | ⟨he, -⟩
        · exact .inl hw
        · exact .inr (.inl hp)
        · exact .inr (.inr (still j _ head (.inl hw)))
        · exact .inr (.inr (still j _ head (.inr ht)))
        · exact absurd he.symm hne
  · cases hs

/-- **Step lemma.** -/
theorem step (h : BrokerInv b) {e : BrokerEvent} (hs : brokerMachine.step b e = some b') : BrokerInv b' := by
  cases e with
  | stream i event => exact h.streamStep hs
  | startPaneStream paneID flowControl limitBytes priority =>
    cases hs
    have hat (i : Nat) (c : BrokerStream)
        (hc : (b.streams ++ [{ paneID := paneID, run := .start flowControl limitBytes priority }])[i]? = some c) :
        b.streams[i]? = some c ∨ c.run = .start flowControl limitBytes priority := by
      rcases Nat.lt_or_ge i b.streams.length with hlt | hge
      · rw [List.getElem?_append_left hlt] at hc
        exact .inl hc
      · rw [List.getElem?_append_right hge] at hc
        rw [List.mem_singleton.mp (List.mem_of_getElem? hc)]
        exact .inr rfl
    refine ⟨fun i c hc => ?_, fun i hi c hc head hsend => ?_⟩
    · rcases hat i c hc with hc | hr
      · exact h.runs i c hc
      · exact ⟨flowControl, limitBytes, priority, [], by rw [hr]; rfl⟩
    · rcases hat i c hc with hc | hr
      · exact h.noticed i hi c hc head hsend
      · obtain ⟨⟨rest, hb⟩, -⟩ := hsend
        rw [hr] at hb
        cases hb
  | register i => exact h.register hs
  | unregister i =>
    cases hs
    exact ⟨h.runs, fun j hj => h.noticed j (List.mem_of_mem_erase hj)⟩
  | receive =>
    simp only [brokerMachine] at hs
    split at hs
    · cases hs
      exact ⟨h.runs, fun _ _ _ _ _ _ => .inr (.inr trivial)⟩
    · cases hs
  | streamSnapshot order =>
    simp only [brokerMachine] at hs
    split at hs
    · rename_i hc
      cases hs
      exact ⟨h.runs, fun j hj _ _ _ _ => .inr (.inr (.inr (hc.2.mem_iff.mpr hj)))⟩
    · cases hs
  | visit => exact h.visit hs
  | pop timeUp => exact h.pop hs
  | finishTurn =>
    refine h.endTurn hs fun q q' hq => ?_
    simp only [queueMachine, QueueRun.finishTurn] at hq
    split at hq
    · rename_i t ht
      split at hq
      · rename_i hphase
        have hpop : ∀ t', q.turn = some t' → t'.phase ≠ .popping := by
          intro t' ht'
          rw [ht] at ht'
          cases ht'
          rw [hphase]; decide
        have hsend (head : QueueOutbound) : (q.stream.finishTurn t.turnCursor t.turnSequence).1.Sendable head →
            q.stream.Sendable head := finishTurn_sendable q.stream t.turnCursor t.turnSequence
        split at hq
        · rename_i s hf
          rw [hf] at hsend
          cases hq; exact ⟨fun hp => hp, hsend, hpop⟩
        · rename_i s boundary hf
          rw [hf] at hsend
          cases hq; exact ⟨fun hp => hp, hsend, hpop⟩
      · cases hq
    · cases hq
  | notify =>
    refine h.endTurn hs fun q q' hq => ?_
    simp only [queueMachine, QueueRun.notify] at hq
    split at hq
    · rename_i ht
      cases hq
      refine ⟨fun hp => hp, fun _ hs => hs, fun t ht' => ?_⟩
      rw [ht] at ht'
      cases ht'
      simp
    · cases hq
  | endPass =>
    simp only [brokerMachine] at hs
    split at hs
    · rename_i wrote hwriter
      cases hs
      have hnoticed := h.noticed
      rw [hwriter] at hnoticed
      refine ⟨h.runs, fun j hj d hd head hsend => ?_⟩
      rcases hnoticed j hj d hd head hsend with hw | hp | hw | hin
      · exact .inl hw
      · exact .inr (.inl hp)
      · exact .inr (.inr (by simp [hw, Sees]))
      · cases hin
    · cases hs

end BrokerInv

theorem start_brokerInv : BrokerInv {} where
  runs := by intro _ _ hc; cases hc
  noticed := by intro _ hi; cases hi

theorem run_brokerInv {es : List BrokerEvent} {b : QueueBroker} (h : brokerMachine.run {} es = some b) : BrokerInv b :=
  Machine.run_inv brokerMachine (fun _ _ _ hb hs => hb.step hs) h start_brokerInv

/-- Every stream of a broker runs as a stream does by itself. -/
theorem brokerStream_reachable {es : List BrokerEvent} {b : QueueBroker} (h : brokerMachine.run {} es = some b) {i : Nat}
    {c : BrokerStream} (hc : b.streams[i]? = some c) :
    ∃ flowControl limitBytes priority, queueMachine.Reachable (.start flowControl limitBytes priority) c.run :=
  (run_brokerInv h).runs i c hc

/-- **No wake-up is lost.** When the writer is blocked on an empty channel, a registered
stream for which no goroutine has still to signal has nothing it may send. -/
theorem no_lost_wakeup (es : List BrokerEvent) (b : QueueBroker) (h : brokerMachine.run {} es = some b)
    (hwriter : b.writer = .blocked) (hwake : b.wake = false) (i : Nat) (hi : i ∈ b.registered) (c : BrokerStream)
    (hc : b.streams[i]? = some c) (hdone : ¬ SignalPending c.run) : c.run.stream.targetSequence = 0 := by
  by_contra hne
  obtain ⟨head, hsend⟩ := sendable_of_target hne
  rcases (run_brokerInv h).noticed i hi c hc head hsend with hw | hp | hsees
  · rw [hwake] at hw; cases hw
  · exact hdone hp
  · rw [hwriter] at hsees; exact hsees

def pongEvents : List BrokerEvent :=
  [.startPaneStream "pane-1" .window 0 0, .stream 0 (.brokerControl .pong 15), .stream 0 (.controlStep 0),
    .register 0, .stream 0 (.controlStep 1), .receive, .stream 0 (.controlStep 0), .streamSnapshot [0], .visit, .pop false,
    .stream 0 (.controlStep 0), .pop false, .finishTurn, .endPass, .streamSnapshot [0], .visit, .endPass, .receive,
    .streamSnapshot [0], .visit, .endPass]

theorem no_lost_wakeup_pong : ∃ b c, brokerMachine.run {} pongEvents = some b ∧ b.streams[0]? = some c ∧
    c.run.stream.targetSequence = 0 ∧ c.run.popped.length = 1 :=
  ⟨_, _, rfl, rfl, no_lost_wakeup pongEvents _ rfl rfl rfl 0 (by decide) _ rfl (by decide), rfl⟩

end Webshell
