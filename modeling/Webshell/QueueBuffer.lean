import Webshell.QueueFlow

/-!
# What a queue stream holds

The buffer is counted exactly, within its limit, and holds consecutive
sequences up to the last one given. A stream that is given up holds one text
more and takes nothing else. A turn of the writer keeps to its budget, entries
without cost aside.
-/

namespace Webshell

def totalCost (entries : List QueueOutbound) : Nat := (entries.map QueueOutbound.byteCost).sum

@[simp] theorem totalCost_nil : totalCost [] = 0 := rfl

@[simp] theorem totalCost_cons (o : QueueOutbound) (entries : List QueueOutbound) :
    totalCost (o :: entries) = o.byteCost + totalCost entries := rfl

@[simp] theorem totalCost_append (l r : List QueueOutbound) : totalCost (l ++ r) = totalCost l + totalCost r := by
  simp [totalCost]

/-- The entries' sequences follow each other and the last one is the last given. -/
def Consecutive (s : QueuePaneStream) : Prop :=
  ∃ first, s.buffer.map QueueOutbound.sequence = List.range' (first + 1) s.buffer.length ∧
    first + s.buffer.length = s.nextSequence

structure BufferOk (s : QueuePaneStream) : Prop where
  counted : s.bufferBytes = totalCost s.buffer
  limit : s.bufferBytes ≤ terminalQueuePaneBufferLimit
  consecutive : Consecutive s

/-- A reason short enough for the limit; there are three of them. -/
def ShortReason : QueueWork → Prop
  | .overload reason => reason.length ≤ 42
  | _ => True

/-- All that a step does to a stream's buffer. -/
inductive BufferStep (q q' : QueueRun) : Prop
  | same : q'.stream.buffer = q.stream.buffer → q'.stream.bufferBytes = q.stream.bufferBytes →
      q'.stream.nextSequence = q.stream.nextSequence → q'.stream.overloaded = q.stream.overloaded →
      q'.popped = q.popped → BufferStep q q'
  | work (work : QueueWork) : (work ∈ q.reader ∨ ∃ thread ∈ q.controls, work ∈ thread) →
      q'.stream = (q.stream.perform work).1 → q'.popped = q.popped → BufferStep q q'
  | deactivate : q'.stream = q.stream.deactivate → q'.popped = q.popped → BufferStep q q'
  | pop (entry : QueueOutbound) (rest : List QueueOutbound) : q.stream.buffer = entry :: rest →
      q'.stream = q.stream.pop entry rest → q'.popped = q.popped ++ [entry] → BufferStep q q'

namespace BufferOk

variable {s : QueuePaneStream}

theorem of_same (h : BufferOk s) {s' : QueuePaneStream} (hb : s'.buffer = s.buffer) (hn : s'.bufferBytes = s.bufferBytes)
    (hq : s'.nextSequence = s.nextSequence) : BufferOk s' := by
  constructor
  · rw [hn, hb]; exact h.counted
  · rw [hn]; exact h.limit
  · unfold Consecutive
    rw [hb, hq]; exact h.consecutive

theorem push (h : BufferOk s) {entry : QueueOutbound} (hle : s.bufferBytes + entry.byteCost ≤ terminalQueuePaneBufferLimit) :
    BufferOk (s.push entry) := by
  obtain ⟨first, hmap, hlen⟩ := h.consecutive
  refine ⟨?_, hle, first, ?_, ?_⟩
  · simp only [QueuePaneStream.push, totalCost_append, totalCost_cons, totalCost_nil, h.counted]
    rfl
  · simp only [QueuePaneStream.push, List.map_append, hmap, List.map_cons, List.map_nil, List.length_append,
      List.length_singleton]
    rw [List.range'_concat, ← hlen]
    congr 2; omega
  · simp only [QueuePaneStream.push, List.length_append, List.length_singleton]; omega

theorem giveUp (s : QueuePaneStream) {reason : String} (h : reason.length ≤ 42) : BufferOk (s.giveUp reason) where
  counted := rfl
  limit := by
    simp only [QueuePaneStream.giveUp, QueuePaneStream.overloadEntry, terminalQueuePaneBufferLimit]
    omega
  consecutive := ⟨s.nextSequence, rfl, rfl⟩

theorem perform (h : BufferOk s) {work : QueueWork} (hw : ShortReason work) : BufferOk (s.perform work).1 := by
  rcases s.perform_cases work with ⟨_, _, _, _, hp⟩ | ⟨entry, rfl, -, hp⟩ | ⟨reason, rfl, -, hp⟩
  · rw [hp]; exact h.of_same rfl rfl rfl
  · rw [hp]
    refine h.push ?_
    by_contra hlt
    simp only [QueuePaneStream.perform, QueuePaneStream.enqueue] at hp
    split at hp
    · exact absurd (congrArg Prod.snd hp) (by simp)
    · rw [if_pos (Nat.lt_of_not_le hlt)] at hp
      exact absurd (congrArg Prod.snd hp) (by simp)
  · rw [hp]; exact giveUp s hw

theorem deactivate (s : QueuePaneStream) : BufferOk s.deactivate :=
  ⟨rfl, Nat.zero_le _, s.nextSequence, rfl, rfl⟩

/-- An entry costs no more than what is counted. -/
theorem head_le (h : BufferOk s) {entry : QueueOutbound} {rest : List QueueOutbound} (hb : s.buffer = entry :: rest) :
    entry.byteCost ≤ s.bufferBytes := by
  rw [h.counted, hb, totalCost_cons]
  exact Nat.le_add_right ..

theorem pop (h : BufferOk s) {entry : QueueOutbound} {rest : List QueueOutbound} (hb : s.buffer = entry :: rest) :
    BufferOk (s.pop entry rest) := by
  obtain ⟨first, hmap, hlen⟩ := h.consecutive
  have hcount := h.counted
  have hlimit := h.limit
  rw [hb] at hmap hlen hcount
  rw [List.map_cons, List.length_cons, List.range'_succ, List.cons.injEq] at hmap
  rw [totalCost_cons] at hcount
  rw [List.length_cons] at hlen
  refine ⟨?_, ?_, first + 1, hmap.2, ?_⟩
  · simp only [QueuePaneStream.pop]; omega
  · simp only [QueuePaneStream.pop]; omega
  · simp only [QueuePaneStream.pop]; omega

end BufferOk

/-! ## Steps -/

theorem shortReason_cursor : ShortReason (.overload "queue history cursor is not continuous") := by
  simp only [ShortReason]; decide

theorem shortReason_early : ShortReason (.overload "queue output arrived before history cursor") := by
  simp only [ShortReason]; decide

theorem shortReason_full : ShortReason (.overload "queue pane buffer exceeded its limit") := by
  simp only [ShortReason]; decide

theorem perform_short (s : QueuePaneStream) (work : QueueWork) : ∀ w ∈ (s.perform work).2, ShortReason w := by
  cases work with
  | enqueueText frame =>
    simp only [QueuePaneStream.perform, QueuePaneStream.enqueueText]
    split
    · simp [ShortReason]
    · split
      · split
        · split <;> simp [ShortReason]
        · simp [ShortReason]
      · split
        · split
          · simp [ShortReason]
          · simpa using shortReason_cursor
        · split
          · simp [ShortReason]
          · split <;> simp [ShortReason]
  | enqueueBinary payload =>
    simp only [QueuePaneStream.perform, QueuePaneStream.enqueueBinary]
    split
    · simp
    · split
      · simpa using shortReason_early
      · split
        · simpa using shortReason_full
        · simp [ShortReason]
  | enqueueChunks start rest =>
    simp only [QueuePaneStream.perform, QueuePaneStream.enqueueChunks]
    split <;> simp [ShortReason]
  | enqueue entry =>
    simp only [QueuePaneStream.perform, QueuePaneStream.enqueue]
    split
    · simp
    · split
      · simpa using shortReason_full
      · simp [ShortReason]
  | overload reason =>
    simp only [QueuePaneStream.perform, QueuePaneStream.overload]
    split <;> simp [ShortReason]
  | signalWriter => simp [QueuePaneStream.perform]

/-- Every reason still to be given is a short one. -/
def ShortReasons (q : QueueRun) : Prop :=
  (∀ w ∈ q.reader, ShortReason w) ∧ ∀ thread ∈ q.controls, ∀ w ∈ thread, ShortReason w

theorem ShortReasons.step {q q' : QueueRun} (h : ShortReasons q) {e : QueueEvent} (hs : queueMachine.step q e = some q') :
    ShortReasons q' := by
  rcases queue_step_cases hs with hstill | ⟨thread, hc⟩ | hr | rfl | ⟨phase, work, payload, hwork, -, rfl⟩
  · obtain ⟨more, hmore, hthreads⟩ := hstill.controls
    refine ⟨by rw [hstill.reader]; exact h.1, fun thread ht => ?_⟩
    rw [hmore] at ht
    rcases List.mem_append.mp ht with ht | ht
    · exact h.2 thread ht
    · rcases hthreads thread ht with rfl | ⟨control, size, rfl⟩ <;> simp [ShortReason]
  · unfold QueueRun.controlStep at hc
    split at hc
    · cases hc
    · cases hc
    · rename_i work rest hthread
      cases hc
      refine ⟨h.1, fun t ht => ?_⟩
      rcases List.mem_or_eq_of_mem_set ht with ht | rfl
      · exact h.2 t ht
      · intro w hw
        rcases List.mem_append.mp hw with hw | hw
        · exact perform_short _ _ w hw
        · exact h.2 _ (List.mem_of_getElem? hthread) w (List.mem_cons_of_mem _ hw)
  · unfold QueueRun.readerStep at hr
    split at hr
    · cases hr
    · rename_i work rest hreader
      cases hr
      refine ⟨fun w hw => ?_, h.2⟩
      rcases List.mem_append.mp hw with hw | hw
      · exact perform_short _ _ w hw
      · exact h.1 w (by rw [hreader]; exact List.mem_cons_of_mem _ hw)
  · exact h
  · refine ⟨fun w hw => ?_, h.2⟩
    rw [List.mem_singleton.mp hw]
    rcases hwork with ⟨frame, -, rfl, -⟩ | ⟨-, rfl⟩ | ⟨_, _, _, message, size, -, rfl, -⟩ <;> trivial

theorem recordTurn_same (s : QueuePaneStream) (cursor sequence : Nat) :
    (s.recordTurn cursor sequence).buffer = s.buffer ∧ (s.recordTurn cursor sequence).bufferBytes = s.bufferBytes ∧
      (s.recordTurn cursor sequence).nextSequence = s.nextSequence ∧
      (s.recordTurn cursor sequence).overloaded = s.overloaded := by
  unfold QueuePaneStream.recordTurn
  split <;> exact ⟨rfl, rfl, rfl, rfl⟩

theorem finishTurn_same (s : QueuePaneStream) (cursor sequence : Nat) :
    (s.finishTurn cursor sequence).1.buffer = s.buffer ∧ (s.finishTurn cursor sequence).1.bufferBytes = s.bufferBytes ∧
      (s.finishTurn cursor sequence).1.nextSequence = s.nextSequence ∧
      (s.finishTurn cursor sequence).1.overloaded = s.overloaded := by
  rcases s.finishTurn_cases cursor sequence with ⟨-, hf⟩ | ⟨-, -, hf⟩ | ⟨-, -, -, hf⟩ <;> rw [hf]
  · exact ⟨rfl, rfl, rfl, rfl⟩
  · exact recordTurn_same s cursor sequence
  · exact recordTurn_same s cursor sequence

theorem acknowledgeTurn_same {s s' : QueuePaneStream} {value : String} (h : s.acknowledgeTurn value = (s', none)) :
    s'.buffer = s.buffer ∧ s'.bufferBytes = s.bufferBytes ∧ s'.nextSequence = s.nextSequence ∧
      s'.overloaded = s.overloaded := by
  obtain ⟨_, _, -, ⟨-, -, -, rfl⟩ | ⟨-, _, _, _, -, -, rfl⟩ | ⟨-, -, -, -, rfl⟩⟩ :=
    QueuePaneStream.acknowledgeTurn_accepted h <;> exact ⟨rfl, rfl, rfl, rfl⟩

theorem queue_buffer_cases {q q' : QueueRun} {e : QueueEvent} (hs : queueMachine.step q e = some q') :
    BufferStep q q' := by
  cases e with
  | capacity =>
    simp only [queueMachine, QueueRun.capacity] at hs
    split at hs
    · cases hs; exact .same rfl rfl rfl rfl rfl
    · cases hs
  | agentText frame =>
    simp only [queueMachine, QueueRun.agentFrame] at hs
    split at hs
    · cases hs; exact .same rfl rfl rfl rfl rfl
    · cases hs
  | agentBinary payload =>
    simp only [queueMachine, QueueRun.agentFrame] at hs
    split at hs
    · cases hs; exact .same rfl rfl rfl rfl rfl
    · cases hs
  | readError err stderr selector size =>
    simp only [queueMachine, QueueRun.readError] at hs
    split at hs
    · split at hs <;> cases hs <;> exact .same rfl rfl rfl rfl rfl
    · cases hs
  | readerStep =>
    simp only [queueMachine, QueueRun.readerStep] at hs
    split at hs
    · cases hs
    · rename_i work rest hr
      cases hs
      exact .work work (Or.inl (by rw [hr]; exact List.mem_cons_self ..)) rfl rfl
  | brokerControl control size => cases hs; exact .same rfl rfl rfl rfl rfl
  | controlStep thread =>
    simp only [queueMachine, QueueRun.controlStep] at hs
    split at hs
    · cases hs
    · cases hs
    · rename_i work rest ht
      cases hs
      exact .work work (Or.inr ⟨_, List.mem_of_getElem? ht, List.mem_cons_self ..⟩) rfl rfl
  | acknowledgeTurn value =>
    simp only [queueMachine, Option.some.injEq] at hs
    subst hs
    unfold QueueRun.acknowledgeTurn
    split
    · exact .same rfl rfl rfl rfl rfl
    · rename_i s ha
      obtain ⟨hb, hn, hq, ho⟩ := acknowledgeTurn_same ha
      exact .same hb hn hq ho rfl
  | setPriority priority =>
    simp only [queueMachine, Option.some.injEq] at hs
    subst hs
    exact .same rfl rfl rfl rfl rfl
  | registered => cases hs; exact .same rfl rfl rfl rfl rfl
  | deactivate => cases hs; exact .deactivate rfl rfl
  | beginTurn =>
    simp only [queueMachine, QueueRun.beginTurn] at hs
    split at hs
    · cases hs
    · split at hs <;> cases hs <;> exact .same rfl rfl rfl rfl rfl
  | pop timeUp =>
    simp only [queueMachine, QueueRun.popTurn] at hs
    split at hs
    · split at hs
      · split at hs
        · cases hs; exact .same rfl rfl rfl rfl rfl
        · rename_i entry s hp
          cases hs
          obtain ⟨rest, hb, -, -, -, rfl⟩ := QueuePaneStream.popThrough_cases hp
          exact .pop entry rest hb rfl rfl
      · cases hs
    · cases hs
  | finishTurn =>
    simp only [queueMachine, QueueRun.finishTurn] at hs
    split at hs
    · rename_i t ht
      split at hs
      · obtain ⟨hb, hn, hq, ho⟩ := finishTurn_same q.stream t.turnCursor t.turnSequence
        split at hs <;> rename_i hf <;> cases hs <;> rw [hf] at hb hn hq ho <;> exact .same hb hn hq ho rfl
      · cases hs
    · cases hs
  | notify =>
    simp only [queueMachine, QueueRun.notify] at hs
    split at hs
    · cases hs; exact .same rfl rfl rfl rfl rfl
    · cases hs

theorem bufferOk_step {q q' : QueueRun} {e : QueueEvent} (h : BufferOk q.stream ∧ ShortReasons q)
    (hs : queueMachine.step q e = some q') : BufferOk q'.stream ∧ ShortReasons q' := by
  refine ⟨?_, h.2.step hs⟩
  cases queue_buffer_cases hs with
  | same hb hn hq => exact h.1.of_same hb hn hq
  | work work hw he =>
    rw [he]
    refine h.1.perform ?_
    rcases hw with hw | ⟨thread, ht, hw⟩
    · exact h.2.1 work hw
    · exact h.2.2 thread ht work hw
  | deactivate he => rw [he]; exact .deactivate _
  | pop entry rest hb he => rw [he]; exact h.1.pop hb

theorem run_bufferOk {flowControl : FlowControl} {limitBytes priority : Int} {es : List QueueEvent} {q : QueueRun}
    (h : queueMachine.run (.start flowControl limitBytes priority) es = some q) : BufferOk q.stream ∧ ShortReasons q :=
  Machine.run_inv queueMachine (fun _ _ _ hq hs => bufferOk_step hq hs) h
    ⟨⟨rfl, Nat.zero_le _, 0, rfl, rfl⟩, nofun, nofun⟩

/-! ## Giving up -/

/-- What a given-up stream may still send: `o`, and only once. -/
def LastWord (base : List QueueOutbound) (o : QueueOutbound) (q : QueueRun) : Prop :=
  q.stream.overloaded = true ∧
    ((q.popped = base ∧ (q.stream.buffer = [o] ∨ q.stream.buffer = [])) ∨
      (q.popped = base ++ [o] ∧ q.stream.buffer = []))

theorem perform_overloaded {s : QueuePaneStream} (h : s.overloaded = true) (work : QueueWork) :
    (s.perform work).1.buffer = s.buffer ∧ (s.perform work).1.overloaded = true := by
  rcases s.perform_cases work with ⟨_, _, _, _, hp⟩ | ⟨_, -, hh, -⟩ | ⟨_, -, hh, -⟩
  · rw [hp]; exact ⟨rfl, h⟩
  · rw [hh.2] at h; cases h
  · rw [hh.2] at h; cases h

theorem LastWord.step {base : List QueueOutbound} {o : QueueOutbound} {q q' : QueueRun} {e : QueueEvent}
    (h : LastWord base o q) (hs : queueMachine.step q e = some q') : LastWord base o q' := by
  obtain ⟨hover, hword⟩ := h
  cases queue_buffer_cases hs with
  | same hb _ _ ho hp => exact ⟨ho.trans hover, by rw [hb, hp]; exact hword⟩
  | work work _ he hp =>
    obtain ⟨hb, ho⟩ := perform_overloaded hover work
    rw [LastWord, he, hb, ho, hp]
    exact ⟨rfl, hword⟩
  | deactivate he hp =>
    rw [LastWord, he, hp]
    exact ⟨hover, hword.imp (fun h => ⟨h.1, Or.inr rfl⟩) (fun h => ⟨h.1, rfl⟩)⟩
  | pop entry rest hb he hp =>
    rw [LastWord, he, hp]
    refine ⟨hover, ?_⟩
    rw [hb] at hword
    rcases hword with ⟨hbase, hone | hnil⟩ | ⟨-, hnil⟩
    · cases hone
      exact Or.inr ⟨by rw [hbase], rfl⟩
    · cases hnil
    · cases hnil

/-- The step that gives a stream up leaves the one text, ready to be popped. -/
theorem overload_step {q q' : QueueRun} {e : QueueEvent} (hs : queueMachine.step q e = some q')
    (h : q.stream.overloaded = false) (h' : q'.stream.overloaded = true) :
    q'.popped = q.popped ∧ ∃ reason, q'.stream = q.stream.giveUp reason ∧ q.stream.active = true := by
  cases queue_buffer_cases hs with
  | same _ _ _ ho => rw [ho, h] at h'; cases h'
  | work work _ he hp =>
    refine ⟨hp, ?_⟩
    rcases q.stream.perform_cases work with ⟨_, _, _, _, hw⟩ | ⟨_, -, -, hw⟩ | ⟨reason, -, hh, hw⟩
    · rw [he, hw] at h'; exact absurd (h.symm.trans h') (by decide)
    · rw [he, hw] at h'; exact absurd (h.symm.trans h') (by decide)
    · rw [hw] at he; exact ⟨reason, he, hh.1⟩
  | deactivate he => rw [he] at h'; exact absurd (h.symm.trans h') (by decide)
  | pop entry rest _ he => rw [he] at h'; exact absurd (h.symm.trans h') (by decide)

theorem giveUp_poppable {s : QueuePaneStream} (h : s.active = true) (reason : String) :
    (s.giveUp reason).targetSequence = s.nextSequence + 1 ∧
      (s.giveUp reason).popThrough (s.nextSequence + 1) 0 =
        some (QueuePaneStream.overloadEntry reason (s.nextSequence + 1),
          (s.giveUp reason).pop (QueuePaneStream.overloadEntry reason (s.nextSequence + 1)) []) := by
  have hallows (o : QueuePaneStream) : o.windowAllows (QueuePaneStream.overloadEntry reason (s.nextSequence + 1)) = true := by
    simp [QueuePaneStream.windowAllows, QueuePaneStream.overloadEntry, QueueOutbound.isBinary]
  constructor
  · simp only [QueuePaneStream.giveUp, QueuePaneStream.targetSequence, hallows, h]
    simp [QueuePaneStream.overloadEntry]
  · simp only [QueuePaneStream.giveUp, QueuePaneStream.popThrough, hallows, h]
    simp [QueuePaneStream.overloadEntry]

/-! ## Turns -/

/-- Within the budget, or one entry with nothing of any cost before it. -/
def WithinTurn (entries : List QueueOutbound) : Prop :=
  totalCost entries ≤ terminalQueueRoundByteBudget ∨
    ∃ free big, entries = free ++ [big] ∧ ∀ o ∈ free, o.byteCost = 0

/-- The entries popped since `base`, in a turn that may still pop. -/
def TurnSpan (base : List QueueOutbound) (q : QueueRun) : Prop :=
  ∃ entries, q.popped = base ++ entries ∧ WithinTurn entries ∧
    ∀ t, q.turn = some t → t.phase = .popping →
      t.writtenBytes = totalCost entries ∧ totalCost entries < terminalQueueRoundByteBudget

theorem totalCost_eq_zero {entries : List QueueOutbound} (h : totalCost entries = 0) : ∀ o ∈ entries, o.byteCost = 0 := by
  intro o ho
  unfold totalCost at h
  exact List.sum_eq_zero_iff_forall_eq_nat.mp h _ (List.mem_map_of_mem ho)

theorem WithinTurn.snoc {s s' : QueuePaneStream} {target : Nat} {entries : List QueueOutbound} {entry : QueueOutbound}
    (hw : totalCost entries < terminalQueueRoundByteBudget)
    (hp : s.popThrough target (totalCost entries) = some (entry, s')) : WithinTurn (entries ++ [entry]) := by
  by_cases hz : totalCost entries = 0
  · exact Or.inr ⟨entries, entry, rfl, totalCost_eq_zero hz⟩
  · left
    unfold QueuePaneStream.popThrough at hp
    split at hp
    · cases hp
    · split at hp
      · cases hp
      · split at hp
        · cases hp
        · split at hp
          · cases hp
          · rename_i hbudget
            cases hp
            rw [totalCost_append, totalCost_cons, totalCost_nil]
            omega

theorem TurnSpan.pop {base : List QueueOutbound} {q q' : QueueRun} {timeUp : Bool} (h : TurnSpan base q)
    (hs : q.popTurn timeUp = some q') : TurnSpan base q' := by
  obtain ⟨entries, hpop, hwithin, hturn⟩ := h
  unfold QueueRun.popTurn at hs
  split at hs
  · rename_i t ht
    split at hs
    · rename_i hphase
      obtain ⟨hwritten, hlt⟩ := hturn t ht hphase
      split at hs
      · cases hs
        refine ⟨entries, hpop, hwithin, fun t' ht' hph => ?_⟩
        cases ht'
        cases hph
      · rename_i entry s hp
        cases hs
        rw [hwritten] at hp
        refine ⟨entries ++ [entry], by rw [hpop, List.append_assoc], .snoc hlt hp, fun t' ht' hph => ?_⟩
        cases ht'
        simp only [totalCost_append, totalCost_cons, totalCost_nil, hwritten] at hph ⊢
        split at hph
        · cases hph
        · omega
    · cases hs
  · cases hs

/-- Apart from starting a turn and popping, a step pops nothing and does not go back to popping. -/
theorem turn_step_cases {q q' : QueueRun} {e : QueueEvent} (hs : queueMachine.step q e = some q') :
    e = .beginTurn ∨ (∃ timeUp, e = .pop timeUp) ∨
      (q'.popped = q.popped ∧ ∀ t, q'.turn = some t → t.phase = .popping → q.turn = some t) := by
  cases e with
  | beginTurn => exact Or.inl rfl
  | pop timeUp => exact Or.inr (Or.inl ⟨timeUp, rfl⟩)
  | finishTurn =>
    refine Or.inr (Or.inr ?_)
    simp only [queueMachine, QueueRun.finishTurn] at hs
    split at hs
    · split at hs
      · split at hs <;> cases hs
        · exact ⟨rfl, fun t ht => by cases ht⟩
        · refine ⟨rfl, fun t ht hp => ?_⟩
          cases ht
          cases hp
      · cases hs
    · cases hs
  | notify =>
    refine Or.inr (Or.inr ?_)
    simp only [queueMachine, QueueRun.notify] at hs
    split at hs
    · cases hs; exact ⟨rfl, fun t ht => by cases ht⟩
    · cases hs
  | acknowledgeTurn value =>
    refine Or.inr (Or.inr ?_)
    simp only [queueMachine, Option.some.injEq] at hs
    subst hs
    unfold QueueRun.acknowledgeTurn
    split <;> exact ⟨rfl, fun t ht _ => ht⟩
  | capacity =>
    simp only [queueMachine, QueueRun.capacity] at hs
    split at hs <;> cases hs
    exact Or.inr (Or.inr ⟨rfl, fun t ht _ => ht⟩)
  | agentText frame =>
    simp only [queueMachine, QueueRun.agentFrame] at hs
    split at hs <;> cases hs
    exact Or.inr (Or.inr ⟨rfl, fun t ht _ => ht⟩)
  | agentBinary payload =>
    simp only [queueMachine, QueueRun.agentFrame] at hs
    split at hs <;> cases hs
    exact Or.inr (Or.inr ⟨rfl, fun t ht _ => ht⟩)
  | readError err stderr selector size =>
    simp only [queueMachine, QueueRun.readError] at hs
    split at hs
    · split at hs <;> cases hs <;> exact Or.inr (Or.inr ⟨rfl, fun t ht _ => ht⟩)
    · cases hs
  | readerStep =>
    simp only [queueMachine, QueueRun.readerStep] at hs
    split at hs <;> cases hs
    exact Or.inr (Or.inr ⟨rfl, fun t ht _ => ht⟩)
  | brokerControl control size => cases hs; exact Or.inr (Or.inr ⟨rfl, fun t ht _ => ht⟩)
  | controlStep thread =>
    simp only [queueMachine, QueueRun.controlStep] at hs
    split at hs <;> cases hs
    exact Or.inr (Or.inr ⟨rfl, fun t ht _ => ht⟩)
  | setPriority priority =>
    simp only [queueMachine, Option.some.injEq] at hs
    subst hs
    exact Or.inr (Or.inr ⟨rfl, fun t ht _ => ht⟩)
  | registered => cases hs; exact Or.inr (Or.inr ⟨rfl, fun t ht _ => ht⟩)
  | deactivate => cases hs; exact Or.inr (Or.inr ⟨rfl, fun t ht _ => ht⟩)

theorem TurnSpan.step {base : List QueueOutbound} {q q' : QueueRun} {e : QueueEvent} (h : TurnSpan base q)
    (he : e ≠ .beginTurn) (hs : queueMachine.step q e = some q') : TurnSpan base q' := by
  rcases turn_step_cases hs with hb | ⟨timeUp, rfl⟩ | ⟨hp, ht⟩
  · exact absurd hb he
  · exact h.pop hs
  · obtain ⟨entries, hpop, hwithin, hturn⟩ := h
    exact ⟨entries, hp.trans hpop, hwithin, fun t h' hph => hturn t (ht t h' hph) hph⟩

theorem beginTurn_span {q q' : QueueRun} (hs : queueMachine.step q .beginTurn = some q') : TurnSpan q.popped q' := by
  have hwithin : WithinTurn [] := Or.inl (Nat.zero_le _)
  simp only [queueMachine, QueueRun.beginTurn] at hs
  split at hs
  · cases hs
  · rename_i hnone
    split at hs
    · cases hs
      exact ⟨[], by simp, hwithin, fun t ht => by rw [hnone] at ht; cases ht⟩
    · cases hs
      refine ⟨[], by simp, hwithin, fun t ht _ => ?_⟩
      cases ht
      exact ⟨rfl, by decide⟩

/-- What a turn pops, up to the next one. -/
theorem turn_within {q q₁ q₂ : QueueRun} {es : List QueueEvent} (hb : queueMachine.step q .beginTurn = some q₁)
    (hes : ∀ e ∈ es, e ≠ .beginTurn) (hr : queueMachine.run q₁ es = some q₂) :
    ∃ entries, q₂.popped = q.popped ++ entries ∧ WithinTurn entries := by
  have hspan := Machine.run_inv_along queueMachine (P := fun _ e => e ≠ .beginTurn)
    (fun _ _ _ hq he hs => TurnSpan.step hq he hs) hr (queueMachine.along_of_forall hes q₁) (beginTurn_span hb)
  obtain ⟨entries, hpop, hwithin, -⟩ := hspan
  exact ⟨entries, hpop, hwithin⟩

/-- In every state of every run: the buffer's count, limit and order, what a turn pops, and what is left to an overload. -/
theorem queueStream_bounded {flowControl : FlowControl} {limitBytes priority : Int} {es : List QueueEvent} {q : QueueRun}
    (h : queueMachine.run (.start flowControl limitBytes priority) es = some q) :
    (q.stream.bufferBytes = totalCost q.stream.buffer ∧ q.stream.bufferBytes ≤ terminalQueuePaneBufferLimit) ∧
      Consecutive q.stream ∧
      (∀ target written entry s', q.stream.popThrough target written = some (entry, s') →
        entry.byteCost ≤ q.stream.bufferBytes) ∧
      (∀ q₁ q₂ es', queueMachine.step q .beginTurn = some q₁ → (∀ e ∈ es', e ≠ .beginTurn) →
        queueMachine.run q₁ es' = some q₂ → ∃ entries, q₂.popped = q.popped ++ entries ∧ WithinTurn entries) ∧
      ∀ e q₁, queueMachine.step q e = some q₁ → q.stream.overloaded = false → q₁.stream.overloaded = true →
        ∃ reason s', q₁.popped = q.popped ∧
          q₁.stream.popThrough q₁.stream.targetSequence 0 =
            some (QueuePaneStream.overloadEntry reason q₁.stream.nextSequence, s') ∧
          ∀ es' q₂, queueMachine.run q₁ es' = some q₂ → q₂.popped = q.popped ∨
            q₂.popped = q.popped ++ [QueuePaneStream.overloadEntry reason q₁.stream.nextSequence] := by
  obtain ⟨hok, -⟩ := run_bufferOk h
  refine ⟨⟨hok.counted, hok.limit⟩, hok.consecutive, ?_, fun _ _ _ hb hes hr => turn_within hb hes hr, ?_⟩
  · intro target written entry s' hp
    obtain ⟨rest, hb, -⟩ := QueuePaneStream.popThrough_cases hp
    exact hok.head_le hb
  · intro e q₁ hs hbefore hafter
    obtain ⟨hp, reason, hgive, hactive⟩ := overload_step hs hbefore hafter
    obtain ⟨htarget, hpoppable⟩ := giveUp_poppable hactive reason
    refine ⟨reason, _, hp, by rw [hgive, htarget]; exact hpoppable, fun es' q₂ hr => ?_⟩
    have hstart : LastWord q.popped (QueuePaneStream.overloadEntry reason q₁.stream.nextSequence) q₁ :=
      ⟨hafter, Or.inl ⟨hp, Or.inl (by rw [hgive]; rfl)⟩⟩
    obtain ⟨-, hword⟩ := Machine.run_inv queueMachine (fun _ _ _ hq hs => LastWord.step hq hs) hr hstart
    exact hword.imp (fun hw => hw.1) (fun hw => hw.1)

/-- The frames of an empty text and of a large one. -/
def freeThenLarge : List QueueEvent :=
  [.capacity, .agentText { message := none, size := 0 }, .readerStep, .readerStep, .readerStep,
    .capacity, .agentText { message := some [], size := 600000 }, .readerStep, .readerStep, .readerStep]

theorem freeThenLarge_turn : ∃ q q₁ q₂ : QueueRun, queueMachine.run (.start .none 0 0) freeThenLarge = some q ∧
    queueMachine.step q .beginTurn = some q₁ ∧ queueMachine.run q₁ [.pop false, .pop false] = some q₂ ∧
    q.popped = [] ∧ q₂.popped.map QueueOutbound.byteCost = [0, 600000] :=
  ⟨_, _, _, rfl, rfl, rfl, rfl, rfl⟩

theorem queueStream_bounded_freeThenLarge : ∃ (q q₂ : QueueRun) (entries : List QueueOutbound),
    queueMachine.run (.start .none 0 0) freeThenLarge = some q ∧ q.stream.bufferBytes = totalCost q.stream.buffer ∧
      q₂.popped = q.popped ++ entries ∧ WithinTurn entries ∧ totalCost entries = 600000 := by
  obtain ⟨q, q₁, q₂, hr, hb, hpops, hnil, hcosts⟩ := freeThenLarge_turn
  obtain ⟨⟨hcounted, -⟩, -, -, hturn, -⟩ := queueStream_bounded hr
  obtain ⟨entries, hp, hw⟩ := hturn q₁ q₂ _ hb (by simp) hpops
  refine ⟨q, q₂, entries, hr, hcounted, hp, hw, ?_⟩
  rw [hp, hnil, List.nil_append] at hcosts
  rw [totalCost, hcosts]; rfl

/-- An entry that costs nothing goes before an over-sized one in the same turn. -/
theorem turn_not_one_entry : ¬ ∀ (flowControl : FlowControl) (limitBytes priority : Int) (es : List QueueEvent) (q : QueueRun),
    queueMachine.run (.start flowControl limitBytes priority) es = some q →
      ∀ q₁ q₂ es', queueMachine.step q .beginTurn = some q₁ → (∀ e ∈ es', e ≠ .beginTurn) →
        queueMachine.run q₁ es' = some q₂ → ∃ entries, q₂.popped = q.popped ++ entries ∧
          (totalCost entries ≤ terminalQueueRoundByteBudget ∨ entries.length = 1) := by
  intro h
  obtain ⟨q, q₁, q₂, hr, hb, hpops, hnil, hcosts⟩ := freeThenLarge_turn
  obtain ⟨entries, hp, hw⟩ := h .none 0 0 freeThenLarge q hr q₁ q₂ _ hb (by simp) hpops
  rw [hp, hnil, List.nil_append] at hcosts
  rcases hw with hw | hw
  · rw [totalCost, hcosts] at hw
    exact absurd hw (by decide)
  · have hlen := congrArg List.length hcosts
    rw [List.length_map, hw] at hlen
    cases hlen

end Webshell
