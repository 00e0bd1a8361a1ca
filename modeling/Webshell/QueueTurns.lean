import Webshell.QueueFlow

/-!
# The turns a client is told of

A boundary is the end of the last binary entry that was popped. The window holds
at most 256 of them, and one more for every replay that was let through whole.
-/

namespace Webshell

/-- Cursor and number of the last binary entry. -/
def lastBinary (popped : List QueueOutbound) : Option (Nat × Nat) :=
  (binaries popped).getLast?.map fun o => (o.endCursor, o.binarySequence)

def bursts (entries : List QueueOutbound) : Nat := entries.countP QueueOutbound.replayBurstStart

theorem lastBinary_binary (popped : List QueueOutbound) {o : QueueOutbound} (h : o.isBinary = true) :
    lastBinary (popped ++ [o]) = some (o.endCursor, o.binarySequence) := by
  simp [lastBinary, binaries, h]

theorem lastBinary_text (popped : List QueueOutbound) {o : QueueOutbound} (h : o.isBinary = false) :
    lastBinary (popped ++ [o]) = lastBinary popped := by
  simp [lastBinary, binaries, h]

/-! ## Where a boundary comes from -/

structure TurnBook (s : QueuePaneStream) (popped : List QueueOutbound) (turn : Option Turn) : Prop where
  pending : s.Healthy → s.pendingTurnSequence ≠ 0 → unrecorded turn = 0 →
    lastBinary popped = some (s.pendingTurnCursor, s.pendingTurnSequence)
  current : ∀ t, turn = some t → unrecorded turn ≠ 0 → lastBinary popped = some (t.turnCursor, t.turnSequence)
  told : ∀ boundary, notifying turn = some boundary → lastBinary popped = some boundary
  few : s.window.boundaries.length ≤ terminalQueueWindowTurns + bursts popped
  /-- There is room for the boundary that is to come. -/
  room : unrecorded turn ≠ 0 ∨ s.pendingTurnSequence ≠ 0 ∨ s.replayBurstActive = true →
    s.window.boundaries.length < terminalQueueWindowTurns + bursts popped

theorem turns_pos (n : Nat) : 0 < terminalQueueWindowTurns + n := Nat.add_pos_left (by decide) n

theorem start_turnBook (flowControl : FlowControl) (limitBytes priority : Int) :
    TurnBook (.start flowControl limitBytes priority) [] none where
  pending _ h := absurd rfl h
  current _ h := by cases h
  told _ h := by cases h
  few := Nat.zero_le _
  room _ := turns_pos 0

namespace TurnBook

variable {s : QueuePaneStream} {popped : List QueueOutbound} {turn : Option Turn}

theorem perform (h : TurnBook s popped turn) (work : QueueWork) : TurnBook (s.perform work).1 popped turn := by
  rcases s.perform_cases work with ⟨_, _, _, _, hp⟩ | ⟨entry, -, -, hp⟩ | ⟨reason, -, -, hp⟩
  · rw [hp]
    exact { h with }
  · rw [hp]
    exact { h with }
  · rw [hp]
    exact { h with
      pending := fun hh => absurd hh.2 (by simp [QueuePaneStream.giveUp])
      few := Nat.zero_le _
      room := fun _ => turns_pos _ }

theorem acknowledge (h : TurnBook s popped turn) {s' : QueuePaneStream} {value : String}
    (ha : s.acknowledgeTurn value = (s', none)) : TurnBook s' popped turn := by
  obtain ⟨cursor, sequence, -, hcases⟩ := QueuePaneStream.acknowledgeTurn_accepted ha
  rcases hcases with ⟨-, -, -, rfl⟩ | ⟨-, before, b, after, hb, -, rfl⟩ | ⟨-, -, -, -, rfl⟩
  · exact h
  · have hle : after.length ≤ s.window.boundaries.length := by
      rw [hb, List.length_append, List.length_cons]
      omega
    exact { h with few := Nat.le_trans hle h.few, room := fun hr => Nat.lt_of_le_of_lt hle (h.room hr) }
  · exact { h with }

theorem deactivate (h : TurnBook s popped turn) : TurnBook s.deactivate popped turn :=
  { h with pending := fun hh => absurd hh.1 (by simp [QueuePaneStream.deactivate]) }

theorem begin (h : TurnBook s popped none) (target : Nat) : TurnBook s popped (some { target := target }) :=
  { h with
    current := fun t ht hu => absurd rfl hu
    told := fun boundary hb => by cases hb }

theorem stopPopping {t : Turn} (h : TurnBook s popped (some t)) (ht : t.Open) :
    TurnBook s popped (some { t with phase := .finishing }) := by
  have hu := ht.unrecorded
  refine ⟨fun hh hp hz => h.pending hh hp (hu.trans hz), fun t' he hz => ?_, fun boundary hb => (by cases hb), h.few, ?_⟩
  · cases he
    exact h.current t rfl (by rw [hu]; exact hz)
  · have hroom := h.room
    rw [hu] at hroom
    exact hroom

theorem bursts_pop (popped : List QueueOutbound) (entry : QueueOutbound) :
    bursts (popped ++ [entry]) = bursts popped + if entry.replayBurstStart then 1 else 0 := by
  unfold bursts
  rw [List.countP_append, List.countP_singleton]

theorem pop {t t' : Turn} {entry : QueueOutbound} {rest : List QueueOutbound} (h : TurnBook s popped (some t))
    (hw : s.usesWindow = true) (hallows : s.windowAllows entry = true) (ht : t.Open) (ht' : t'.Open)
    (hcursor : t'.turnCursor = if entry.isBinary then entry.endCursor else t.turnCursor)
    (hturn : t'.turnSequence = if entry.isBinary then entry.binarySequence else t.turnSequence)
    (hbin : entry.isBinary = true → entry.binarySequence ≠ 0) :
    TurnBook (s.pop entry rest) (popped ++ [entry]) (some t') := by
  have hboundaries : (s.pop entry rest).window.boundaries = s.window.boundaries := by
    unfold QueuePaneStream.pop
    simp only
    split <;> rfl
  have hburst := bursts_pop popped entry
  have hfew := h.few
  have hroom := h.room
  rw [ht.unrecorded] at hroom
  have hopen : entry.isBinary = true → s.replayBurstActive = false → s.window.boundaries.length < terminalQueueWindowTurns := by
    intro hb hr
    unfold QueuePaneStream.windowAllows at hallows
    simp only [hw, hr, hb, Bool.not_true, Bool.or_self, Bool.false_eq_true, if_false, Bool.and_eq_true,
      decide_eq_true_eq] at hallows
    exact hallows.1
  cases hb : entry.isBinary with
  | true =>
    rw [hb, if_pos rfl] at hcursor hturn
    have hlast := lastBinary_binary popped hb
    refine ⟨fun _ _ hz => ?_, fun t₁ he _ => ?_, fun boundary hn => ?_, ?_, fun _ => ?_⟩
    · rw [ht'.unrecorded, hturn] at hz
      exact absurd hz (hbin hb)
    · cases he
      rw [hlast, hcursor, hturn]
    · rw [ht'.notifying] at hn
      cases hn
    · rw [hboundaries, hburst]
      omega
    · rw [hboundaries, hburst]
      cases hr : s.replayBurstActive with
      | true =>
        have := hroom (.inr (.inr hr))
        omega
      | false =>
        have := hopen hb hr
        omega
  | false =>
    rw [hb] at hcursor hturn
    simp only [Bool.false_eq_true, if_false] at hcursor hturn
    have hlast := lastBinary_text popped hb
    refine ⟨fun hh hp hz => ?_, fun t₁ he hz => ?_, fun boundary hn => ?_, ?_, fun hr => ?_⟩
    · rw [ht'.unrecorded, hturn] at hz
      rw [hlast]
      exact h.pending hh hp (by rw [ht.unrecorded]; exact hz)
    · cases he
      rw [ht'.unrecorded, hturn] at hz
      rw [hlast, hcursor, hturn]
      exact h.current t rfl (by rw [ht.unrecorded]; exact hz)
    · rw [ht'.notifying] at hn
      cases hn
    · rw [hboundaries, hburst]
      omega
    · rw [hboundaries, hburst]
      rw [ht'.unrecorded, hturn] at hr
      cases hs : entry.replayBurstStart with
      | true =>
        simp only [if_true]
        omega
      | false =>
        simp only [QueuePaneStream.pop, hs, Bool.false_or, Bool.and_eq_true] at hr
        have := hroom (hr.imp_right (Or.imp_right And.right))
        omega

/-- The end of a turn is recorded. -/
theorem record {t : Turn} (h : TurnBook s popped (some t)) (ht : t.Open) (hh : s.Healthy) :
    TurnBook (s.recordTurn t.turnCursor t.turnSequence) popped none := by
  have hroom := h.room
  rw [ht.unrecorded] at hroom
  unfold QueuePaneStream.recordTurn
  by_cases hz : t.turnSequence = 0
  · rw [if_neg (by simp [hz])]
    exact { h with
      pending := fun _ hp _ => h.pending hh hp (ht.unrecorded.trans hz)
      current := fun t' ht' => (by cases ht')
      told := fun boundary hb => (by cases hb)
      room := fun hr => hroom (.inr (hr.resolve_left (absurd rfl))) }
  · rw [if_pos hz]
    exact { h with
      pending := fun _ _ _ => h.current t rfl (by rw [ht.unrecorded]; exact hz)
      current := fun t' ht' => (by cases ht')
      told := fun boundary hb => (by cases hb)
      room := fun _ => hroom (.inl hz) }

theorem close (h : TurnBook s popped none) (hh : s.Healthy) (hb : s.replayBurstActive = false)
    (hp : s.pendingTurnSequence ≠ 0) {t : Turn} :
    TurnBook s.closeTurn popped
      (some { t with phase := .notifying (s.pendingTurnCursor, s.pendingTurnSequence) }) := by
  have hlength : s.closeTurn.window.boundaries.length ≤ s.window.boundaries.length + 1 := by
    unfold QueuePaneStream.closeTurn
    simp only
    split
    · simp
    · exact Nat.le_succ _
  have hroom := h.room (.inr (.inl hp))
  refine ⟨fun _ hz => absurd rfl hz, fun _ _ hz => absurd rfl hz, fun boundary hn => ?_, by omega, fun hr => ?_⟩
  · cases hn
    exact h.pending hh hp rfl
  · rcases hr with hr | hr | hr
    · exact absurd rfl hr
    · exact absurd rfl hr
    · exact absurd (hb.symm.trans hr) (by decide)

theorem finish {t : Turn} (h : TurnBook s popped (some t)) (ht : t.Open) {s' : QueuePaneStream}
    {told : Option (Nat × Nat)} (hf : s.finishTurn t.turnCursor t.turnSequence = (s', told)) :
    TurnBook s' popped (told.map fun boundary => { t with phase := .notifying boundary }) := by
  rcases s.finishTurn_cases t.turnCursor t.turnSequence with ⟨hh, he⟩ | ⟨hh, -, he⟩ | ⟨hh, hb, hp, he⟩
  · rw [he] at hf
    cases hf
    have hroom := h.room
    rw [ht.unrecorded] at hroom
    exact { h with
      pending := fun hh' => absurd hh' hh
      current := fun t' ht' => (by cases ht')
      told := fun boundary hb => (by cases hb)
      room := fun hr => hroom (.inr (hr.resolve_left (absurd rfl))) }
  · rw [he] at hf
    cases hf
    exact h.record ht hh
  · rw [he] at hf
    cases hf
    have hhealthy : (s.recordTurn t.turnCursor t.turnSequence).Healthy := by
      unfold QueuePaneStream.recordTurn
      split <;> exact hh
    exact (h.record ht hh).close hhealthy hb hp

theorem notify {t : Turn} {boundary : Nat × Nat} (h : TurnBook s popped (some t)) (ht : t.phase = .notifying boundary) :
    TurnBook s popped none := by
  have hu : unrecorded (some t) = 0 := by simp [unrecorded, ht]
  have hroom := h.room
  rw [hu] at hroom
  exact { h with
    pending := fun hh hp _ => h.pending hh hp hu
    current := fun t' ht' => (by cases ht')
    told := fun boundary hb => (by cases hb)
    room := hroom }

end TurnBook

/-! ## Runs -/

structure TurnInv (q : QueueRun) : Prop where
  stream : StreamInv .window q
  book : TurnBook q.stream q.popped q.turn

namespace TurnInv

variable {q q' : QueueRun}

theorem usesWindow (h : TurnInv q) : q.stream.usesWindow = true := by
  simp [QueuePaneStream.usesWindow, h.stream.flow.mode.1]

theorem popTurn (h : TurnInv q) {timeUp : Bool} (hs : q.popTurn timeUp = some q') :
    TurnBook q'.stream q'.popped q'.turn := by
  have hbook := h.book
  unfold QueueRun.popTurn at hs
  split at hs
  · rename_i t ht
    rw [ht] at hbook
    split at hs
    · rename_i hphase
      have hopen : t.Open := .inl hphase
      split at hs
      · cases hs
        exact hbook.stopPopping hopen
      · rename_i entry s hp
        cases hs
        obtain ⟨rest, hb, -, -, hallows, rfl⟩ := QueuePaneStream.popThrough_cases hp
        refine hbook.pop h.usesWindow hallows hopen ?_ ?_ ?_ fun he => ?_
        · unfold Turn.Open
          simp only
          split
          · exact .inr rfl
          · exact .inl rfl
        · cases entry.isBinary <;> rfl
        · cases entry.isBinary <;> rfl
        · rw [(h.stream.wire.head hb he).2.2]
          exact Nat.succ_ne_zero _
    · cases hs
  · cases hs

theorem step (h : TurnInv q) {e : QueueEvent} (hs : queueMachine.step q e = some q') : TurnInv q' := by
  refine ⟨h.stream.step hs, ?_⟩
  have hbook := h.book
  cases e with
  | capacity =>
    simp only [queueMachine, QueueRun.capacity] at hs
    split at hs
    · cases hs; exact hbook
    · cases hs
  | agentText frame =>
    simp only [queueMachine, QueueRun.agentFrame] at hs
    split at hs
    · cases hs; exact hbook
    · cases hs
  | agentBinary payload =>
    simp only [queueMachine, QueueRun.agentFrame] at hs
    split at hs
    · cases hs; exact hbook
    · cases hs
  | readError err stderr selector size =>
    simp only [queueMachine, QueueRun.readError] at hs
    split at hs
    · split at hs <;> cases hs <;> exact hbook
    · cases hs
  | readerStep =>
    simp only [queueMachine, QueueRun.readerStep] at hs
    split at hs
    · cases hs
    · cases hs; exact hbook.perform _
  | brokerControl control size => cases hs; exact hbook
  | controlStep thread =>
    simp only [queueMachine, QueueRun.controlStep] at hs
    split at hs
    · cases hs
    · cases hs
    · cases hs; exact hbook.perform _
  | acknowledgeTurn value =>
    simp only [queueMachine, Option.some.injEq] at hs
    subst hs
    unfold QueueRun.acknowledgeTurn
    split
    · exact hbook
    · rename_i s ha
      exact hbook.acknowledge ha
  | setPriority priority =>
    simp only [queueMachine, Option.some.injEq] at hs
    subst hs
    exact { hbook with }
  | registered => cases hs; exact hbook
  | deactivate => cases hs; exact hbook.deactivate
  | beginTurn =>
    simp only [queueMachine, QueueRun.beginTurn] at hs
    split at hs
    · cases hs
    · rename_i ht
      rw [ht] at hbook
      split at hs
      · cases hs; rw [ht]; exact hbook
      · cases hs; exact hbook.begin _
  | pop timeUp => exact h.popTurn hs
  | finishTurn =>
    simp only [queueMachine, QueueRun.finishTurn] at hs
    split at hs
    · rename_i t ht
      rw [ht] at hbook
      split at hs
      · rename_i hphase
        split at hs
        · rename_i s hf
          cases hs; exact hbook.finish (.inr hphase) hf
        · rename_i s boundary hf
          cases hs; exact hbook.finish (.inr hphase) hf
      · cases hs
    · cases hs
  | notify =>
    simp only [queueMachine, QueueRun.notify] at hs
    split at hs
    · rename_i ht
      rw [ht] at hbook
      cases hs; exact hbook.notify rfl
    · cases hs

end TurnInv

/-! ## Replays that are let through whole -/

def TextFrame.startsReplay (frame : TextFrame) : Bool :=
  frame.message.any fun message => message.text "type" = "history-replay-start"

def QueueWork.bursts : QueueWork → Nat
  | .enqueueText frame => if frame.startsReplay then 1 else 0
  | .enqueue entry => if entry.replayBurstStart then 1 else 0
  | _ => 0

def workBursts (works : List QueueWork) : Nat := (works.map QueueWork.bursts).sum

/-- The replays let through whole so far, and those that may still be. -/
def QueueRun.bursts (q : QueueRun) : Nat :=
  Webshell.bursts q.popped + Webshell.bursts q.stream.buffer + workBursts q.reader + (q.controls.map workBursts).sum

/-- The agent starts a replay. -/
def QueueEvent.startsReplay : QueueEvent → Bool
  | .agentText frame => frame.startsReplay
  | _ => false

theorem enqueueText_bursts (s : QueuePaneStream) (frame : TextFrame) :
    workBursts (s.enqueueText frame).2 ≤ (QueueWork.enqueueText frame).bursts := by
  have hwork : (QueueWork.enqueueText frame).bursts = if frame.startsReplay then 1 else 0 := rfl
  rw [hwork]
  unfold QueuePaneStream.enqueueText TextFrame.startsReplay
  cases hm : frame.message with
  | none => exact Nat.zero_le _
  | some message =>
    simp only [Option.any_some, decide_eq_true_eq]
    by_cases hstart : message.text "type" = "history-replay-start"
    · simp only [hstart, if_true]
      cases frame.encoded with
      | none => exact Nat.zero_le 1
      | some encoded =>
        simp only
        split
        · exact Nat.le_refl 1
        · exact Nat.zero_le 1
    · simp only [hstart, if_false]
      split
      · split <;> exact Nat.le_refl 0
      · split
        · exact Nat.le_refl 0
        · split <;> exact Nat.le_refl 0

theorem perform_bursts (s : QueuePaneStream) (work : QueueWork) :
    bursts (s.perform work).1.buffer + workBursts (s.perform work).2 ≤ bursts s.buffer + work.bursts := by
  cases work with
  | enqueueText frame =>
    obtain ⟨_, _, _, hs⟩ := s.enqueueText_same frame
    have hwork := enqueueText_bursts s frame
    simp only [QueuePaneStream.perform, hs]
    omega
  | enqueueBinary payload =>
    simp only [QueuePaneStream.perform, QueuePaneStream.enqueueBinary]
    split
    · exact Nat.le_refl _
    · split
      · exact Nat.le_refl _
      · split <;> exact Nat.le_refl _
  | enqueueChunks start rest =>
    simp only [QueuePaneStream.perform, QueuePaneStream.enqueueChunks]
    split <;> exact Nat.le_refl _
  | enqueue entry =>
    simp only [QueuePaneStream.perform, QueuePaneStream.enqueue]
    split
    · exact Nat.le_add_right _ _
    · split
      · exact Nat.le_add_right _ _
      · simp only [QueuePaneStream.push]
        rw [bursts, List.countP_append, List.countP_singleton]
        exact Nat.le_refl _
  | overload reason =>
    simp only [QueuePaneStream.perform, QueuePaneStream.overload]
    split
    · exact Nat.le_refl _
    · exact Nat.zero_le _
  | signalWriter => exact Nat.le_refl _

theorem sum_controls_set (f : List QueueWork → Nat) {controls : List (List QueueWork)} {thread : Nat} {old : List QueueWork}
    (h : controls[thread]? = some old) (new : List QueueWork) :
    ((controls.set thread new).map f).sum + f old = (controls.map f).sum + f new := by
  obtain ⟨hlt, hold⟩ := List.getElem?_eq_some_iff.mp h
  rw [List.set_eq_take_append_cons_drop, if_pos hlt]
  have hsplit : controls = controls.take thread ++ old :: controls.drop (thread + 1) := by
    rw [← hold, ← List.drop_eq_getElem_cons hlt, List.take_append_drop]
  conv => rhs; rw [hsplit]
  simp only [List.map_append, List.map_cons, List.sum_append, List.sum_cons]
  omega

theorem workBursts_append (works more : List QueueWork) : workBursts (works ++ more) = workBursts works + workBursts more := by
  unfold workBursts
  rw [List.map_append, List.sum_append]

theorem controls_append (controls : List (List QueueWork)) (works : List QueueWork) :
    ((controls ++ [works]).map workBursts).sum = (controls.map workBursts).sum + workBursts works := by
  simp

/-- Only a frame of the agent starts a replay. -/
theorem step_bursts {q q' : QueueRun} {e : QueueEvent} (hs : queueMachine.step q e = some q') :
    q'.bursts ≤ q.bursts + if e.startsReplay then 1 else 0 := by
  cases e with
  | capacity =>
    simp only [queueMachine, QueueRun.capacity] at hs
    split at hs
    · cases hs; exact Nat.le_refl _
    · cases hs
  | agentText frame =>
    simp only [queueMachine, QueueRun.agentFrame] at hs
    split at hs
    · rename_i hr
      cases hs
      unfold QueueRun.bursts QueueEvent.startsReplay
      rw [hr.1]
      cases hf : frame.startsReplay <;> simp [workBursts, QueueWork.bursts, hf]
      omega
    · cases hs
  | agentBinary payload =>
    simp only [queueMachine, QueueRun.agentFrame] at hs
    split at hs
    · rename_i hr
      cases hs
      simp only [QueueRun.bursts, hr.1]
      exact Nat.le_refl _
    · cases hs
  | readError err stderr selector size =>
    simp only [queueMachine, QueueRun.readError] at hs
    split at hs
    · rename_i hr
      split at hs
      · cases hs; exact Nat.le_refl _
      · rename_i message hm
        cases hs
        have htype : message.text "type" ≠ "history-replay-start" := by
          have herror (text : String) : (AgentConnectionErrorPayload text).text "type" ≠ "history-replay-start" := by
            show GoText.trimSpace "connection-error" ≠ _
            decide
          unfold QueueRun.readErrorText at hm
          split at hm
          · split at hm
            · cases hm
              show GoText.trimSpace "workspace-refresh-required" ≠ _
              decide
            · split at hm
              · cases hm; exact herror _
              · cases hm
          · split at hm
            · cases hm; exact herror _
            · cases hm
        unfold QueueRun.bursts
        rw [hr.1]
        simp [workBursts, QueueWork.bursts, TextFrame.startsReplay, htype]
    · cases hs
  | readerStep =>
    simp only [queueMachine, QueueRun.readerStep] at hs
    split at hs
    · cases hs
    · rename_i work rest hr
      cases hs
      have hwork := perform_bursts q.stream work
      simp only [QueueRun.bursts, hr, workBursts_append]
      simp only [workBursts, List.map_cons, List.sum_cons] at hwork ⊢
      omega
  | brokerControl control size =>
    cases hs
    have hzero : workBursts [.enqueueText (control.frame size)] = 0 := by cases control <;> rfl
    simp only [QueueRun.bursts, controls_append, hzero]
    exact Nat.le_refl _
  | controlStep thread =>
    simp only [queueMachine, QueueRun.controlStep] at hs
    split at hs
    · cases hs
    · cases hs
    · rename_i work rest hc
      cases hs
      have hwork := perform_bursts q.stream work
      have hset := sum_controls_set workBursts hc ((q.stream.perform work).2 ++ rest)
      rw [workBursts_append] at hset
      simp only [QueueRun.bursts]
      have hcons : workBursts (work :: rest) = work.bursts + workBursts rest := rfl
      omega
  | acknowledgeTurn value =>
    simp only [queueMachine, Option.some.injEq] at hs
    subst hs
    unfold QueueRun.acknowledgeTurn
    split
    · exact Nat.le_refl _
    · rename_i s ha
      have hbuffer : s.buffer = q.stream.buffer := by
        obtain ⟨cursor, sequence, -, hcases⟩ := QueuePaneStream.acknowledgeTurn_accepted ha
        rcases hcases with ⟨-, -, -, rfl⟩ | ⟨-, before, b, after, -, -, rfl⟩ | ⟨-, -, -, -, rfl⟩ <;> rfl
      simp only [QueueRun.bursts, controls_append, hbuffer]
      exact Nat.le_refl _
  | setPriority priority =>
    simp only [queueMachine, Option.some.injEq] at hs
    subst hs
    simp only [QueueRun.bursts, controls_append]
    exact Nat.le_refl _
  | registered =>
    cases hs
    simp only [QueueRun.bursts, controls_append]
    exact Nat.le_refl _
  | deactivate =>
    cases hs
    simp only [QueueRun.bursts, QueuePaneStream.deactivate]
    have : bursts [] = 0 := rfl
    omega
  | beginTurn =>
    simp only [queueMachine, QueueRun.beginTurn] at hs
    split at hs
    · cases hs
    · split at hs <;> cases hs <;> exact Nat.le_refl _
  | pop timeUp =>
    simp only [queueMachine, QueueRun.popTurn] at hs
    split at hs
    · split at hs
      · split at hs
        · cases hs; exact Nat.le_refl _
        · rename_i entry s hp
          cases hs
          obtain ⟨rest, hb, -, -, -, rfl⟩ := QueuePaneStream.popThrough_cases hp
          simp only [QueueRun.bursts, bursts, hb, QueuePaneStream.pop, List.countP_append, List.countP_cons, List.countP_nil]
          omega
      · cases hs
    · cases hs
  | finishTurn =>
    simp only [queueMachine, QueueRun.finishTurn] at hs
    split at hs
    · rename_i t ht
      split at hs
      · have hbuffer : (q.stream.finishTurn t.turnCursor t.turnSequence).1.buffer = q.stream.buffer := by
          unfold QueuePaneStream.finishTurn QueuePaneStream.recordTurn
          simp only
          split
          · rfl
          · split
            · split <;> rfl
            · split <;> rfl
        split at hs
        · rename_i s hf
          rw [hf] at hbuffer
          cases hs
          simp only [QueueRun.bursts] at hbuffer ⊢
          rw [hbuffer]
          exact Nat.le_refl _
        · rename_i s boundary hf
          rw [hf] at hbuffer
          cases hs
          simp only [QueueRun.bursts] at hbuffer ⊢
          rw [hbuffer]
          exact Nat.le_refl _
      · cases hs
    · cases hs
  | notify =>
    simp only [queueMachine, QueueRun.notify] at hs
    split at hs
    · cases hs; exact Nat.le_refl _
    · cases hs

theorem start_turnInv (limitBytes priority : Int) : TurnInv (.start .window limitBytes priority) :=
  ⟨⟨start_wireInv .window limitBytes priority, start_flowInv .window limitBytes priority⟩, start_turnBook ..⟩

end Webshell
