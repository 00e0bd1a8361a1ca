import Webshell.OutputTurns
import Webshell.QueueTurns
import Webshell.QueueCredit
import Webshell.QueueDelivered

/-!
# Window acknowledgements

Both ends of a stream under window flow control, and what is on its way between
them. The server's ledger goes by sequence, the browser's by cursor, and the
browser's is always the younger part of the server's.
-/

namespace Webshell

open GoText

/-- What the server writes, as far as turns depend on it. -/
inductive DownMessage
  | frame (endCursor sequence length : Nat)
  | turnComplete (cursor sequence : Nat)
  | control
  deriving DecidableEq

def DownMessage.ofOutbound (o : QueueOutbound) : DownMessage :=
  if o.isBinary then .frame o.endCursor o.binarySequence o.data.length else .control

def DownMessage.ofBoundary (boundary : Nat × Nat) : DownMessage := .turnComplete boundary.1 boundary.2

namespace QueueTurnAck

/-- `data` of the `queue-turn-ack`. -/
def data (ack : QueueTurnAck) : String := String.ofList (Nat.toDigits 10 ack.cursor ++ ':' :: ack.sequence)

def boundary (ack : QueueTurnAck) : Nat × Nat := (ack.cursor, (Js.decimal ack.sequence).getD 0)

end QueueTurnAck

structure AckRun where
  server : QueueRun
  browser : OutputSession
  down : List DownMessage := []
  up : List QueueTurnAck := []

inductive AckEvent
  | server (e : QueueEvent)
  /-- The browser takes the next message; a frame is cut into `chunks`. -/
  | deliver (chunks : List Nat) (connection : OutputConnection) (answer : AckAnswer)
  | parsed (entries : Nat) (answer : AckAnswer)
  | trySend (answer : AckAnswer)
  /-- What else the page makes of the session, at a replay's start for one. -/
  | session (closed unified : Bool) (connection : OutputConnection) (historyProtocolActive : Bool) (received applied : Nat)
  /-- The server takes the next acknowledgement. -/
  | acknowledge

def AckEvent.startsReplay : AckEvent → Bool
  | .server e => e.startsReplay
  | _ => false

/-- What a step shows. -/
structure AckEffects where
  status : Option TurnStatus := none
  sent : Option QueueTurnAck := none
  /-- An acknowledgement, and the error it is answered with. -/
  refused : Option (QueueTurnAck × String) := none

namespace AckRun

def start (limitBytes priority : Int) (connection : OutputConnection) : AckRun where
  server := .start .window limitBytes priority
  browser := { connection := connection, windowed := true }

def serverStep (a : AckRun) (e : QueueEvent) : Option AckRun :=
  match e with
  | .acknowledgeTurn _ => none
  | e =>
    (queueMachine.step a.server e).map fun q =>
      { a with
        server := q
        down := a.down ++ (q.popped.drop a.server.popped.length).map DownMessage.ofOutbound ++
          (q.sent.drop a.server.sent.length).map DownMessage.ofBoundary }

def deliver (a : AckRun) (chunks : List Nat) (connection : OutputConnection) (answer : AckAnswer) :
    Option (AckRun × AckEffects) :=
  match a.down with
  | [] => none
  | .frame endCursor sequence length :: down =>
    if chunks.sum = length then
      some ({ a with browser := (a.browser.noteQueueTurnFrame endCursor sequence).write chunks, down := down }, {})
    else none
  | .turnComplete cursor sequence :: down =>
    let r := a.browser.completeQueueTurn (formatUint cursor).toList (formatUint sequence).toList connection answer
    some ({ a with browser := r.1, down := down, up := a.up ++ r.2.2.toList }, { status := some r.2.1, sent := r.2.2 })
  | .control :: down => some ({ a with down := down }, {})

def acknowledge (a : AckRun) : Option (AckRun × AckEffects) :=
  match a.up with
  | [] => none
  | ack :: up =>
    some ({ a with server := a.server.acknowledgeTurn ack.data, up := up },
      { refused := (a.server.stream.acknowledgeTurn ack.data).2.map fun err => (ack, err) })

def next (a : AckRun) : AckEvent → Option (AckRun × AckEffects)
  | .server e => (a.serverStep e).map fun a' => (a', {})
  | .deliver chunks connection answer => a.deliver chunks connection answer
  | .parsed entries answer =>
    (a.browser.batchParsed entries answer).map fun r =>
      ({ a with browser := r.1, up := a.up ++ r.2.toList }, { sent := r.2 })
  | .trySend answer =>
    let r := a.browser.trySendPendingQueueTurnAck answer
    some ({ a with browser := r.1, up := a.up ++ r.2.toList }, { sent := r.2 })
  | .session closed unified connection historyProtocolActive received applied =>
    some ({ a with browser := { a.browser with
      closed := closed, unified := unified, connection := connection, historyProtocolActive := historyProtocolActive
      receivedHistoryCursor := received, appliedHistoryCursor := applied } }, {})
  | .acknowledge => a.acknowledge

end AckRun

def ackMachine : Machine AckRun AckEvent where
  step a e := (a.next e).map Prod.fst

/-! ## A step of the server -/

/-- All a step of the server does to what the browser is told of. -/
inductive WindowStep (q q' : QueueRun) : Prop
  | quiet : q'.popped = q.popped → q'.sent = q.sent → notifying q'.turn = notifying q.turn →
    (q'.stream.overloaded = false → q.stream.overloaded = false ∧ q'.stream.outstanding = q.stream.outstanding) →
    WindowStep q q'
  | popped (entry : QueueOutbound) : q'.popped = q.popped ++ [entry] → q'.sent = q.sent →
    notifying q'.turn = none → notifying q.turn = none → q'.stream.overloaded = q.stream.overloaded →
    q'.stream.outstanding = q.stream.outstanding → WindowStep q q'
  | closed (boundary : Nat × Nat) : q'.popped = q.popped → q'.sent = q.sent → notifying q.turn = none →
    notifying q'.turn = some boundary → q.stream.overloaded = false →
    q'.stream.outstanding = q.stream.outstanding ++ [boundary] →
    q.stream.window.boundaries.length < terminalQueueWindowTurns + bursts q.popped → WindowStep q q'
  | told (boundary : Nat × Nat) : q'.popped = q.popped → q'.sent = q.sent ++ [boundary] →
    notifying q.turn = some boundary → notifying q'.turn = none → q'.stream = q.stream → WindowStep q q'

theorem outstanding_window {s : QueuePaneStream} (hf : s.flowControl = .window) :
    s.outstanding = s.window.boundaries.map fun b => (b.cursor, b.sequence) := by
  unfold QueuePaneStream.outstanding
  rw [hf]

theorem recordTurn_keeps (s : QueuePaneStream) (cursor sequence : Nat) :
    (s.recordTurn cursor sequence).outstanding = s.outstanding ∧ (s.recordTurn cursor sequence).window = s.window ∧
      (s.recordTurn cursor sequence).overloaded = s.overloaded ∧
      (s.recordTurn cursor sequence).flowControl = s.flowControl := by
  unfold QueuePaneStream.recordTurn
  split <;> exact ⟨rfl, rfl, rfl, rfl⟩

theorem closeTurn_outstanding {s : QueuePaneStream} (hf : s.flowControl = .window) :
    s.closeTurn.outstanding = s.outstanding ++ [(s.pendingTurnCursor, s.pendingTurnSequence)] := by
  have hw : s.usesWindow = true := by simp [QueuePaneStream.usesWindow, hf]
  rw [outstanding_window hf, outstanding_window (show s.closeTurn.flowControl = .window from hf)]
  unfold QueuePaneStream.closeTurn
  simp [hw]

theorem perform_windowStep {q q' : QueueRun} {work : QueueWork} (hstream : q'.stream = (q.stream.perform work).1)
    (hpopped : q'.popped = q.popped) (hsent : q'.sent = q.sent) (hturn : q'.turn = q.turn) : WindowStep q q' := by
  refine .quiet hpopped hsent (by rw [hturn]) fun ho => ?_
  rw [hstream] at ho ⊢
  rcases q.stream.perform_cases work with ⟨_, _, _, _, hp⟩ | ⟨entry, -, -, hp⟩ | ⟨reason, -, -, hp⟩
  · rw [hp] at ho ⊢
    exact ⟨ho, rfl⟩
  · rw [hp] at ho ⊢
    exact ⟨ho, rfl⟩
  · rw [hp] at ho
    cases ho

theorem popTurn_windowStep {q q' : QueueRun} {timeUp : Bool} (hf : q.stream.flowControl = .window)
    (hs : q.popTurn timeUp = some q') : WindowStep q q' := by
  unfold QueueRun.popTurn at hs
  split at hs
  · rename_i t ht
    split at hs
    · rename_i hphase
      have hopen : t.Open := .inl hphase
      have hnone : notifying q.turn = none := by rw [ht, hopen.notifying]
      split at hs
      · cases hs
        exact .quiet rfl rfl hnone.symm fun ho => ⟨ho, rfl⟩
      · rename_i entry s hp
        cases hs
        obtain ⟨rest, hb, -, -, -, rfl⟩ := QueuePaneStream.popThrough_cases hp
        refine .popped entry rfl rfl ?_ hnone rfl ?_
        · unfold notifying
          simp only
          split
          · rename_i hn
            split at hn <;> cases hn
          · rfl
        · rw [outstanding_window hf, outstanding_window (show (q.stream.pop entry rest).flowControl = .window from hf)]
          unfold QueuePaneStream.pop
          simp only
          split <;> rfl
    · cases hs
  · cases hs

theorem finishTurn_windowStep {q q' : QueueRun} (h : TurnInv q) (hs : q.finishTurn = some q') : WindowStep q q' := by
  unfold QueueRun.finishTurn at hs
  split at hs
  · rename_i t ht
    split at hs
    · rename_i hphase
      have hopen : t.Open := .inr hphase
      have hnone : notifying q.turn = none := by rw [ht, hopen.notifying]
      have hrecord := recordTurn_keeps q.stream t.turnCursor t.turnSequence
      have hbook := h.book
      rw [ht] at hbook
      rcases q.stream.finishTurn_cases t.turnCursor t.turnSequence with ⟨-, he⟩ | ⟨-, -, he⟩ | ⟨hh, -, hp, he⟩
      · rw [he] at hs
        cases hs
        exact .quiet rfl rfl hnone.symm fun ho => ⟨ho, rfl⟩
      · rw [he] at hs
        cases hs
        refine .quiet rfl rfl hnone.symm fun ho => ?_
        exact ⟨hrecord.2.2.1 ▸ ho, hrecord.1⟩
      · rw [he] at hs
        cases hs
        refine .closed _ rfl rfl hnone rfl hh.2 ?_ ?_
        · rw [closeTurn_outstanding (hrecord.2.2.2.trans h.stream.flow.mode.1), hrecord.1]
        · have hroom := (hbook.record hopen hh).room (.inr (.inl hp))
          rw [hrecord.2.1] at hroom
          exact hroom
    · cases hs
  · cases hs

theorem windowStep {q q' : QueueRun} {e : QueueEvent} (h : TurnInv q) (he : ∀ value, e ≠ .acknowledgeTurn value)
    (hs : queueMachine.step q e = some q') : WindowStep q q' := by
  cases e with
  | capacity =>
    simp only [queueMachine, QueueRun.capacity] at hs
    split at hs
    · cases hs; exact .quiet rfl rfl rfl fun ho => ⟨ho, rfl⟩
    · cases hs
  | agentText frame =>
    simp only [queueMachine, QueueRun.agentFrame] at hs
    split at hs
    · cases hs; exact .quiet rfl rfl rfl fun ho => ⟨ho, rfl⟩
    · cases hs
  | agentBinary payload =>
    simp only [queueMachine, QueueRun.agentFrame] at hs
    split at hs
    · cases hs; exact .quiet rfl rfl rfl fun ho => ⟨ho, rfl⟩
    · cases hs
  | readError err stderr selector size =>
    simp only [queueMachine, QueueRun.readError] at hs
    split at hs
    · split at hs <;> cases hs <;> exact .quiet rfl rfl rfl fun ho => ⟨ho, rfl⟩
    · cases hs
  | readerStep =>
    simp only [queueMachine, QueueRun.readerStep] at hs
    split at hs
    · cases hs
    · cases hs; exact perform_windowStep rfl rfl rfl rfl
  | brokerControl control size => cases hs; exact .quiet rfl rfl rfl fun ho => ⟨ho, rfl⟩
  | controlStep thread =>
    simp only [queueMachine, QueueRun.controlStep] at hs
    split at hs
    · cases hs
    · cases hs
    · cases hs; exact perform_windowStep rfl rfl rfl rfl
  | acknowledgeTurn value => exact absurd rfl (he value)
  | setPriority priority => cases hs; exact .quiet rfl rfl rfl fun ho => ⟨ho, rfl⟩
  | registered => cases hs; exact .quiet rfl rfl rfl fun ho => ⟨ho, rfl⟩
  | deactivate => cases hs; exact .quiet rfl rfl rfl fun ho => ⟨ho, rfl⟩
  | beginTurn =>
    simp only [queueMachine, QueueRun.beginTurn] at hs
    split at hs
    · cases hs
    · rename_i ht
      split at hs
      · cases hs; exact .quiet rfl rfl rfl fun ho => ⟨ho, rfl⟩
      · cases hs; exact .quiet rfl rfl (by rw [ht]; rfl) fun ho => ⟨ho, rfl⟩
  | pop timeUp => exact popTurn_windowStep h.stream.flow.mode.1 hs
  | finishTurn => exact finishTurn_windowStep h hs
  | notify =>
    simp only [queueMachine, QueueRun.notify] at hs
    split at hs
    · rename_i boundary ht
      cases hs; exact .told boundary rfl rfl (by rw [ht]; rfl) rfl rfl
    · cases hs

/-! ## What the browser has received -/

/-- The end of the last frame that was noted. -/
def OutputSession.received (s : OutputSession) : Option (Nat × Nat) :=
  match s.queueTurnReceivedCursor, s.queueTurnReceivedSequence with
  | some cursor, some sequence => some (cursor, sequence)
  | _, _ => none

/-- Every turn is complete behind its last frame; after all messages, `last` is the end of the last one. -/
def Matches : Option (Nat × Nat) → List DownMessage → Option (Nat × Nat) → Prop
  | received, [], last => received = last
  | _, .frame endCursor sequence _ :: ms, last => Matches (some (endCursor, sequence)) ms last
  | received, .turnComplete cursor sequence :: ms, last => received = some (cursor, sequence) ∧ Matches received ms last
  | received, .control :: ms, last => Matches received ms last

theorem Matches.append {received middle last : Option (Nat × Nat)} {ms ms' : List DownMessage}
    (h : Matches received ms middle) (h' : Matches middle ms' last) : Matches received (ms ++ ms') last := by
  induction ms generalizing received with
  | nil =>
    cases h
    exact h'
  | cons m ms ih =>
    cases m with
    | frame endCursor sequence length => exact ih h
    | turnComplete cursor sequence => exact ⟨h.1, ih h.2⟩
    | control => exact ih h

theorem matches_outbound (popped : List QueueOutbound) (o : QueueOutbound) :
    Matches (lastBinary popped) [.ofOutbound o] (lastBinary (popped ++ [o])) := by
  unfold DownMessage.ofOutbound
  cases ho : o.isBinary with
  | true =>
    rw [lastBinary_binary popped ho]
    rfl
  | false =>
    rw [lastBinary_text popped ho]
    rfl

/-- The boundaries of the turns that are complete. -/
def completed : List DownMessage → List (Nat × Nat)
  | [] => []
  | .turnComplete cursor sequence :: ms => (cursor, sequence) :: completed ms
  | .frame .. :: ms => completed ms
  | .control :: ms => completed ms

theorem completed_append (ms ms' : List DownMessage) : completed (ms ++ ms') = completed ms ++ completed ms' := by
  induction ms with
  | nil => rfl
  | cons m ms ih =>
    cases m with
    | frame endCursor sequence length => exact ih
    | turnComplete cursor sequence => exact congrArg ((cursor, sequence) :: ·) ih
    | control => exact ih

theorem completed_outbound (o : QueueOutbound) : completed [.ofOutbound o] = [] := by
  unfold DownMessage.ofOutbound
  split <;> rfl

namespace OutputSession

variable {s : OutputSession}

theorem write_keeps (s : OutputSession) (chunks : List Nat) : (s.write chunks).windowed = s.windowed ∧
    (s.write chunks).received = s.received ∧ (s.write chunks).ackBoundaries = s.ackBoundaries := by
  unfold write
  induction chunks generalizing s with
  | nil => exact ⟨rfl, rfl, rfl⟩
  | cons n chunks ih =>
    rw [List.foldl_cons]
    obtain ⟨hw, hr, hb⟩ := ih (s.enqueueEntry n)
    rw [hw, hr, hb]
    unfold enqueueEntry
    split
    · exact ⟨rfl, rfl, rfl⟩
    · split <;> exact ⟨rfl, rfl, rfl⟩

/-- A turn that ends where the last frame did is taken. -/
theorem completeQueueTurn_received {cursor sequence : Nat} (hr : s.received = some (cursor, sequence))
    (hfew : s.ackBoundaries.length < 512) (hw : s.windowed = true) (connection : OutputConnection) (answer : AckAnswer) :
    s.completeQueueTurn (formatUint cursor).toList (formatUint sequence).toList connection answer =
      let pending := { connection := connection, cursor := cursor, sequence := Nat.toDigits 10 sequence }
      let r := { s with
        pendingQueueTurnAck := some pending
        ackBoundaries := s.ackBoundaries ++ [pending] }.trySendPendingQueueTurnAck answer
      (r.1, .accepted cursor (Nat.toDigits 10 sequence), r.2) := by
  have htext (n : Nat) : (formatUint n).toList = Nat.toDigits 10 n := Nat.toList_repr ..
  have hdigits (n : Nat) : isDigits (Nat.toDigits 10 n) = true := by
    unfold isDigits
    simp only [Bool.and_eq_true, decide_eq_true_eq, List.all_eq_true]
    exact ⟨Nat.toDigits_ne_nil, fun _ hc => Nat.isDigit_of_mem_toDigits (by decide) (by decide) hc⟩
  obtain ⟨hc, hq⟩ : s.queueTurnReceivedCursor = some cursor ∧ s.queueTurnReceivedSequence = some sequence := by
    unfold received at hr
    split at hr
    · rename_i c q hc hq
      cases hr
      exact ⟨hc, hq⟩
    · cases hr
  unfold completeQueueTurn
  simp only [htext, hc, hq, counterText, Js.trim_toDigits, hdigits, Js.decimal_toDigits, Nat.toDigits_ne_nil, hw,
    Bool.true_eq_false, ne_eq, not_true_eq_false, or_self, and_self, if_false, if_true, true_and]
  rw [if_neg (by omega)]

end OutputSession

/-! ## Acknowledgements on their way -/

theorem sublist_behind {u : Nat × Nat} {rest before after : List (Nat × Nat)} (hu : u ∉ before)
    (h : (u :: rest).Sublist (before ++ u :: after)) : rest.Sublist after := by
  induction before with
  | nil => exact List.cons_sublist_cons.mp h
  | cons b before ih =>
    rw [List.mem_cons, not_or] at hu
    cases h with
    | cons _ h => exact ih hu.2 h
    | cons_cons _ h => exact absurd rfl hu.1

theorem parseTurnAck_data {ack : QueueTurnAck} (hplain : ack.sequence = Nat.toDigits 10 ack.boundary.2) :
    parseTurnAck ack.data = match parseUint (formatUint ack.cursor), parseUint (formatUint ack.boundary.2) with
      | some cursor, some sequence => some (cursor, sequence)
      | _, _ => none := by
  have htext : ack.data = formatUint ack.cursor ++ ":" ++ formatUint ack.boundary.2 := by
    apply String.toList_inj.mp
    rw [QueueTurnAck.data, hplain]
    simp [formatUint, Nat.toList_repr]
  exact (congrArg parseTurnAck htext).trans (parseTurnAck_pair ack.cursor ack.boundary.2)

theorem parseUint_formatUint_some {n m : Nat} (h : parseUint (formatUint n) = some m) : m = n := by
  unfold parseUint formatUint at h
  rw [Nat.toList_repr, Nat.ofDigitChars_ten_toDigits] at h
  split at h
  · exact (Option.some.inj h).symm
  · cases h

/-- An acknowledgement is read as the boundary it names, or not at all. -/
theorem parseTurnAck_data_some {ack : QueueTurnAck} (hplain : ack.sequence = Nat.toDigits 10 ack.boundary.2) {p : Nat × Nat}
    (h : parseTurnAck ack.data = some p) : p = ack.boundary := by
  rw [parseTurnAck_data hplain] at h
  split at h
  · rename_i cursor sequence hc hs
    cases h
    rw [parseUint_formatUint_some hc, parseUint_formatUint_some hs]
    rfl
  · cases h

/-- What is known of both ends and of what is between them. -/
structure AckInv (a : AckRun) : Prop where
  server : TurnInv a.server
  windowed : a.browser.windowed = true
  received : Matches a.browser.received a.down (lastBinary a.server.popped)
  plain : ∀ ack ∈ a.up ++ a.browser.ackBoundaries, ack.sequence = Nat.toDigits 10 ack.boundary.2
  /-- The server knows all boundaries on their way, the browser's included, in their order. -/
  known : a.server.stream.overloaded = false →
    ((a.up ++ a.browser.ackBoundaries).map QueueTurnAck.boundary ++ completed a.down ++
      (notifying a.server.turn).toList).Sublist a.server.stream.outstanding
  few : a.browser.ackBoundaries.length + (completed a.down).length + (notifying a.server.turn).toList.length ≤
    terminalQueueWindowTurns + bursts a.server.popped

theorem start_ackInv (limitBytes priority : Int) (connection : OutputConnection) :
    AckInv (.start limitBytes priority connection) where
  server := start_turnInv limitBytes priority
  windowed := rfl
  received := rfl
  plain _ h := by cases h
  known _ := List.nil_sublist _
  few := Nat.zero_le _

namespace AckInv

variable {a : AckRun}

theorem serverStep (h : AckInv a) {e : QueueEvent} {a' : AckRun} (hs : a.serverStep e = some a') : AckInv a' := by
  obtain ⟨q, hq, he, rfl⟩ : ∃ q, queueMachine.step a.server e = some q ∧ (∀ value, e ≠ .acknowledgeTurn value) ∧
      a' = { a with
        server := q
        down := a.down ++ (q.popped.drop a.server.popped.length).map DownMessage.ofOutbound ++
          (q.sent.drop a.server.sent.length).map DownMessage.ofBoundary } := by
    unfold AckRun.serverStep at hs
    split at hs
    · cases hs
    · rename_i hne
      obtain ⟨q, hq, rfl⟩ := Option.map_eq_some_iff.mp hs
      exact ⟨q, hq, fun value hv => hne value hv, rfl⟩
  have hserver := h.server.step hq
  rcases windowStep h.server he hq with ⟨hpopped, hsent, hturn, hout⟩ | ⟨entry, hpopped, hsent, hturn, hturn', ho, hout⟩ |
    ⟨boundary, hpopped, hsent, hturn, hturn', ho, hout, hroom⟩ | ⟨boundary, hpopped, hsent, hturn, hturn', hstream⟩
  · rw [hpopped, hsent, List.drop_length, List.drop_length]
    simp only [List.map_nil, List.append_nil]
    refine ⟨hserver, h.windowed, by rw [hpopped]; exact h.received, h.plain, fun hov => ?_, ?_⟩
    · rw [(hout hov).2, hturn]
      exact h.known (hout hov).1
    · rw [hpopped, hturn]
      exact h.few
  · rw [hpopped, hsent, List.drop_length, List.drop_left]
    simp only [List.map_cons, List.map_nil, List.append_nil]
    have hcompleted : completed (a.down ++ [.ofOutbound entry]) = completed a.down := by
      rw [completed_append, completed_outbound, List.append_nil]
    refine ⟨hserver, h.windowed, ?_, h.plain, fun hov => ?_, ?_⟩
    · rw [hpopped]
      exact h.received.append (matches_outbound ..)
    · have hknown := h.known (ho ▸ hov)
      rw [hturn'] at hknown
      rw [hout, hturn, hcompleted]
      exact hknown
    · have hfew := h.few
      rw [hturn'] at hfew
      show a.browser.ackBoundaries.length + (completed (a.down ++ [.ofOutbound entry])).length +
        (notifying q.turn).toList.length ≤ terminalQueueWindowTurns + bursts q.popped
      rw [hpopped, hturn, hcompleted, TurnBook.bursts_pop]
      omega
  · rw [hpopped, hsent, List.drop_length, List.drop_length]
    simp only [List.map_nil, List.append_nil]
    have hknown := h.known ho
    rw [hturn, Option.toList_none, List.append_nil] at hknown
    refine ⟨hserver, h.windowed, by rw [hpopped]; exact h.received, h.plain, fun _ => ?_, ?_⟩
    · rw [hout, hturn', Option.toList_some]
      exact hknown.append (List.Sublist.refl _)
    · have hlength := hknown.length_le
      rw [outstanding_window h.server.stream.flow.mode.1] at hlength
      simp only [List.length_append, List.length_map] at hlength
      show a.browser.ackBoundaries.length + (completed a.down).length + (notifying q.turn).toList.length ≤
        terminalQueueWindowTurns + bursts q.popped
      rw [hpopped, hturn', Option.toList_some, List.length_singleton]
      omega
  · rw [hpopped, hsent, List.drop_length, List.drop_left]
    simp only [List.map_cons, List.map_nil, List.append_nil]
    have hcompleted : completed (a.down ++ [.ofBoundary boundary]) = completed a.down ++ [boundary] := by
      rw [completed_append]
      rfl
    refine ⟨hserver, h.windowed, ?_, h.plain, fun hov => ?_, ?_⟩
    · rw [hpopped]
      refine h.received.append ⟨?_, rfl⟩
      exact h.server.book.told boundary hturn
    · have hknown := h.known (hstream ▸ hov)
      rw [hturn, Option.toList_some, List.append_assoc] at hknown
      rw [hstream, hturn', hcompleted, Option.toList_none, List.append_nil]
      exact hknown
    · have hfew := h.few
      rw [hturn, Option.toList_some, List.length_singleton] at hfew
      show a.browser.ackBoundaries.length + (completed (a.down ++ [.ofBoundary boundary])).length +
        (notifying q.turn).toList.length ≤ terminalQueueWindowTurns + bursts q.popped
      rw [hpopped, hturn', hcompleted, Option.toList_none, List.length_append, List.length_singleton, List.length_nil]
      omega

/-- Only what the ledgers go by matters of the browser. -/
theorem withBrowser (h : AckInv a) {s : OutputSession} (hw : s.windowed = a.browser.windowed)
    (hr : s.received = a.browser.received) (hb : s.ackBoundaries = a.browser.ackBoundaries) :
    AckInv { a with browser := s } where
  server := h.server
  windowed := hw.trans h.windowed
  received := by
    show Matches s.received a.down _
    rw [hr]
    exact h.received
  plain := by
    show ∀ ack ∈ a.up ++ s.ackBoundaries, _
    rw [hb]
    exact h.plain
  known := by
    show _ → ((a.up ++ s.ackBoundaries).map _ ++ _ ++ _).Sublist _
    rw [hb]
    exact h.known
  few := by
    show s.ackBoundaries.length + _ + _ ≤ _
    rw [hb]
    exact h.few

theorem trySend (h : AckInv a) (answer : AckAnswer) {s : OutputSession} {sent : Option QueueTurnAck}
    (ht : a.browser.trySendPendingQueueTurnAck answer = (s, sent)) :
    AckInv { a with browser := s, up := a.up ++ sent.toList } := by
  obtain ⟨hw, hc, hq, -, hcases⟩ := OutputSession.trySend_window h.windowed ht
  have hr : s.received = a.browser.received := by
    unfold OutputSession.received
    rw [hc, hq]
  have hsub : (a.up ++ sent.toList ++ s.ackBoundaries).Sublist (a.up ++ a.browser.ackBoundaries) := by
    rw [List.append_assoc, List.append_sublist_append_left]
    rcases hcases with ⟨rfl, hb | hb⟩ | ⟨before, pending, rfl, hb, -⟩
    · rw [hb]
      exact List.Sublist.refl _
    · rw [hb]
      exact List.nil_sublist _
    · rw [hb]
      exact List.sublist_append_right before _
  have hle : s.ackBoundaries.length ≤ a.browser.ackBoundaries.length := by
    rcases hcases with ⟨-, hb | hb⟩ | ⟨before, pending, -, hb, -⟩
    · rw [hb]
    · rw [hb]
      exact Nat.zero_le _
    · rw [hb, List.length_append, List.length_cons]
      omega
  refine ⟨h.server, hw, ?_, fun ack hm => h.plain ack (hsub.subset hm), fun ho => ?_, ?_⟩
  · show Matches s.received a.down _
    rw [hr]
    exact h.received
  · exact (((hsub.map _).append_right _).append_right _).trans (h.known ho)
  · have hfew := h.few
    show s.ackBoundaries.length + (completed a.down).length + (notifying a.server.turn).toList.length ≤
      terminalQueueWindowTurns + bursts a.server.popped
    omega

theorem frame (h : AckInv a) {endCursor sequence length : Nat} {down : List DownMessage}
    (hd : a.down = .frame endCursor sequence length :: down) (chunks : List Nat) :
    AckInv { a with browser := (a.browser.noteQueueTurnFrame endCursor sequence).write chunks, down := down } := by
  obtain ⟨hw, hr, hb⟩ := OutputSession.write_keeps (a.browser.noteQueueTurnFrame endCursor sequence) chunks
  have hreceived := h.received
  have hknown := h.known
  have hfew := h.few
  rw [hd] at hreceived hknown hfew
  refine ⟨h.server, hw.trans h.windowed, ?_, ?_, ?_, ?_⟩
  · show Matches (OutputSession.received _) down _
    rw [hr]
    exact hreceived
  · show ∀ ack ∈ a.up ++ OutputSession.ackBoundaries _, _
    rw [hb]
    exact h.plain
  · show _ → ((a.up ++ OutputSession.ackBoundaries _).map _ ++ _ ++ _).Sublist _
    rw [hb]
    exact hknown
  · show (OutputSession.ackBoundaries _).length + _ + _ ≤ _
    rw [hb]
    exact hfew

theorem complete (h : AckInv a) {cursor sequence : Nat} {down : List DownMessage}
    (hd : a.down = .turnComplete cursor sequence :: down) (connection : OutputConnection) :
    AckInv { a with
      browser := { a.browser with
        pendingQueueTurnAck := some ⟨connection, cursor, Nat.toDigits 10 sequence⟩
        ackBoundaries := a.browser.ackBoundaries ++ [⟨connection, cursor, Nat.toDigits 10 sequence⟩] }
      down := down } := by
  have hboundary : (⟨connection, cursor, Nat.toDigits 10 sequence⟩ : QueueTurnAck).boundary = (cursor, sequence) := by
    unfold QueueTurnAck.boundary
    rw [Js.decimal_toDigits]
    rfl
  have hreceived := h.received
  have hknown := h.known
  have hfew := h.few
  rw [hd] at hreceived hknown hfew
  refine ⟨h.server, h.windowed, hreceived.2, fun ack hm => ?_, fun ho => ?_, ?_⟩
  · rw [← List.append_assoc] at hm
    rcases List.mem_append.mp hm with hm | hm
    · exact h.plain ack hm
    · rw [List.mem_singleton.mp hm, hboundary]
  · have hsub := hknown ho
    simp only [completed] at hsub
    simp only [List.map_append, List.map_cons, List.map_nil, hboundary, List.append_assoc, List.cons_append,
      List.nil_append] at hsub ⊢
    exact hsub
  · simp only [completed, List.length_cons] at hfew
    simp only [List.length_append, List.length_cons, List.length_nil]
    omega

/-- The next acknowledgement names an outstanding boundary. -/
theorem named (h : AckInv a) {ack : QueueTurnAck} (hm : ack ∈ a.up ++ a.browser.ackBoundaries)
    (ho : a.server.stream.overloaded = false) :
    ∃ before b after, a.server.stream.window.boundaries = before ++ b :: after ∧ (b.cursor, b.sequence) = ack.boundary := by
  have hknown := h.known ho
  rw [outstanding_window h.server.stream.flow.mode.1] at hknown
  have hin := hknown.subset (List.mem_append_left _ (List.mem_append_left _ (List.mem_map_of_mem hm)))
  obtain ⟨b, hb, hname⟩ := List.mem_map.mp hin
  obtain ⟨before, after, hsplit⟩ := List.append_of_mem hb
  exact ⟨before, b, after, hsplit, hname⟩

/-- All other boundaries on their way are behind it. -/
theorem behind (h : AckInv a) {ack : QueueTurnAck} {up : List QueueTurnAck} (hu : a.up = ack :: up)
    (ho : a.server.stream.overloaded = false) {before after : List ConsumedBoundary} {b : ConsumedBoundary}
    (hb : a.server.stream.window.boundaries = before ++ b :: after) (hname : (b.cursor, b.sequence) = ack.boundary) :
    ((up ++ a.browser.ackBoundaries).map QueueTurnAck.boundary ++ completed a.down ++
      (notifying a.server.turn).toList).Sublist (after.map fun b => (b.cursor, b.sequence)) := by
  have hknown := h.known ho
  have hledger := (h.server.stream.flow.accounted h.server.usesWindow ho).ledger
  rw [hb] at hledger
  rw [hu, outstanding_window h.server.stream.flow.mode.1, hb] at hknown
  simp only [List.map_append, List.map_cons, List.cons_append, hname] at hknown ⊢
  refine sublist_behind (fun hin => ?_) hknown
  obtain ⟨c, hc, he⟩ := List.mem_map.mp hin
  have hlt := hledger.pos_lt hc
  rw [← hname] at he
  exact Nat.ne_of_lt hlt (congrArg Prod.snd he)

theorem acknowledge (h : AckInv a) {ack : QueueTurnAck} {up : List QueueTurnAck} (hu : a.up = ack :: up) :
    AckInv { a with server := a.server.acknowledgeTurn ack.data, up := up } := by
  have hserver : TurnInv (a.server.acknowledgeTurn ack.data) :=
    h.server.step (show queueMachine.step a.server (.acknowledgeTurn ack.data) = _ from rfl)
  have hplain : ∀ ack ∈ up ++ a.browser.ackBoundaries, ack.sequence = Nat.toDigits 10 ack.boundary.2 := by
    intro ack' hm
    apply h.plain
    rw [hu]
    exact List.mem_cons_of_mem _ hm
  have hkeep : AckInv { a with up := up } := by
    refine ⟨h.server, h.windowed, h.received, hplain, fun ho => ?_, h.few⟩
    have hknown := h.known ho
    rw [hu] at hknown
    exact (List.sublist_cons_self _ _).trans hknown
  have hack := h.plain ack (by rw [hu]; exact List.mem_cons_self ..)
  unfold QueueRun.acknowledgeTurn at hserver ⊢
  split
  · exact hkeep
  · rename_i s ha
    rw [ha] at hserver
    obtain ⟨cursor, sequence, hp, hcases⟩ := QueuePaneStream.acknowledgeTurn_accepted ha
    have hname := parseTurnAck_data_some hack hp
    rcases hcases with ⟨-, -, -, rfl⟩ | ⟨hw, before, b, after, hb, hbname, rfl⟩ | ⟨hf, -⟩
    · exact ⟨hserver, hkeep.windowed, hkeep.received, hplain, hkeep.known, hkeep.few⟩
    · refine ⟨hserver, h.windowed, h.received, hplain, fun ho => ?_, h.few⟩
      have hbehind := h.behind hu ho hb (hbname.trans hname)
      rw [outstanding_window hserver.stream.flow.mode.1]
      exact hbehind
    · exact absurd (h.server.stream.flow.mode.1.symm.trans hf) (by decide)

end AckInv

/-! ## Whole runs -/

/-- What a step from `a` to `a'` shows. Numbers of the server have 64 bits. -/
structure AckAgrees (a a' : AckRun) (fx : AckEffects) : Prop where
  valid : ∀ reason, fx.status ≠ some (.invalid reason)
  parsed : ∀ ack, fx.sent = some ack → ack.cursor ≤ a'.browser.appliedHistoryCursor
  named : ∀ ack, fx.sent = some ack → a.server.stream.overloaded = false →
    ack.boundary ∈ a.server.stream.outstanding
  accepted : ∀ ack err, fx.refused = some (ack, err) →
    a.server.stream.overloaded = true ∨ uint64Limit ≤ ack.cursor ∨ uint64Limit ≤ ack.boundary.2
  few : a'.browser.ackBoundaries.length < 512

theorem AckAgrees.unsent {a a' : AckRun} {fx : AckEffects} (hstatus : fx.status = none) (hsent : fx.sent = none)
    (haccepted : ∀ ack err, fx.refused = some (ack, err) →
      a.server.stream.overloaded = true ∨ uint64Limit ≤ ack.cursor ∨ uint64Limit ≤ ack.boundary.2)
    (hfew : a'.browser.ackBoundaries.length < 512) : AckAgrees a a' fx := by
  refine ⟨?_, ?_, ?_, haccepted, hfew⟩
  · simp [hstatus]
  · simp [hsent]
  · simp [hsent]

theorem AckAgrees.silent {a a' : AckRun} (hfew : a'.browser.ackBoundaries.length < 512) : AckAgrees a a' {} :=
  .unsent rfl rfl (by simp) hfew

/-- A step that hands nothing to the server. -/
theorem AckAgrees.sending {a a' : AckRun} {status : Option TurnStatus} {sent : Option QueueTurnAck}
    (hstatus : ∀ reason, status ≠ some (.invalid reason))
    (hsends : ∀ ack, sent = some ack → ack.cursor ≤ a'.browser.appliedHistoryCursor ∧
      (a.server.stream.overloaded = false → ack.boundary ∈ a.server.stream.outstanding))
    (hfew : a'.browser.ackBoundaries.length < 512) : AckAgrees a a' { status := status, sent := sent } where
  valid := hstatus
  parsed ack hr := (hsends ack hr).1
  named ack hr := (hsends ack hr).2
  accepted := by simp
  few := hfew

namespace AckInv

variable {a : AckRun}

theorem fewer (h : AckInv a) (hb : a.server.bursts ≤ 1) : a.browser.ackBoundaries.length < 512 := by
  have hfew := h.few
  unfold QueueRun.bursts at hb
  unfold terminalQueueWindowTurns at hfew
  omega

/-- A step that sends at most an acknowledgement of the browser's. -/
theorem sends (h : AckInv a) {answer : AckAnswer} {s : OutputSession} {sent : Option QueueTurnAck}
    (ht : a.browser.trySendPendingQueueTurnAck answer = (s, sent)) {ack : QueueTurnAck} (he : sent = some ack) :
    ack.cursor ≤ s.appliedHistoryCursor ∧
      (a.server.stream.overloaded = false → ack.boundary ∈ a.server.stream.outstanding) := by
  obtain ⟨-, -, -, happlied, hcases⟩ := OutputSession.trySend_window h.windowed ht
  rcases hcases with ⟨hnone, -⟩ | ⟨before, pending, hsome, hb, hle⟩
  · rw [hnone] at he
    cases he
  · rw [hsome] at he
    cases he
    refine ⟨by rw [happlied]; exact hle, fun ho => ?_⟩
    have hm : ack ∈ a.up ++ a.browser.ackBoundaries := by
      rw [hb]
      exact List.mem_append_right _ (List.mem_append_right _ (List.mem_cons_self ..))
    obtain ⟨before, b, after, hsplit, hname⟩ := h.named hm ho
    rw [outstanding_window h.server.stream.flow.mode.1, hsplit, ← hname]
    exact List.mem_map.mpr ⟨b, List.mem_append_right _ (List.mem_cons_self ..), rfl⟩

theorem deliver (h : AckInv a) (hb : a.server.bursts ≤ 1) {chunks : List Nat} {connection : OutputConnection}
    {answer : AckAnswer} {a' : AckRun} {fx : AckEffects} (hs : a.deliver chunks connection answer = some (a', fx)) :
    AckAgrees a a' fx ∧ AckInv a' := by
  unfold AckRun.deliver at hs
  split at hs
  · cases hs
  · rename_i endCursor sequence length down hd
    split at hs
    · cases hs
      have hinv := h.frame hd chunks
      exact ⟨.silent (hinv.fewer hb), hinv⟩
    · cases hs
  · rename_i cursor sequence down hd
    have hreceived := h.received
    rw [hd] at hreceived
    have hcomplete := h.complete hd connection
    have hturn := OutputSession.completeQueueTurn_received hreceived.1 (h.fewer hb) h.windowed connection answer
    simp only [hturn] at hs
    cases hs
    have hinv := hcomplete.trySend answer rfl
    exact ⟨.sending (by simp) (fun ack hr => hcomplete.sends rfl hr) (hinv.fewer hb), hinv⟩
  · rename_i down hd
    cases hs
    have hreceived := h.received
    have hknown := h.known
    have hfew := h.few
    rw [hd] at hreceived hknown hfew
    have hinv : AckInv { a with down := down } := ⟨h.server, h.windowed, hreceived, h.plain, hknown, hfew⟩
    exact ⟨.silent (hinv.fewer hb), hinv⟩

theorem accepts (h : AckInv a) {ack : QueueTurnAck} (hm : ack ∈ a.up ++ a.browser.ackBoundaries) {err : String}
    (herr : (a.server.stream.acknowledgeTurn ack.data).2 = some err) :
    a.server.stream.overloaded = true ∨ uint64Limit ≤ ack.cursor ∨ uint64Limit ≤ ack.boundary.2 := by
  by_contra hn
  simp only [not_or, Bool.not_eq_true, Nat.not_le] at hn
  obtain ⟨before, b, after, hsplit, hname⟩ := h.named hm hn.1
  have hp : parseTurnAck ack.data = some (b.cursor, b.sequence) := by
    rw [parseTurnAck_data (h.plain ack hm), parseUint_formatUint hn.2.1, parseUint_formatUint hn.2.2, hname]
    rfl
  have haccept := (h.server.stream.flow.accounted h.server.usesWindow hn.1).acknowledge h.server.usesWindow hsplit hp
  rw [haccept] at herr
  cases herr

theorem acknowledges (h : AckInv a) (hb : a.server.bursts ≤ 1) {a' : AckRun} {fx : AckEffects}
    (hs : a.acknowledge = some (a', fx)) : AckAgrees a a' fx ∧ AckInv a' := by
  cases hu : a.up with
  | nil =>
    rw [AckRun.acknowledge, hu] at hs
    cases hs
  | cons ack up =>
    rw [AckRun.acknowledge, hu] at hs
    have he := Option.some.inj hs
    have ha' := congrArg Prod.fst he
    have hfx := congrArg Prod.snd he
    simp only at ha' hfx
    have hinv := h.acknowledge hu
    rw [ha'] at hinv
    have hbrowser : a'.browser = a.browser := by rw [← ha']
    have hfewer := h.fewer hb
    rw [← hbrowser] at hfewer
    refine ⟨.unsent ?_ ?_ (fun ack' err hr => ?_) hfewer, hinv⟩
    · rw [← hfx]
    · rw [← hfx]
    · rw [← hfx] at hr
      simp only at hr
      obtain ⟨err', herr, he⟩ := Option.map_eq_some_iff.mp hr
      obtain ⟨rfl, rfl⟩ := Prod.mk.inj he
      apply h.accepts ?_ herr
      rw [hu]
      exact List.mem_append_left _ (List.mem_cons_self ..)

theorem next (h : AckInv a) {e : AckEvent} {a' : AckRun} {fx : AckEffects} (hb : a'.server.bursts ≤ 1)
    (hb' : a.server.bursts ≤ 1) (hs : a.next e = some (a', fx)) : AckAgrees a a' fx ∧ AckInv a' := by
  cases e with
  | server e =>
    obtain ⟨a', hstep, he⟩ := Option.map_eq_some_iff.mp hs
    cases he
    have hinv := h.serverStep hstep
    exact ⟨.silent (hinv.fewer hb), hinv⟩
  | deliver chunks connection answer => exact h.deliver hb' hs
  | parsed entries answer =>
    obtain ⟨r, hr, he⟩ := Option.map_eq_some_iff.mp hs
    cases he
    unfold OutputSession.batchParsed at hr
    split at hr
    · cases hr
    · rename_i last hlast
      cases hr
      have hparsed : AckInv { a with browser := { a.browser with
          outputQueue := a.browser.outputQueue.drop entries
          appliedHistoryCursor := last.historyEndCursor.getD a.browser.appliedHistoryCursor } } :=
        h.withBrowser rfl rfl rfl
      have hinv := hparsed.trySend answer rfl
      exact ⟨.sending (by simp) (fun ack hr => hparsed.sends rfl hr) (hinv.fewer hb), hinv⟩
  | trySend answer =>
    cases hs
    have hinv := h.trySend answer rfl
    exact ⟨.sending (by simp) (fun ack hr => h.sends rfl hr) (hinv.fewer hb), hinv⟩
  | session closed unified connection historyProtocolActive received applied =>
    cases hs
    have hinv : AckInv { a with browser := { a.browser with
        closed := closed, unified := unified, connection := connection, historyProtocolActive := historyProtocolActive
        receivedHistoryCursor := received, appliedHistoryCursor := applied } } := h.withBrowser rfl rfl rfl
    exact ⟨.silent (hinv.fewer hb), hinv⟩
  | acknowledge => exact h.acknowledges hb' hs

end AckInv

theorem acknowledgeTurn_step (q : QueueRun) (value : String) :
    queueMachine.step q (.acknowledgeTurn value) = some (q.acknowledgeTurn value) := rfl

theorem next_bursts {a a' : AckRun} {e : AckEvent} {fx : AckEffects} (hs : a.next e = some (a', fx)) :
    a'.server.bursts ≤ a.server.bursts + if e.startsReplay then 1 else 0 := by
  cases e with
  | server e =>
    obtain ⟨a', hstep, he⟩ := Option.map_eq_some_iff.mp hs
    cases he
    unfold AckRun.serverStep at hstep
    split at hstep
    · cases hstep
    · obtain ⟨q, hq, rfl⟩ := Option.map_eq_some_iff.mp hstep
      exact step_bursts hq
  | deliver chunks connection answer =>
    simp only [AckRun.next, AckRun.deliver] at hs
    split at hs
    · cases hs
    · split at hs
      · cases hs; exact Nat.le_refl _
      · cases hs
    · cases hs; exact Nat.le_refl _
    · cases hs; exact Nat.le_refl _
  | parsed entries answer =>
    obtain ⟨r, -, he⟩ := Option.map_eq_some_iff.mp hs
    cases he
    exact Nat.le_refl _
  | trySend answer => cases hs; exact Nat.le_refl _
  | session closed unified connection historyProtocolActive received applied => cases hs; exact Nat.le_refl _
  | acknowledge =>
    simp only [AckRun.next, AckRun.acknowledge] at hs
    split at hs
    · cases hs
    · rename_i ack up hu
      have he := congrArg Prod.fst (Option.some.inj hs)
      simp only at he
      rw [← he]
      have hb := step_bursts (acknowledgeTurn_step a.server ack.data)
      simp only [QueueEvent.startsReplay, AckEvent.startsReplay] at hb ⊢
      exact hb

theorem ackInv_along : ∀ {es : List AckEvent} {a : AckRun}, AckInv a →
    a.server.bursts + es.countP AckEvent.startsReplay ≤ 1 →
    ackMachine.Along (fun a e => ∀ a' fx, a.next e = some (a', fx) → AckAgrees a a' fx) a es
  | [], _, _, _ => trivial
  | e :: es, a, h, hone => by
    rw [List.countP_cons] at hone
    have hnext {a' : AckRun} {fx : AckEffects} (hs : a.next e = some (a', fx)) :
        AckAgrees a a' fx ∧ AckInv a' ∧ a'.server.bursts + es.countP AckEvent.startsReplay ≤ 1 := by
      have hb := next_bursts hs
      obtain ⟨hagrees, hinv⟩ := h.next (by omega) (by omega) hs
      exact ⟨hagrees, hinv, by omega⟩
    refine ⟨fun a' fx hs => (hnext hs).1, fun a' hs => ?_⟩
    obtain ⟨⟨a'', fx⟩, hs', he⟩ := Option.map_eq_some_iff.mp hs
    simp only at he
    subst he
    obtain ⟨-, hinv, hb⟩ := hnext hs'
    exact ackInv_along hinv hb

/-- The two ends agree on the window in every run with one replay: no boundary is invalid, and what is
acknowledged is parsed, outstanding and accepted, unless the server has given the stream up. -/
theorem window_acks_agree (limitBytes priority : Int) (connection : OutputConnection) (es : List AckEvent)
    (hone : es.countP AckEvent.startsReplay ≤ 1) :
    ackMachine.Along (fun a e => ∀ a' fx, a.next e = some (a', fx) → AckAgrees a a' fx)
      (.start limitBytes priority connection) es :=
  ackInv_along (start_ackInv limitBytes priority connection) (by rw [show QueueRun.bursts _ = 0 from rfl]; omega)

def pageConnection : OutputConnection := ⟨1, 1, 1⟩

/-- The page replays from cursor 5, and has parsed all that was sent. -/
def consumedEvents : List AckEvent :=
  replayTurnEvents.map .server ++
    [.session false true pageConnection true 5 5, .deliver [] pageConnection .sent, .deliver [3] pageConnection .sent,
      .deliver [] pageConnection .sent, .parsed 1 .sent]

theorem window_acks_agree_replay :
    (∃ a, ackMachine.run (.start 0 0 pageConnection) (consumedEvents ++ [.acknowledge]) = some a ∧
      a.server.stream.outstanding = []) ∧
    ackMachine.Along (fun a e => ∀ a' fx, a.next e = some (a', fx) → AckAgrees a a' fx) (.start 0 0 pageConnection)
      (consumedEvents ++ [.acknowledge]) :=
  ⟨⟨_, rfl, rfl⟩, window_acks_agree 0 0 pageConnection _ (by decide)⟩

/-- The server gives the stream up: the agent's next text is over the limit. -/
def overloadEvents : List AckEvent :=
  [.server .capacity, .server (.agentText { message := some [("type", .str "other")], size := 4194305 }),
    .server .readerStep, .server .readerStep, .server .readerStep]

/-- A server that has given the stream up refuses the boundary that it had sent before. -/
theorem overloaded_refuses : ¬ ∀ (limitBytes priority : Int) (connection : OutputConnection) (es : List AckEvent),
    es.countP AckEvent.startsReplay ≤ 1 →
    ackMachine.Along (fun a e => ∀ a' fx, a.next e = some (a', fx) → fx.refused = none)
      (.start limitBytes priority connection) es := by
  intro h
  have hrun : ∃ a a' fx, ackMachine.run (.start 0 0 pageConnection) (consumedEvents ++ overloadEvents) = some a ∧
      a.next .acknowledge = some (a', fx) ∧ fx.refused ≠ none := ⟨_, _, _, rfl, rfl, by decide⟩
  obtain ⟨a, a', fx, hrun, hnext, hrefused⟩ := hrun
  have hall := h 0 0 pageConnection ((consumedEvents ++ overloadEvents) ++ .acknowledge :: []) (by decide)
  exact hrefused (ackMachine.along_at hall hrun a' fx hnext)

end Webshell
