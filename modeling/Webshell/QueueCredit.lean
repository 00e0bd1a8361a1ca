import Webshell.QueueFlow

/-!
# Credit and acknowledgements

What the flow invariant says of every state of a run: the credit out is that of
the entries not acknowledged, and a stream that may not send has a boundary its
client can acknowledge.
-/

namespace Webshell

open GoText Credit

/-! ## The credit of a window -/

/-- Of entries numbered from `m + 1` on, those with a number past `k`. -/
theorem filter_numbered {α : Type} (number : α → Nat) (k : Nat) (l : List α) (m : Nat)
    (h : l.map number = List.range' (m + 1) l.length) : l.filter (fun o => decide (k < number o)) = l.drop (k - m) := by
  induction l generalizing m with
  | nil => simp
  | cons o l ih =>
    rw [List.map_cons, List.length_cons, List.range'_succ] at h
    obtain ⟨ho, hl⟩ := List.cons.inj h
    rcases Nat.lt_or_ge k (m + 1) with hk | hk
    · rw [List.filter_cons_of_pos (by simpa [ho] using hk), ih (m + 1) hl]
      rw [show k - m = 0 by omega, show k - (m + 1) = 0 by omega, List.drop_zero, List.drop_zero]
    · rw [List.filter_cons_of_neg (by simp [ho]; omega), ih (m + 1) hl]
      rw [show k - m = (k - (m + 1)) + 1 by omega, List.drop_succ_cons]

theorem releaseBoundaries_split {before after : List ConsumedBoundary} {b : ConsumedBoundary}
    (h : ∀ c ∈ before, c.sequence ≠ b.sequence) : QueuePaneStream.releaseBoundaries b.cursor b.sequence (before ++ b :: after) =
      some (((before ++ [b]).map ConsumedBoundary.bytes).sum, after) := by
  induction before with
  | nil => simp [QueuePaneStream.releaseBoundaries]
  | cons c before ih =>
    have hc : c.sequence ≠ b.sequence := h c (List.mem_cons_self ..)
    simp only [List.cons_append, QueuePaneStream.releaseBoundaries, hc, false_and, if_false]
    rw [ih fun d hd => h d (List.mem_cons_of_mem _ hd)]
    simp

theorem acknowledgeTurn_window {s : QueuePaneStream} {value : String} {cursor sequence : Nat} (hw : s.usesWindow = true)
    (hp : parseTurnAck value = some (cursor, sequence)) : s.acknowledgeTurn value = s.acknowledgeWindow cursor sequence := by
  simp only [QueuePaneStream.acknowledgeTurn, hp, hw, if_true]

/-- The last acknowledgement again. -/
theorem acknowledgeTurn_repeated {s : QueuePaneStream} {value : String} (hw : s.usesWindow = true)
    (hp : parseTurnAck value = some (s.window.ackCursor, s.window.ackSequence)) : s.acknowledgeTurn value = (s, none) := by
  rw [acknowledgeTurn_window hw hp]
  exact if_pos ⟨rfl, rfl⟩

/-- An outstanding boundary named. -/
theorem Accounted.acknowledge {s : QueuePaneStream} {popped : List QueueOutbound} {turn : Option Turn}
    {lastAck : Option (Nat × Nat)} (h : Accounted s popped turn lastAck) (hw : s.usesWindow = true)
    {before after : List ConsumedBoundary} {b : ConsumedBoundary} (hb : s.window.boundaries = before ++ b :: after)
    {value : String} (hp : parseTurnAck value = some (b.cursor, b.sequence)) :
    s.acknowledgeTurn value =
      (s.release b.cursor b.sequence ((before ++ [b]).map ConsumedBoundary.bytes).sum after, none) := by
  have hledger := h.ledger
  rw [hb] at hledger
  have hlt : s.window.ackSequence < b.sequence :=
    hledger.lt_pos (List.mem_append_right _ (List.mem_cons_self ..))
  have hne : ¬ (b.sequence = s.window.ackSequence ∧ b.cursor = s.window.ackCursor) := by omega
  rw [acknowledgeTurn_window hw hp, QueuePaneStream.acknowledgeWindow, if_neg hne, hb,
    releaseBoundaries_split fun c hc => Nat.ne_of_lt (hledger.pos_lt hc)]

/-- The credit of a stream in a state of a run. -/
structure CreditConserved (q : QueueRun) : Prop where
  ofPopped : q.stream.window.inFlight =
    (((binaries q.popped).filter fun o => decide (q.stream.window.ackSequence < o.binarySequence)).map
      fun o => o.data.length).sum
  ofBoundaries : q.stream.window.inFlight =
    (q.stream.window.boundaries.map ConsumedBoundary.bytes).sum + q.stream.window.currentTurnBytes
  nonneg : 0 ≤ q.stream.window.inFlight
  /-- Before any acknowledgement is accepted, cursor 0 and sequence 0 count as the last one. -/
  accepted : ∀ value, (q.stream.acknowledgeTurn value).2 = none ↔ ∃ cursor sequence,
    parseTurnAck value = some (cursor, sequence) ∧ (q.lastAck.getD (0, 0) = (cursor, sequence) ∨
      ∃ b ∈ q.stream.window.boundaries, (b.cursor, b.sequence) = (cursor, sequence))
  repeated : ∀ value, parseTurnAck value = some (q.lastAck.getD (0, 0)) → q.stream.acknowledgeTurn value = (q.stream, none)
  released : ∀ value before b after, q.stream.window.boundaries = before ++ b :: after →
    parseTurnAck value = some (b.cursor, b.sequence) →
      (q.stream.acknowledgeTurn value).1.window.boundaries = after ∧
      (q.stream.acknowledgeTurn value).1.window.inFlight =
        q.stream.window.inFlight - ((before ++ [b]).map ConsumedBoundary.bytes).sum
  refused : ∀ value, (q.stream.acknowledgeTurn value).2 ≠ none →
    (q.stream.acknowledgeTurn value).1 = q.stream ∧ q.acknowledgeTurn value = q
  bounded : ∀ target alreadyWritten entry s, q.stream.popThrough target alreadyWritten = some (entry, s) →
    q.stream.replayBurstActive = false →
      s.window.inFlight ≤ terminalQueueWindowBytes ∨ s.window.inFlight = q.stream.window.inFlight

theorem accepted_iff {q : QueueRun} (h : Accounted q.stream q.popped q.turn q.lastAck) (hw : q.stream.usesWindow = true)
    (value : String) : (q.stream.acknowledgeTurn value).2 = none ↔ ∃ cursor sequence,
      parseTurnAck value = some (cursor, sequence) ∧ (q.lastAck.getD (0, 0) = (cursor, sequence) ∨
        ∃ b ∈ q.stream.window.boundaries, (b.cursor, b.sequence) = (cursor, sequence)) := by
  constructor
  · intro ha
    have hr : q.stream.acknowledgeTurn value = ((q.stream.acknowledgeTurn value).1, none) := by
      rw [← ha]
    obtain ⟨cursor, sequence, hp, hcases⟩ := QueuePaneStream.acknowledgeTurn_accepted hr
    refine ⟨cursor, sequence, hp, ?_⟩
    rcases hcases with ⟨-, rfl, rfl, -⟩ | ⟨-, before, b, after, hb, hname, -⟩ | ⟨hf, -⟩
    · exact .inl h.lastAck
    · exact .inr ⟨b, by rw [hb]; exact List.mem_append_right _ (List.mem_cons_self ..), hname⟩
    · simp [QueuePaneStream.usesWindow, hf] at hw
  · rintro ⟨cursor, sequence, hp, hlast | ⟨b, hb, hname⟩⟩
    · rw [h.lastAck] at hlast
      rw [acknowledgeTurn_repeated hw (hp.trans (congrArg some hlast.symm))]
    · obtain ⟨before, after, hsplit⟩ := List.append_of_mem hb
      rw [h.acknowledge hw hsplit (hp.trans (congrArg some hname.symm))]

theorem pop_bounded {s s' : QueuePaneStream} {target alreadyWritten : Nat} {entry : QueueOutbound}
    (h : s.popThrough target alreadyWritten = some (entry, s')) (hburst : s.replayBurstActive = false) :
    s'.window.inFlight ≤ terminalQueueWindowBytes ∨ s'.window.inFlight = s.window.inFlight := by
  obtain ⟨rest, -, -, -, hallows, rfl⟩ := QueuePaneStream.popThrough_cases h
  by_cases hw : s.usesWindow = true ∧ entry.isBinary = true
  · left
    simp only [QueuePaneStream.windowAllows, hw, hburst, Bool.not_true, Bool.or_self, Bool.false_eq_true, if_false,
      Bool.and_eq_true, decide_eq_true_eq] at hallows
    simpa [QueuePaneStream.pop, hw] using hallows.2
  · right
    have hn : (s.usesWindow && entry.isBinary) = false := by
      cases hu : s.usesWindow <;> cases hb : entry.isBinary <;> simp_all
    simp [QueuePaneStream.pop, hn]

/-- **Credit is conserved.** -/
theorem credit_conserved (limitBytes priority : Int) (es : List QueueEvent) (q : QueueRun)
    (h : queueMachine.run (.start .window limitBytes priority) es = some q) (ho : q.stream.overloaded = false) :
    CreditConserved q := by
  have hinv := run_streamInv h
  have hw : q.stream.usesWindow = true := by simp [QueuePaneStream.usesWindow, hinv.flow.mode.1]
  have hacc := hinv.flow.accounted hw ho
  constructor
  · obtain ⟨w, _, hrun, -, -⟩ := hinv.wire.wired
    obtain ⟨v, hv, -⟩ := Machine.run_split _ hrun
    rw [filter_numbered _ _ _ 0 (wire_run_numbers hv).1, hacc.inFlight, binarySizes, List.map_drop, Nat.sub_zero]
  · rw [hacc.inFlight, hacc.ledger.total]
  · rw [hacc.inFlight]; exact Int.natCast_nonneg _
  · exact accepted_iff hacc hw
  · intro value hp
    rw [hacc.lastAck] at hp
    exact acknowledgeTurn_repeated hw hp
  · intro value before b after hb hp
    rw [hacc.acknowledge hw hb hp]
    exact ⟨rfl, rfl⟩
  · intro value hn
    obtain ⟨err, he⟩ := Option.ne_none_iff_exists'.mp hn
    have hr : q.stream.acknowledgeTurn value = ((q.stream.acknowledgeTurn value).1, some err) := by
      rw [← he]
    have hsame := QueuePaneStream.acknowledgeTurn_refused hr
    have hrun : q.acknowledgeTurn value = q := by
      unfold QueueRun.acknowledgeTurn
      rw [hr]
    exact ⟨hsame, hrun⟩
  · intro target alreadyWritten entry s hp hburst
    exact pop_bounded hp hburst

theorem credit_conserved_replay : ∃ q, queueMachine.run (.start .window 0 0) replayEvents = some q ∧
    CreditConserved q ∧ q.stream.window.inFlight = 3 :=
  ⟨_, rfl, credit_conserved 0 0 replayEvents _ rfl rfl, rfl⟩

/-- A client that has acknowledged nothing may send cursor 0 and sequence 0. -/
theorem zero_acknowledged : ¬ ∀ es q, queueMachine.run (.start .window 0 0) es = some q → q.stream.overloaded = false →
    ∀ value, (q.stream.acknowledgeTurn value).2 = none ↔ ∃ cursor sequence,
      parseTurnAck value = some (cursor, sequence) ∧ (q.lastAck = some (cursor, sequence) ∨
        ∃ b ∈ q.stream.window.boundaries, (b.cursor, b.sequence) = (cursor, sequence)) := by
  intro h
  obtain ⟨_, _, -, hlast | ⟨b, hb, -⟩⟩ := (h [] _ rfl rfl "0:0").mp (by decide)
  · cases hlast
  · cases hb

/-! ## A stream that may not send -/

namespace QueuePaneStream

/-- The next turn takes the head of the buffer. -/
def CanPopHead (s : QueuePaneStream) : Prop :=
  ∃ head rest, s.buffer = head :: rest ∧ s.targetSequence ≠ 0 ∧
    s.popThrough s.targetSequence 0 = some (head, s.pop head rest)

def acknowledgeAll (s : QueuePaneStream) : List String → Option QueuePaneStream
  | [] => some s
  | value :: values =>
    match s.acknowledgeTurn value with
    | (_, some _) => none
    | (s', none) => s'.acknowledgeAll values

end QueuePaneStream

namespace QueuePaneStream

/-- `head` is first in the buffer, and flow control allows it to be sent. -/
def Sendable (s : QueuePaneStream) (head : QueueOutbound) : Prop :=
  (∃ rest, s.buffer = head :: rest) ∧ s.active = true ∧ s.awaitingTurnAck = false ∧ s.windowAllows head = true

end QueuePaneStream

theorem target_of_sendable {s : QueuePaneStream} (h : Sorted s) {head : QueueOutbound} (hs : s.Sendable head) :
    s.targetSequence ≠ 0 ∧ head.sequence ≤ s.targetSequence := by
  obtain ⟨⟨rest, hb⟩, hactive, hwait, hallows⟩ := hs
  have htarget : s.targetSequence = (rest.getLastD head).sequence := by
    simp [QueuePaneStream.targetSequence, hb, hactive, hwait, hallows]
  have hmem : rest.getLastD head ∈ s.buffer := by
    rw [hb]
    exact List.getLastD_mem_cons
  have hpos := (h.assigned _ hmem).1
  refine ⟨by omega, ?_⟩
  have ha := h.ascending
  rw [hb, List.map_cons] at ha
  rw [hb] at hmem
  rw [htarget]
  rcases List.mem_cons.mp hmem with he | hr
  · rw [he]
  · exact Nat.le_of_lt ((List.pairwise_cons.mp ha).1 _ (List.mem_map.mpr ⟨_, hr, rfl⟩))

theorem popThrough_of_sendable {s : QueuePaneStream} {head : QueueOutbound} (hs : s.Sendable head) {target : Nat}
    (hle : head.sequence ≤ target) : ∃ rest, s.buffer = head :: rest ∧
      s.popThrough target 0 = some (head, s.pop head rest) := by
  obtain ⟨⟨rest, hb⟩, hactive, -, hallows⟩ := hs
  refine ⟨rest, hb, ?_⟩
  simpa [QueuePaneStream.popThrough, hb, hactive, hallows] using hle

theorem can_pop_head {s : QueuePaneStream} (h : Sorted s) {head : QueueOutbound} (hs : s.Sendable head) :
    s.CanPopHead := by
  obtain ⟨hne, hle⟩ := target_of_sendable h hs
  obtain ⟨rest, hb, hp⟩ := popThrough_of_sendable hs hle
  exact ⟨head, rest, hb, hne, hp⟩

namespace FlowInv

variable {flowControl : FlowControl} {s : QueuePaneStream} {popped : List QueueOutbound} {sent : List (Nat × Nat)}
  {lastAck : Option (Nat × Nat)}

/-- Between two turns, with no boundary outstanding, no credit is out but in a burst. -/
theorem nothing_out (h : FlowInv flowControl s popped none sent lastAck) (hw : s.usesWindow = true) (hh : s.Healthy)
    (hb : s.window.boundaries = []) (hburst : s.replayBurstActive = false) : s.window.inFlight = 0 := by
  have hacc := h.accounted hw hh.2
  have hpending : s.pendingTurnSequence = if s.marked < (binarySizes popped).length then (binarySizes popped).length
      else 0 := hacc.pending hh.1
  have hle : s.marked ≤ (binarySizes popped).length := hacc.ledger.closed_le
  rw [h.settled hh (fun _ he => by cases he) hburst] at hpending
  have hmarked : s.marked = (binarySizes popped).length := by
    by_contra hne
    rw [if_pos (by omega)] at hpending
    omega
  have htotal := hacc.ledger.total
  have hcurrent := hacc.ledger.current_zero hmarked
  rw [hb, hcurrent] at htotal
  rw [hacc.inFlight, ← htotal]
  rfl

/-- With nothing outstanding the head can be popped. -/
theorem progress (h : FlowInv flowControl s popped none sent lastAck) (hh : s.Healthy) (hout : s.outstanding = [])
    {head : QueueOutbound} {rest : List QueueOutbound} (hb : s.buffer = head :: rest)
    (hsize : head.isBinary = true → head.byteCost ≤ terminalQueueBinaryPayloadMaxBytes) : s.CanPopHead := by
  refine can_pop_head h.sorted ⟨⟨rest, hb⟩, hh.1, ?_, ?_⟩
  · cases hwait : s.awaitingTurnAck with
    | false => rfl
    | true => simp [QueuePaneStream.outstanding, h.mode.2 hwait, hwait] at hout
  · unfold QueuePaneStream.windowAllows
    split
    · rfl
    · rename_i hc
      simp only [Bool.or_eq_true, Bool.not_eq_true', not_or, Bool.not_eq_false, Bool.not_eq_true] at hc
      obtain ⟨⟨hw, hburst⟩, hbin⟩ := hc
      have hf : s.flowControl = .window := by simpa [QueuePaneStream.usesWindow] using hw
      have hnone : s.window.boundaries = [] := by
        simp only [QueuePaneStream.outstanding, hf] at hout
        exact List.map_eq_nil_iff.mp hout
      have hcost := hsize hbin
      rw [hnone, h.nothing_out hw hh hnone hburst]
      unfold terminalQueueBinaryPayloadMaxBytes at hcost
      unfold terminalQueueWindowBytes
      exact Bool.and_eq_true_iff.mpr ⟨rfl, decide_eq_true (by omega)⟩

/-- An outstanding boundary is accepted, with those before it. -/
theorem accept (h : FlowInv flowControl s popped none sent lastAck) (ho : s.overloaded = false)
    {before after : List (Nat × Nat)} {boundary : Nat × Nat} (hout : s.outstanding = before ++ boundary :: after)
    {value : String} (hp : parseTurnAck value = some boundary) :
    ∃ s', s.acknowledgeTurn value = (s', none) ∧ s'.outstanding = after ∧ s'.buffer = s.buffer ∧
      s'.active = s.active ∧ s'.overloaded = s.overloaded := by
  obtain ⟨cursor, sequence⟩ := boundary
  cases hf : s.flowControl with
  | none => simp [QueuePaneStream.outstanding, hf] at hout
  | turnAck =>
    cases hwait : s.awaitingTurnAck with
    | false => simp [QueuePaneStream.outstanding, hf, hwait] at hout
    | true =>
      simp only [QueuePaneStream.outstanding, hf, hwait, if_true] at hout
      have hlen := congrArg List.length hout
      simp only [List.length_append, List.length_cons, List.length_nil] at hlen
      obtain rfl : before = [] := List.length_eq_zero_iff.mp (by omega)
      obtain ⟨he, hafter⟩ := List.cons.inj hout
      cases he
      have hw : s.usesWindow = false := by simp [QueuePaneStream.usesWindow, hf]
      refine ⟨{ s with awaitingTurnAck := false, turnAckCursor := 0, turnAckSequence := 0 }, ?_, ?_, rfl, rfl, rfl⟩
      · simp [QueuePaneStream.acknowledgeTurn, hp, hw, hf, hwait]
      · rw [← hafter]
        simp [QueuePaneStream.outstanding, hf]
  | window =>
    have hw : s.usesWindow = true := by simp [QueuePaneStream.usesWindow, hf]
    simp only [QueuePaneStream.outstanding, hf] at hout
    obtain ⟨before', rest, hb, rfl, hrest⟩ := List.map_eq_append_iff.mp hout
    obtain ⟨b, after', rfl, hname, hafter⟩ := List.map_eq_cons_iff.mp hrest
    refine ⟨_, (h.accounted hw ho).acknowledge hw hb (hp.trans (congrArg some hname.symm)), ?_, rfl, rfl, rfl⟩
    simp only [QueuePaneStream.outstanding, QueuePaneStream.release, hf, hafter]

/-- All that is outstanding is accepted in order, and then the head can be popped. -/
theorem accept_all (h : FlowInv flowControl s popped none sent lastAck) (hh : s.Healthy) {head : QueueOutbound}
    {rest : List QueueOutbound} (hb : s.buffer = head :: rest)
    (hsize : head.isBinary = true → head.byteCost ≤ terminalQueueBinaryPayloadMaxBytes) {values : List String}
    (hv : values.map parseTurnAck = s.outstanding.map some) :
    ∃ s', s.acknowledgeAll values = some s' ∧ s'.outstanding = [] ∧ s'.buffer = s.buffer ∧ s'.CanPopHead := by
  induction values generalizing s lastAck with
  | nil =>
    have hout : s.outstanding = [] := List.map_eq_nil_iff.mp hv.symm
    exact ⟨s, rfl, hout, rfl, h.progress hh hout hb hsize⟩
  | cons value values ih =>
    rw [List.map_cons] at hv
    obtain ⟨boundary, after, hout, hp, hafter⟩ := List.map_eq_cons_iff.mp hv.symm
    have hhead : s.outstanding = [] ++ boundary :: after := hout
    obtain ⟨s', ha, hout', hbuf, hactive, hover⟩ := h.accept hh.2 hhead hp.symm
    have hh' : s'.Healthy := ⟨hactive.trans hh.1, hover.trans hh.2⟩
    obtain ⟨t, ht, htout, htbuf, hpop⟩ := ih (h.acknowledge ha) hh' (hbuf.trans hb) (by rw [hout', hafter])
    refine ⟨t, ?_, htout, htbuf.trans hbuf, hpop⟩
    simp only [QueuePaneStream.acknowledgeAll, ha]
    exact ht

end FlowInv

/-- The text of an acknowledgement is read as its two numbers are. -/
theorem parseTurnAck_pair (cursor sequence : Nat) : parseTurnAck (formatUint cursor ++ ":" ++ formatUint sequence) =
    match parseUint (formatUint cursor), parseUint (formatUint sequence) with
    | some cursor, some sequence => some (cursor, sequence)
    | _, _ => none := by
  have hl : (formatUint cursor ++ ":" ++ formatUint sequence).toList =
      (formatUint cursor).toList ++ ':' :: (formatUint sequence).toList := by
    simp [String.toList_append]
  have hcolon (n : Nat) : ':' ∉ (formatUint n).toList := fun hm =>
    absurd (formatUint_isDigit n ':' hm) (by decide)
  have hne (n : Nat) : (formatUint n).toList ≠ [] := by
    unfold formatUint
    rw [Nat.toList_repr]; exact Nat.toDigits_ne_nil
  have htrim : trimSpace (formatUint cursor ++ ":" ++ formatUint sequence) =
      formatUint cursor ++ ":" ++ formatUint sequence := by
    apply trimSpace_of_ends
    · intro c hc'
      rw [hl, List.head?_append_of_ne_nil _ (hne cursor)] at hc'
      exact isDigit_not_space (formatUint_isDigit cursor c (List.mem_of_head? hc'))
    · intro c hc'
      rw [hl, List.getLast?_append, List.getLast?_cons, List.getLast?_eq_getLast_of_ne_nil (hne sequence)] at hc'
      simp only [Option.getD_some, Option.some_or, Option.some.injEq] at hc'
      exact isDigit_not_space (formatUint_isDigit sequence c (hc' ▸ List.getLast_mem (hne sequence)))
  unfold parseTurnAck
  rewrite [htrim, split_pair hl (hcolon cursor) (hcolon sequence)]
  rfl

/-- What the client answers a boundary with names it. -/
theorem parseTurnAck_text {cursor sequence : Nat} (hc : cursor < uint64Limit) (hs : sequence < uint64Limit) :
    parseTurnAck (formatUint cursor ++ ":" ++ formatUint sequence) = some (cursor, sequence) := by
  simp only [parseTurnAck_pair, parseUint_formatUint hc, parseUint_formatUint hs]

/-- A stream between two turns that holds something: either the next turn takes the head, or
the client was told of a boundary it has not acknowledged; whichever it acknowledges is
accepted, and once it has acknowledged all of them the next turn takes the head. -/
structure NeverWedged (q : QueueRun) : Prop where
  progress : q.stream.CanPopHead ∨ ∃ boundary ∈ q.stream.outstanding, boundary ∈ q.sent
  told : ∀ boundary ∈ q.stream.outstanding, boundary ∈ q.sent
  accepted : ∀ before boundary after value, q.stream.outstanding = before ++ boundary :: after →
    parseTurnAck value = some boundary →
      ∃ s, q.stream.acknowledgeTurn value = (s, none) ∧ s.outstanding = after ∧ s.buffer = q.stream.buffer
  released : ∀ values, values.map parseTurnAck = q.stream.outstanding.map some →
    ∃ s, q.stream.acknowledgeAll values = some s ∧ s.outstanding = [] ∧ s.buffer = q.stream.buffer ∧ s.CanPopHead

/-- **Flow control never wedges.** -/
theorem never_wedged (flowControl : FlowControl) (limitBytes priority : Int) (es : List QueueEvent) (q : QueueRun)
    (h : queueMachine.run (.start flowControl limitBytes priority) es = some q) (hturn : q.turn = none)
    (hactive : q.stream.active = true) (hover : q.stream.overloaded = false) (hbuf : q.stream.buffer ≠ []) :
    NeverWedged q := by
  have hinv := run_streamInv h
  have hflow := hinv.flow
  rw [hturn] at hflow
  have hh : q.stream.Healthy := ⟨hactive, hover⟩
  obtain ⟨head, rest, hb⟩ := List.exists_cons_of_ne_nil hbuf
  have hsize (he : head.isBinary = true) : head.byteCost ≤ terminalQueueBinaryPayloadMaxBytes := by
    obtain ⟨hle, hcost, -⟩ := hinv.wire.head hb he
    rw [hcost]; exact hle
  have htold (boundary : Nat × Nat) (hm : boundary ∈ q.stream.outstanding) : boundary ∈ q.sent :=
    (hflow.told hover boundary hm).resolve_right (by simp [notifying])
  refine ⟨?_, htold, ?_, fun values hv => hflow.accept_all hh hb hsize hv⟩
  · cases hout : q.stream.outstanding with
    | nil => exact .inl (hflow.progress hh hout hb hsize)
    | cons boundary boundaries =>
      have hm : boundary ∈ q.stream.outstanding := by rw [hout]; exact List.mem_cons_self ..
      exact .inr ⟨boundary, List.mem_cons_self .., htold boundary hm⟩
  · intro before boundary after value hout hp
    obtain ⟨s, ha, hs, hsb, -, -⟩ := hflow.accept hover hout hp
    exact ⟨s, ha, hs, hsb⟩

theorem never_wedged_waiting : ∃ q, queueMachine.run (.start .turnAck 0 0) (replayEvents ++ [.notify]) = some q ∧
    NeverWedged q ∧ q.stream.outstanding = [(8, 1)] :=
  ⟨_, rfl, never_wedged .turnAck 0 0 (replayEvents ++ [.notify]) _ rfl rfl rfl rfl (by decide), rfl⟩

end Webshell
