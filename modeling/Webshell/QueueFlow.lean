import Webshell.Credit
import Webshell.QueueWire

/-!
# Flow control of a queue stream

Under window flow control the credit out is a ledger over the sizes popped: one
mark for each boundary the client was told of. Between two turns a stream that
may not send has a boundary the client was told of and has not acknowledged.
-/

namespace Webshell

open GoText Credit

/-- The payload lengths of the binary entries. -/
def binarySizes (wire : List QueueOutbound) : List Nat := (binaries wire).map fun o => o.data.length

theorem binarySizes_binary (wire : List QueueOutbound) {o : QueueOutbound} (h : o.isBinary = true) :
    binarySizes (wire ++ [o]) = binarySizes wire ++ [o.data.length] := by
  simp [binarySizes, binaries, h]

theorem binarySizes_text (wire : List QueueOutbound) {o : QueueOutbound} (h : o.isBinary = false) :
    binarySizes (wire ++ [o]) = binarySizes wire := by
  simp [binarySizes, binaries, h]

/-! ## The invariant -/

/-- The number of the last binary entry of a turn whose end is not recorded yet. -/
def unrecorded : Option Turn → Nat
  | none => 0
  | some t =>
    match t.phase with
    | .notifying _ => 0
    | _ => t.turnSequence

/-- The boundary about to be sent to the client. -/
def notifying : Option Turn → Option (Nat × Nat)
  | none => none
  | some t =>
    match t.phase with
    | .notifying boundary => some boundary
    | _ => none

/-- No turn has an end still to be recorded. -/
def Recorded (turn : Option Turn) : Prop := ∀ t, turn = some t → ∃ boundary, t.phase = .notifying boundary

def Turn.Open (t : Turn) : Prop := t.phase = .popping ∨ t.phase = .finishing

theorem Turn.Open.unrecorded {t : Turn} (h : t.Open) : unrecorded (some t) = t.turnSequence := by
  rcases h with h | h <;> simp [Webshell.unrecorded, h]

theorem Turn.Open.notifying {t : Turn} (h : t.Open) : notifying (some t) = none := by
  rcases h with h | h <;> simp [Webshell.notifying, h]

theorem Turn.Open.not_recorded {t : Turn} (h : t.Open) : ¬ Recorded (some t) := by
  intro hr
  obtain ⟨boundary, hb⟩ := hr t rfl
  rcases h with h | h <;> rw [h] at hb <;> cases hb

namespace QueuePaneStream

/-- The boundaries the client was told of and has still to acknowledge. -/
def outstanding (s : QueuePaneStream) : List (Nat × Nat) :=
  match s.flowControl with
  | .none => []
  | .turnAck => if s.awaitingTurnAck = true then [(s.turnAckCursor, s.turnAckSequence)] else []
  | .window => s.window.boundaries.map fun b => (b.cursor, b.sequence)

/-- The position of the last boundary. -/
def marked (s : QueuePaneStream) : Nat := closed ConsumedBoundary.sequence s.window.ackSequence s.window.boundaries

end QueuePaneStream

/-- The sequences of the entries held. -/
structure Sorted (s : QueuePaneStream) : Prop where
  ascending : (s.buffer.map QueueOutbound.sequence).Pairwise (· < ·)
  assigned : ∀ o ∈ s.buffer, 0 < o.sequence ∧ o.sequence ≤ s.nextSequence

/-- The credit that is out, while the stream is not given up. -/
structure Accounted (s : QueuePaneStream) (popped : List QueueOutbound) (turn : Option Turn) (lastAck : Option (Nat × Nat)) :
    Prop where
  ledger : Ledger ConsumedBoundary.sequence ConsumedBoundary.bytes (binarySizes popped) s.window.ackSequence
    s.window.boundaries s.window.currentTurnBytes
  inFlight : s.window.inFlight = ((binarySizes popped).drop s.window.ackSequence).sum
  lastAck : lastAck.getD (0, 0) = (s.window.ackCursor, s.window.ackSequence)
  /-- What was popped since the last boundary is to come under the next one. -/
  pending : s.active = true → (if unrecorded turn = 0 then s.pendingTurnSequence else unrecorded turn) =
    if s.marked < (binarySizes popped).length then (binarySizes popped).length else 0

structure FlowInv (flowControl : FlowControl) (s : QueuePaneStream) (popped : List QueueOutbound) (turn : Option Turn)
    (sent : List (Nat × Nat)) (lastAck : Option (Nat × Nat)) : Prop where
  mode : s.flowControl = flowControl ∧ (s.awaitingTurnAck = true → s.flowControl = .turnAck)
  sorted : Sorted s
  accounted : s.usesWindow = true → s.overloaded = false → Accounted s popped turn lastAck
  /-- A turn ends with nothing pending, but in a replay burst. -/
  settled : s.Healthy → Recorded turn → s.replayBurstActive = false → s.pendingTurnSequence = 0
  told : s.overloaded = false → ∀ boundary ∈ s.outstanding, boundary ∈ sent ∨ notifying turn = some boundary

theorem start_flowInv (flowControl : FlowControl) (limitBytes priority : Int) :
    FlowInv flowControl (.start flowControl limitBytes priority) [] none [] none where
  mode := ⟨rfl, fun ha => by cases ha⟩
  sorted := ⟨.nil, fun _ h => by cases h⟩
  accounted _ _ := ⟨Ledger.empty, rfl, rfl, fun _ => rfl⟩
  settled _ _ _ := rfl
  told := by
    intro _ boundary hb
    cases flowControl <;> cases hb

namespace FlowInv

variable {flowControl : FlowControl} {s : QueuePaneStream} {popped : List QueueOutbound} {turn : Option Turn} {sent : List (Nat × Nat)}
  {lastAck : Option (Nat × Nat)}

/-! ## Work on the buffer -/

theorem quiet (h : FlowInv flowControl s popped turn sent lastAck) (terminalControl hasCursor : Bool)
    (cursor binarySequence priority : Nat) :
    FlowInv flowControl
      { s with terminalControl := terminalControl, hasCursor := hasCursor, cursor := cursor
               binarySequence := binarySequence, priority := priority } popped turn sent lastAck :=
  ⟨h.mode, ⟨h.sorted.1, h.sorted.2⟩, fun hw ho => ⟨(h.accounted hw ho).1, (h.accounted hw ho).2, (h.accounted hw ho).3,
    (h.accounted hw ho).4⟩, h.settled, h.told⟩

theorem sorted_push (h : Sorted s) (entry : QueueOutbound) : Sorted (s.push entry) where
  ascending := by
    simp only [QueuePaneStream.push, List.map_append, List.map_cons, List.map_nil]
    refine List.pairwise_append.mpr ⟨h.ascending, List.pairwise_singleton .., ?_⟩
    intro a ha b hb
    obtain ⟨o, ho, rfl⟩ := List.mem_map.mp ha
    have hle := (h.assigned o ho).2
    rw [List.mem_singleton.mp hb]
    exact Nat.lt_succ_of_le hle
  assigned := by
    intro o ho
    rcases List.mem_append.mp ho with ho | ho
    · have hle := h.assigned o ho
      exact ⟨hle.1, Nat.le_succ_of_le hle.2⟩
    · rw [List.mem_singleton.mp ho]
      exact ⟨Nat.succ_pos _, Nat.le_refl _⟩

theorem push (h : FlowInv flowControl s popped turn sent lastAck) (entry : QueueOutbound) :
    FlowInv flowControl (s.push entry) popped turn sent lastAck :=
  ⟨h.mode, sorted_push h.sorted entry, fun hw ho => ⟨(h.accounted hw ho).1, (h.accounted hw ho).2, (h.accounted hw ho).3,
    (h.accounted hw ho).4⟩, h.settled, h.told⟩

theorem giveUp (h : FlowInv flowControl s popped turn sent lastAck) (reason : String) :
    FlowInv flowControl (s.giveUp reason) popped turn sent lastAck where
  mode := ⟨h.mode.1, fun ha => by cases ha⟩
  sorted := by
    refine ⟨List.pairwise_singleton .., fun o ho => ?_⟩
    rw [List.mem_singleton.mp ho]
    exact ⟨Nat.succ_pos _, Nat.le_refl _⟩
  accounted _ ho := by cases ho
  settled hh := by cases hh.2
  told ho := by cases ho

theorem perform (h : FlowInv flowControl s popped turn sent lastAck) (work : QueueWork) :
    FlowInv flowControl (s.perform work).1 popped turn sent lastAck := by
  rcases s.perform_cases work with ⟨_, _, _, _, hp⟩ | ⟨entry, -, -, hp⟩ | ⟨reason, -, -, hp⟩
  · rw [hp]; exact h.quiet ..
  · rw [hp]; exact h.push entry
  · rw [hp]; exact h.giveUp reason

theorem deactivate (h : FlowInv flowControl s popped turn sent lastAck) :
    FlowInv flowControl s.deactivate popped turn sent lastAck where
  mode := h.mode
  sorted := ⟨.nil, fun _ ho => by cases ho⟩
  accounted hw ho :=
    ⟨(h.accounted hw ho).1, (h.accounted hw ho).2, (h.accounted hw ho).3, fun ha => by cases ha⟩
  settled hh := by cases hh.1
  told := h.told

/-! ## Acknowledgements -/

theorem release (h : FlowInv flowControl s popped turn sent lastAck) (hw : s.usesWindow = true)
    {before after : List ConsumedBoundary} {b : ConsumedBoundary} (hb : s.window.boundaries = before ++ b :: after) :
    FlowInv flowControl (s.release b.cursor b.sequence ((before ++ [b]).map ConsumedBoundary.bytes).sum after) popped
      turn sent (some (b.cursor, b.sequence)) where
  mode := h.mode
  sorted := ⟨h.sorted.1, h.sorted.2⟩
  accounted _ ho := by
    have hacc := h.accounted hw ho
    have hledger := hacc.ledger
    rw [hb] at hledger
    refine ⟨hledger.release, ?_, rfl, fun ha => ?_⟩
    · exact (congrArg (· - _) hacc.inFlight).trans hledger.returned
    · have hmarked : (s.release b.cursor b.sequence ((before ++ [b]).map ConsumedBoundary.bytes).sum after).marked =
          s.marked := by
        unfold QueuePaneStream.marked
        rw [hb, closed_split]; rfl
      rw [hmarked]; exact hacc.pending ha
  settled := h.settled
  told := by
    have hf : s.flowControl = .window := by simpa [QueuePaneStream.usesWindow] using hw
    intro ho boundary hm
    refine h.told ho boundary ?_
    simp only [QueuePaneStream.outstanding, QueuePaneStream.release, hf] at hm ⊢
    obtain ⟨c, hc, rfl⟩ := List.mem_map.mp hm
    rw [hb]
    exact List.mem_map.mpr ⟨c, List.mem_append_right _ (List.mem_cons_of_mem _ hc), rfl⟩

theorem acknowledge (h : FlowInv flowControl s popped turn sent lastAck) {s' : QueuePaneStream} {value : String}
    (ha : s.acknowledgeTurn value = (s', none)) : FlowInv flowControl s' popped turn sent (parseTurnAck value) := by
  obtain ⟨cursor, sequence, hp, hcases⟩ := QueuePaneStream.acknowledgeTurn_accepted ha
  rw [hp]
  rcases hcases with ⟨hw, rfl, rfl, rfl⟩ | ⟨hw, before, b, after, hb, hname, rfl⟩ | ⟨hf, -, -, -, rfl⟩
  · exact ⟨h.mode, h.sorted, fun hw ho => ⟨(h.accounted hw ho).1, (h.accounted hw ho).2, rfl, (h.accounted hw ho).4⟩,
      h.settled, h.told⟩
  · cases hname
    exact h.release hw hb
  · have hw : s.usesWindow = false := by simp [QueuePaneStream.usesWindow, hf]
    refine ⟨⟨h.mode.1, fun _ => hf⟩, ⟨h.sorted.1, h.sorted.2⟩, fun hw' => ?_, h.settled, fun _ boundary hm => ?_⟩
    · exact absurd (hw'.symm.trans hw) (by decide)
    · simp [QueuePaneStream.outstanding, hf] at hm

/-! ## Turns -/

theorem begin (h : FlowInv flowControl s popped none sent lastAck) (target : Nat) :
    FlowInv flowControl s popped (some { target := target }) sent lastAck where
  mode := h.mode
  sorted := h.sorted
  accounted hw ho := ⟨(h.accounted hw ho).1, (h.accounted hw ho).2, (h.accounted hw ho).3, (h.accounted hw ho).4⟩
  settled _ hr := absurd hr (Turn.Open.not_recorded (.inl rfl))
  told := h.told

theorem sorted_tail {entry : QueueOutbound} {rest : List QueueOutbound} (h : Sorted s) (hb : s.buffer = entry :: rest) :
    Sorted (s.pop entry rest) where
  ascending := by
    have ha := h.ascending
    rw [hb, List.map_cons] at ha
    exact (List.pairwise_cons.mp ha).2
  assigned o ho := h.assigned o (hb ▸ List.mem_cons_of_mem _ ho)

/-- The popped entry is on the account of the turn. -/
theorem accounted_pop {t t' : Turn} {entry : QueueOutbound} {rest : List QueueOutbound}
    (h : Accounted s popped (some t) lastAck) (hw : s.usesWindow = true) (ht : t.Open) (ht' : t'.Open)
    (hturn : t'.turnSequence = if entry.isBinary then entry.binarySequence else t.turnSequence)
    (hbin : entry.isBinary = true →
      entry.byteCost = entry.data.length ∧ entry.binarySequence = (binarySizes popped).length + 1) :
    Accounted (s.pop entry rest) (popped ++ [entry]) (some t') lastAck := by
  cases he : entry.isBinary with
  | true =>
    obtain ⟨hcost, hseq⟩ := hbin he
    have hwindow : (s.pop entry rest).window = { s.window with
        inFlight := s.window.inFlight + entry.byteCost
        currentTurnBytes := s.window.currentTurnBytes + entry.byteCost } := by
      simp [QueuePaneStream.pop, hw, he]
    have hclosed := h.ledger.closed_le
    have hstart := h.ledger.start_le
    constructor
    · rw [hwindow, binarySizes_binary popped he, hcost]
      exact h.ledger.take _
    · rw [hwindow, binarySizes_binary popped he, List.drop_append_of_le_length hstart, List.sum_append]
      simp only [h.inFlight, hcost, List.sum_singleton, Int.natCast_add]
    · rw [hwindow]; exact h.lastAck
    · intro _
      have hmarked : (s.pop entry rest).marked = s.marked := by
        unfold QueuePaneStream.marked
        rw [hwindow]
      have hlt : s.marked < (binarySizes (popped ++ [entry])).length := by
        rw [binarySizes_binary popped he, List.length_append]
        exact Nat.lt_succ_of_le hclosed
      rw [hmarked, if_pos hlt, ht'.unrecorded, hturn, he, if_pos rfl, if_neg (by omega), hseq,
        binarySizes_binary popped he, List.length_append, List.length_singleton]
  | false =>
    have hwindow : (s.pop entry rest).window = s.window := by simp [QueuePaneStream.pop, he]
    constructor
    · rw [hwindow, binarySizes_text popped he]; exact h.ledger
    · rw [hwindow, binarySizes_text popped he]; exact h.inFlight
    · rw [hwindow]; exact h.lastAck
    · intro ha
      have hp := h.pending ha
      rw [ht.unrecorded] at hp
      rw [ht'.unrecorded, hturn, he]
      have hmarked : (s.pop entry rest).marked = s.marked := by
        unfold QueuePaneStream.marked
        rw [hwindow]
      rw [hmarked, binarySizes_text popped he]
      exact hp

theorem pop {t t' : Turn} {entry : QueueOutbound} {rest : List QueueOutbound}
    (h : FlowInv flowControl s popped (some t) sent lastAck) (hb : s.buffer = entry :: rest) (ht : t.Open) (ht' : t'.Open)
    (hturn : t'.turnSequence = if entry.isBinary then entry.binarySequence else t.turnSequence)
    (hbin : entry.isBinary = true →
      entry.byteCost = entry.data.length ∧ entry.binarySequence = (binarySizes popped).length + 1) :
    FlowInv flowControl (s.pop entry rest) (popped ++ [entry]) (some t') sent lastAck where
  mode := h.mode
  sorted := sorted_tail h.sorted hb
  accounted hw ho := accounted_pop (h.accounted hw ho) hw ht ht' hturn hbin
  settled _ hr := absurd hr ht'.not_recorded
  told ho boundary hm := by
    have hsame : (s.pop entry rest).outstanding = s.outstanding := by
      unfold QueuePaneStream.outstanding QueuePaneStream.pop
      cases s.flowControl with
      | none => rfl
      | turnAck => rfl
      | window => simp only; split <;> rfl
    rw [hsame] at hm
    have htold := h.told ho boundary hm
    rw [ht.notifying] at htold
    rw [ht'.notifying]
    exact htold

theorem stopPopping {t : Turn} (h : FlowInv flowControl s popped (some t) sent lastAck) (ht : t.Open) :
    FlowInv flowControl s popped (some { t with phase := .finishing }) sent lastAck where
  mode := h.mode
  sorted := h.sorted
  accounted hw ho := by
    have hacc := h.accounted hw ho
    refine ⟨hacc.1, hacc.2, hacc.3, fun ha => ?_⟩
    have hp := hacc.pending ha
    rw [ht.unrecorded] at hp
    exact hp
  settled _ hr := absurd hr (Turn.Open.not_recorded (.inr rfl))
  told ho boundary hm := by
    have htold := h.told ho boundary hm
    rw [ht.notifying] at htold
    exact htold

theorem recordTurn_eq (s : QueuePaneStream) (cursor sequence : Nat) : ∃ pendingCursor, s.recordTurn cursor sequence =
    { s with pendingTurnCursor := pendingCursor
             pendingTurnSequence := if sequence = 0 then s.pendingTurnSequence else sequence } := by
  unfold QueuePaneStream.recordTurn
  by_cases h : sequence = 0
  · simp only [h, ne_eq, not_true_eq_false, if_false, if_true]
    exact ⟨_, rfl⟩
  · simp only [h, ne_eq, not_false_eq_true, if_true, if_false]
    exact ⟨_, rfl⟩

/-- The end of a turn recorded. -/
theorem record {t : Turn} (h : FlowInv flowControl s popped (some t) sent lastAck) (ht : t.Open) (cursor : Nat) :
    ((s.recordTurn cursor t.turnSequence).flowControl = flowControl ∧
      ((s.recordTurn cursor t.turnSequence).awaitingTurnAck = true →
        (s.recordTurn cursor t.turnSequence).flowControl = .turnAck)) ∧
    Sorted (s.recordTurn cursor t.turnSequence) ∧
    ((s.recordTurn cursor t.turnSequence).usesWindow = true → (s.recordTurn cursor t.turnSequence).overloaded = false →
      Accounted (s.recordTurn cursor t.turnSequence) popped none lastAck) ∧
    ((s.recordTurn cursor t.turnSequence).overloaded = false →
      ∀ boundary ∈ (s.recordTurn cursor t.turnSequence).outstanding, boundary ∈ sent) := by
  obtain ⟨_, hr⟩ := recordTurn_eq s cursor t.turnSequence
  rw [hr]
  refine ⟨h.mode, ⟨h.sorted.1, h.sorted.2⟩, fun hw ho => ?_, fun ho boundary hm => ?_⟩
  · have hacc := h.accounted hw ho
    refine ⟨hacc.1, hacc.2, hacc.3, fun ha => ?_⟩
    have hp := hacc.pending ha
    rw [ht.unrecorded] at hp
    exact hp
  · have htold := h.told ho boundary hm
    rw [ht.notifying] at htold
    exact htold.resolve_right (by simp)

/-- The pending turn's end becomes a boundary: the credit of the turns since the last one goes under it. -/
theorem accounted_close {turn : Option Turn} (h : Accounted s popped none lastAck) (hw : s.usesWindow = true)
    (ha : s.active = true) (hp : s.pendingTurnSequence ≠ 0) (hturn : unrecorded turn = 0) :
    Accounted s.closeTurn popped turn lastAck := by
  have hpend : s.pendingTurnSequence = if s.marked < (binarySizes popped).length then (binarySizes popped).length else 0 :=
    h.pending ha
  have hlt : s.marked < (binarySizes popped).length := by
    by_contra hn
    rw [if_neg hn] at hpend
    exact hp hpend
  rw [if_pos hlt] at hpend
  have hwindow : s.closeTurn.window = { s.window with
      boundaries := s.window.boundaries ++
        [{ cursor := s.pendingTurnCursor, sequence := s.pendingTurnSequence, bytes := s.window.currentTurnBytes }]
      currentTurnBytes := 0 } := by
    simp only [QueuePaneStream.closeTurn, hw, if_true]
  constructor
  · rw [hwindow]
    exact h.ledger.mark hlt hpend rfl
  · rw [hwindow]; exact h.inFlight
  · rw [hwindow]; exact h.lastAck
  · intro _
    have hmarked : s.closeTurn.marked = (binarySizes popped).length := by
      unfold QueuePaneStream.marked
      rw [hwindow, closed_append]; exact hpend
    rw [hturn, if_pos rfl, hmarked, if_neg (Nat.lt_irrefl _)]; rfl

theorem waits_close (h : s.awaitingTurnAck = true → s.flowControl = .turnAck) :
    s.closeTurn.awaitingTurnAck = true → s.closeTurn.flowControl = .turnAck := by
  intro ha
  by_cases hf : s.flowControl = .turnAck
  · exact hf
  · simp only [QueuePaneStream.closeTurn, if_neg hf] at ha
    exact h ha

theorem outstanding_close {boundary : Nat × Nat} (h : boundary ∈ s.closeTurn.outstanding) :
    boundary ∈ s.outstanding ∨ boundary = (s.pendingTurnCursor, s.pendingTurnSequence) := by
  unfold QueuePaneStream.outstanding at h ⊢
  have hf : s.closeTurn.flowControl = s.flowControl := rfl
  rw [hf] at h
  cases hflow : s.flowControl with
  | none => rw [hflow] at h; cases h
  | turnAck =>
    rw [hflow] at h
    simp only [QueuePaneStream.closeTurn, hflow, if_true] at h
    exact .inr (List.mem_singleton.mp h)
  | window =>
    rw [hflow] at h
    simp only [QueuePaneStream.closeTurn, QueuePaneStream.usesWindow, hflow, decide_true, if_true, List.map_append,
      List.map_cons, List.map_nil] at h
    rcases List.mem_append.mp h with h | h
    · exact .inl h
    · exact .inr (List.mem_singleton.mp h)

theorem finish {t : Turn} (h : FlowInv flowControl s popped (some t) sent lastAck) (ht : t.Open) {s' : QueuePaneStream}
    {boundary : Option (Nat × Nat)} (hf : s.finishTurn t.turnCursor t.turnSequence = (s', boundary)) :
    FlowInv flowControl s' popped (boundary.map fun boundary => { t with phase := .notifying boundary }) sent lastAck := by
  obtain ⟨hmode, hsorted, hacc, htold⟩ := h.record ht t.turnCursor
  rcases s.finishTurn_cases t.turnCursor t.turnSequence with ⟨hn, he⟩ | ⟨-, hend, he⟩ | ⟨hh, hburst, hpending, he⟩
  · rw [he] at hf; cases hf
    refine ⟨h.mode, h.sorted, fun hw ho => ?_, fun hh => absurd hh hn, fun ho b hm => ?_⟩
    · exact ⟨(h.accounted hw ho).1, (h.accounted hw ho).2, (h.accounted hw ho).3, fun ha => absurd ⟨ha, ho⟩ hn⟩
    · have := h.told ho b hm
      rw [ht.notifying] at this
      exact this
  · rw [he] at hf; cases hf
    refine ⟨hmode, hsorted, hacc, fun _ _ hb => ?_, fun ho b hm => .inl (htold ho b hm)⟩
    exact hend.resolve_left (by rw [hb]; decide)
  · rw [he] at hf; cases hf
    have hactive : (s.recordTurn t.turnCursor t.turnSequence).active = true := by
      obtain ⟨_, hr⟩ := recordTurn_eq s t.turnCursor t.turnSequence
      rw [hr]; exact hh.1
    refine ⟨⟨hmode.1, waits_close hmode.2⟩, ⟨hsorted.1, hsorted.2⟩, fun hw ho => ?_, fun _ _ _ => rfl, fun ho b hm => ?_⟩
    · exact accounted_close (hacc hw ho) hw hactive hpending rfl
    · rcases outstanding_close hm with hm | rfl
      · exact .inl (htold ho b hm)
      · exact .inr rfl

theorem notify {t : Turn} {boundary : Nat × Nat} (h : FlowInv flowControl s popped (some t) sent lastAck)
    (ht : t.phase = .notifying boundary) : FlowInv flowControl s popped none (sent ++ [boundary]) lastAck where
  mode := h.mode
  sorted := h.sorted
  accounted hw ho := by
    have hacc := h.accounted hw ho
    refine ⟨hacc.1, hacc.2, hacc.3, fun ha => ?_⟩
    have hp := hacc.pending ha
    have hu : unrecorded (some t) = 0 := by simp [unrecorded, ht]
    rw [hu] at hp
    exact hp
  settled hh _ hb := by
    refine h.settled hh (fun t' he => ?_) hb
    cases he
    exact ⟨boundary, ht⟩
  told ho b hm := by
    have hn : notifying (some t) = some boundary := by simp [notifying, ht]
    rcases h.told ho b hm with hb | hb
    · exact .inl (List.mem_append_left _ hb)
    · rw [hn] at hb
      cases hb
      exact .inl (List.mem_append_right _ (List.mem_singleton_self _))

end FlowInv

/-! ## Runs -/

/-- What the wire invariant says of the next entry popped. -/
theorem WireInv.head {q : QueueRun} (h : WireInv q) {entry : QueueOutbound} {rest : List QueueOutbound}
    (hb : q.stream.buffer = entry :: rest) (he : entry.isBinary = true) :
    entry.data.length ≤ terminalQueueBinaryPayloadMaxBytes ∧ entry.byteCost = entry.data.length ∧
      entry.binarySequence = (binarySizes q.popped).length + 1 := by
  obtain ⟨w, _, hrun, -, -⟩ := h.wired
  rw [hb] at hrun
  obtain ⟨v, hv, hr⟩ := Machine.run_split _ hrun
  obtain ⟨v', hs, -⟩ := Machine.run_cons _ hr
  obtain ⟨⟨-, hle, -, hcost⟩, hseq, -, -⟩ := wire_step_binary hs he
  refine ⟨hle, hcost, ?_⟩
  rw [hseq, (wire_run_numbers hv).2]
  simp [binarySizes]

structure StreamInv (flowControl : FlowControl) (q : QueueRun) : Prop where
  wire : WireInv q
  flow : FlowInv flowControl q.stream q.popped q.turn q.sent q.lastAck

namespace StreamInv

variable {flowControl : FlowControl} {q q' : QueueRun}

theorem popTurn (h : StreamInv flowControl q) {timeUp : Bool} (hs : q.popTurn timeUp = some q') :
    FlowInv flowControl q'.stream q'.popped q'.turn q'.sent q'.lastAck := by
  have hflow := h.flow
  unfold QueueRun.popTurn at hs
  split at hs
  · rename_i t ht
    rw [ht] at hflow
    split at hs
    · rename_i hphase
      have hopen : t.Open := .inl hphase
      split at hs
      · cases hs
        exact hflow.stopPopping hopen
      · rename_i entry s hp
        cases hs
        obtain ⟨rest, hb, -, -, -, rfl⟩ := QueuePaneStream.popThrough_cases hp
        refine hflow.pop hb hopen ?_ ?_ fun he => (h.wire.head hb he).2
        · unfold Turn.Open
          simp only
          split
          · exact .inr rfl
          · exact .inl rfl
        · cases entry.isBinary <;> rfl
    · cases hs
  · cases hs

theorem flow_step (h : StreamInv flowControl q) {e : QueueEvent} (hs : queueMachine.step q e = some q') :
    FlowInv flowControl q'.stream q'.popped q'.turn q'.sent q'.lastAck := by
  have hflow := h.flow
  cases e with
  | capacity =>
    simp only [queueMachine, QueueRun.capacity] at hs
    split at hs
    · cases hs; exact hflow
    · cases hs
  | agentText frame =>
    simp only [queueMachine, QueueRun.agentFrame] at hs
    split at hs
    · cases hs; exact hflow
    · cases hs
  | agentBinary payload =>
    simp only [queueMachine, QueueRun.agentFrame] at hs
    split at hs
    · cases hs; exact hflow
    · cases hs
  | readError err stderr selector size =>
    simp only [queueMachine, QueueRun.readError] at hs
    split at hs
    · split at hs <;> cases hs <;> exact hflow
    · cases hs
  | readerStep =>
    simp only [queueMachine, QueueRun.readerStep] at hs
    split at hs
    · cases hs
    · cases hs; exact hflow.perform _
  | brokerControl control size => cases hs; exact hflow
  | controlStep thread =>
    simp only [queueMachine, QueueRun.controlStep] at hs
    split at hs
    · cases hs
    · cases hs
    · cases hs; exact hflow.perform _
  | acknowledgeTurn value =>
    simp only [queueMachine, Option.some.injEq] at hs
    subst hs
    unfold QueueRun.acknowledgeTurn
    split
    · exact hflow
    · rename_i s ha
      dsimp only
      exact hflow.acknowledge ha
  | setPriority priority =>
    simp only [queueMachine, Option.some.injEq] at hs
    subst hs
    exact hflow.quiet ..
  | registered => cases hs; exact hflow
  | deactivate => cases hs; exact hflow.deactivate
  | beginTurn =>
    simp only [queueMachine, QueueRun.beginTurn] at hs
    split at hs
    · cases hs
    · rename_i ht
      rw [ht] at hflow
      split at hs
      · cases hs; rw [ht]; exact hflow
      · cases hs; exact hflow.begin _
  | pop timeUp => exact h.popTurn hs
  | finishTurn =>
    simp only [queueMachine, QueueRun.finishTurn] at hs
    split at hs
    · rename_i t ht
      rw [ht] at hflow
      split at hs
      · rename_i hphase
        split at hs
        · rename_i s hf
          cases hs; exact hflow.finish (.inr hphase) hf
        · rename_i s boundary hf
          cases hs; exact hflow.finish (.inr hphase) hf
      · cases hs
    · cases hs
  | notify =>
    simp only [queueMachine, QueueRun.notify] at hs
    split at hs
    · rename_i ht
      rw [ht] at hflow
      cases hs; exact hflow.notify rfl
    · cases hs

theorem step (h : StreamInv flowControl q) {e : QueueEvent} (hs : queueMachine.step q e = some q') : StreamInv flowControl q' :=
  ⟨h.wire.step hs, h.flow_step hs⟩

end StreamInv

theorem run_streamInv {flowControl : FlowControl} {limitBytes priority : Int} {es : List QueueEvent} {q : QueueRun}
    (h : queueMachine.run (.start flowControl limitBytes priority) es = some q) :
    StreamInv flowControl q :=
  Machine.run_inv queueMachine (fun _ _ _ hq hs => hq.step hs) h
    ⟨start_wireInv flowControl limitBytes priority, start_flowInv flowControl limitBytes priority⟩

end Webshell
