import Webshell.QueueStream

/-!
# What goes over the wire

`wireMachine` reads the entries of a stream as its client does, and stops at one
that does not continue what came before. Whatever the stream still holds or the
reader still has to put in it continues what was popped.
-/

namespace Webshell

open GoText

/-! ## Reading the wire -/

namespace QueueOutbound

/-- The cursor an entry leaves the client at, if it sets one. -/
def cursorMark (o : QueueOutbound) : Option Nat :=
  match o.payload with
  | .binary _ => some o.endCursor
  | .text none => none
  | .text (some message) =>
    if message.text "type" = "history-replay-start" then message.cursor "delta_from_cursor" else none

/-- A payload of a size that is sent, between the cursors it stands for. -/
def Framed (o : QueueOutbound) : Prop :=
  o.data ≠ [] ∧ o.data.length ≤ terminalQueueBinaryPayloadMaxBytes ∧ o.endCursor = o.startCursor + o.data.length ∧
    o.byteCost = o.data.length

instance (o : QueueOutbound) : Decidable o.Framed := inferInstanceAs (Decidable (_ ∧ _))

end QueueOutbound

def binaries (wire : List QueueOutbound) : List QueueOutbound := wire.filter QueueOutbound.isBinary

def sentBytes (wire : List QueueOutbound) : Bytes := wire.flatMap QueueOutbound.data

/-- The cursor of the client after `wire`. -/
def cursorAfter (wire : List QueueOutbound) : Option Nat := wire.foldl (fun cursor o => o.cursorMark.or cursor) none

structure WireState where
  cursor : Option Nat := none
  count : Nat := 0

def wireMachine : Machine WireState QueueOutbound where
  step w o :=
    if o.isBinary = true then
      if o.Framed ∧ o.binarySequence = w.count + 1 ∧ w.cursor = some o.startCursor then
        some { cursor := some o.endCursor, count := w.count + 1 }
      else none
    else some { w with cursor := o.cursorMark.or w.cursor }

theorem cursorMark_binary {o : QueueOutbound} (h : o.isBinary = true) : o.cursorMark = some o.endCursor := by
  unfold QueueOutbound.isBinary at h
  unfold QueueOutbound.cursorMark
  split at h
  · cases h
  · rename_i hp; rw [hp]

theorem data_text {o : QueueOutbound} (h : o.isBinary = false) : o.data = [] := by
  unfold QueueOutbound.isBinary at h
  unfold QueueOutbound.data
  split at h
  · rfl
  · cases h

theorem wire_step_binary {w w' : WireState} {o : QueueOutbound} (h : wireMachine.step w o = some w')
    (ho : o.isBinary = true) : o.Framed ∧ o.binarySequence = w.count + 1 ∧ w.cursor = some o.startCursor ∧
      w' = { cursor := some o.endCursor, count := w.count + 1 } := by
  simp only [wireMachine, ho, if_true] at h
  split at h
  · rename_i hc
    cases h; exact ⟨hc.1, hc.2.1, hc.2.2, rfl⟩
  · cases h

theorem wire_step_of {w : WireState} {o : QueueOutbound} (ho : o.isBinary = true) (hf : o.Framed)
    (hs : o.binarySequence = w.count + 1) (hc : w.cursor = some o.startCursor) :
    wireMachine.step w o = some { cursor := some o.endCursor, count := w.count + 1 } := by
  simp only [wireMachine, ho, if_true]
  exact if_pos ⟨hf, hs, hc⟩

theorem wire_step_text (w : WireState) {o : QueueOutbound} (ho : o.isBinary = false) :
    wireMachine.step w o = some { w with cursor := o.cursorMark.or w.cursor } := by
  simp [wireMachine, ho]

theorem wire_step_cursor {w w' : WireState} {o : QueueOutbound} (h : wireMachine.step w o = some w') :
    w'.cursor = o.cursorMark.or w.cursor := by
  cases ho : o.isBinary with
  | true => rw [(wire_step_binary h ho).2.2.2, cursorMark_binary ho]; rfl
  | false => rw [wire_step_text w ho] at h; cases h; rfl

theorem wire_run_cursor {w w' : WireState} {wire : List QueueOutbound} (h : wireMachine.run w wire = some w') :
    w'.cursor = wire.foldl (fun cursor o => o.cursorMark.or cursor) w.cursor := by
  induction wire generalizing w with
  | nil => rw [Machine.run_nil] at h; cases h; rfl
  | cons o wire ih =>
    obtain ⟨v, hv, hr⟩ := Machine.run_cons _ h
    rw [ih hr, List.foldl_cons, wire_step_cursor hv]

theorem wire_run_numbers {w w' : WireState} {wire : List QueueOutbound} (h : wireMachine.run w wire = some w') :
    (binaries wire).map QueueOutbound.binarySequence = List.range' (w.count + 1) (binaries wire).length ∧
      w'.count = w.count + (binaries wire).length := by
  induction wire generalizing w with
  | nil => rw [Machine.run_nil] at h; cases h; exact ⟨rfl, rfl⟩
  | cons o wire ih =>
    obtain ⟨v, hv, hr⟩ := Machine.run_cons _ h
    obtain ⟨hn, hc⟩ := ih hr
    cases ho : o.isBinary with
    | true =>
      obtain ⟨-, hs, -, rfl⟩ := wire_step_binary hv ho
      have hb : binaries (o :: wire) = o :: binaries wire := List.filter_cons_of_pos ho
      rw [hb, List.map_cons, List.length_cons, List.range'_succ, hs, hn]
      exact ⟨rfl, by rw [hc]; simp only; omega⟩
    | false =>
      rw [wire_step_text w ho] at hv; cases hv
      have hb : binaries (o :: wire) = binaries wire := List.filter_cons_of_neg (by simp [ho])
      rw [hb]
      exact ⟨hn, hc⟩

/-- Each binary entry read starts where the client was. -/
theorem wire_run_at {w : WireState} {before after : List QueueOutbound} {o : QueueOutbound}
    (h : wireMachine.run {} (before ++ o :: after) = some w) (ho : o.isBinary = true) :
    o.Framed ∧ cursorAfter before = some o.startCursor := by
  obtain ⟨v, hv, hr⟩ := Machine.run_split _ h
  obtain ⟨v', hs, -⟩ := Machine.run_cons _ hr
  obtain ⟨hf, -, hc, -⟩ := wire_step_binary hs ho
  exact ⟨hf, by rw [← hc, wire_run_cursor hv]; rfl⟩

theorem sentBytes_append (wire more : List QueueOutbound) : sentBytes (wire ++ more) = sentBytes wire ++ sentBytes more :=
  List.flatMap_append ..

/-! ## What the reader owes -/

namespace QueuePaneStream

def cursorAt (s : QueuePaneStream) : Option Nat := if s.hasCursor = true then some s.cursor else none

end QueuePaneStream

/-- The reader's work continues a wire read up to `w`, and brings `rest` to it; then the wire
is at the stream's own `cursor` and `count`. An overload ends everything. -/
def Owes (cursor : Option Nat) (count : Nat) : List QueueWork → Bytes → WireState → Prop
  | [], rest, w => rest = [] ∧ cursor = w.cursor ∧ count = w.count
  | .enqueueText _ :: works, rest, w => works = [] ∧ rest = [] ∧ cursor = w.cursor ∧ count = w.count
  | .enqueueBinary payload :: works, rest, w => works = [] ∧ rest = payload ∧ cursor = w.cursor ∧ count = w.count
  | .enqueueChunks start more :: works, rest, w =>
    works = [] ∧ rest = more ∧ w.cursor = some start ∧ cursor = some (start + more.length) ∧ count = w.count
  | .enqueue entry :: works, rest, w =>
    ∃ w' rest', wireMachine.step w entry = some w' ∧ rest = entry.data ++ rest' ∧ Owes cursor count works rest' w'
  | .overload _ :: _, _, _ => True
  | .signalWriter :: works, rest, w => Owes cursor count works rest w

theorem get_set {message : JsonObject} {key : String} {value : JsonValue} {other : String} (h : other ≠ key) :
    (message.set key value).get other = message.get other := by
  have hne : (other == key) = false := beq_eq_false_iff_ne.mpr h
  unfold JsonObject.set JsonObject.get
  simp only [List.lookup_cons, hne]
  induction message with
  | nil => rfl
  | cons entry message ih =>
    obtain ⟨k, v⟩ := entry
    by_cases hk : k = key
    · subst hk
      rw [List.filter_cons_of_neg (by simp), ih]
      simp only [List.lookup_cons, hne]
    · rw [List.filter_cons_of_pos (by simpa using hk)]
      simp only [List.lookup_cons, ih]

theorem text_set {message : JsonObject} {key : String} {value : JsonValue} {other : String} (h : other ≠ key) :
    (message.set key value).text other = message.text other := by
  unfold JsonObject.text
  rw [get_set h]

theorem cursorMark_start {o : QueueOutbound} {message : JsonObject} (hp : o.payload = .text (some message))
    (ht : message.text "type" = "history-replay-start") : o.cursorMark = message.cursor "delta_from_cursor" := by
  simp only [QueueOutbound.cursorMark, hp, ht, if_true]

theorem cursorMark_other {o : QueueOutbound} {message : JsonObject} (hp : o.payload = .text (some message))
    (ht : message.text "type" ≠ "history-replay-start") : o.cursorMark = none := by
  simp only [QueueOutbound.cursorMark, hp, if_neg ht]

theorem cursorAt_replayFrom (s : QueuePaneStream) (message : JsonObject) :
    (s.replayFrom message).cursorAt = (message.cursor "delta_from_cursor").or s.cursorAt := by
  unfold QueuePaneStream.replayFrom
  cases message.cursor "delta_from_cursor" with
  | none => rfl
  | some cursor => rfl

/-- A text sets the stream's cursor as its entry will set the client's. -/
theorem enqueueText_spec (s : QueuePaneStream) (frame : TextFrame) :
    (∃ reason, (s.enqueueText frame).2 = [.overload reason]) ∨
      ∃ entry, (s.enqueueText frame).2 = [.enqueue entry] ∧ entry.isBinary = false ∧
        (s.enqueueText frame).1.cursorAt = entry.cursorMark.or s.cursorAt := by
  obtain ⟨message, size, encoded⟩ := frame
  cases message with
  | none => exact .inr ⟨_, rfl, rfl, rfl⟩
  | some message =>
    by_cases hstart : message.text "type" = "history-replay-start"
    · right
      have hplain (entry : QueueOutbound) (hp : entry.payload = .text (some message)) :
          (s.replayFrom message).cursorAt = entry.cursorMark.or s.cursorAt := by
        rw [cursorAt_replayFrom, cursorMark_start hp hstart]
      have hburst (entry : QueueOutbound) (v : JsonValue)
          (hp : entry.payload = .text (some (message.set "replay_burst_bytes" v))) :
          (s.replayFrom message).cursorAt = entry.cursorMark.or s.cursorAt := by
        have htype : (message.set "replay_burst_bytes" v).text "type" = message.text "type" := text_set (by decide)
        rw [cursorAt_replayFrom, cursorMark_start hp (htype.trans hstart)]
        unfold JsonObject.cursor
        rw [text_set (by decide)]
      simp only [QueuePaneStream.enqueueText, hstart, if_true]
      split
      · split
        · exact ⟨_, rfl, rfl, hburst _ _ rfl⟩
        · exact ⟨_, rfl, rfl, hplain _ rfl⟩
      · exact ⟨_, rfl, rfl, hplain _ rfl⟩
    · have hother (entry : QueueOutbound) (hp : entry.payload = .text (some message)) :
          s.cursorAt = entry.cursorMark.or s.cursorAt := by
        rw [cursorMark_other hp hstart]; rfl
      simp only [QueuePaneStream.enqueueText, if_neg hstart]
      split
      · split
        · exact .inr ⟨_, rfl, rfl, hother _ rfl⟩
        · exact .inl ⟨_, rfl⟩
      · split
        · exact .inr ⟨_, rfl, rfl, hother _ rfl⟩
        · split <;> exact .inr ⟨_, rfl, rfl, hother _ rfl⟩

theorem Owes.text {entry : QueueOutbound} {cursor : Option Nat} {count : Nat} {w : WireState}
    (ht : entry.isBinary = false) (hc : cursor = entry.cursorMark.or w.cursor) (hn : count = w.count) :
    Owes cursor count [.enqueue entry] [] w :=
  ⟨_, [], wire_step_text w ht, by rw [data_text ht]; rfl, rfl, hc, hn⟩

theorem enqueueText_owes {s : QueuePaneStream} {w : WireState} (frame : TextFrame) (hc : s.cursorAt = w.cursor)
    (hn : s.binarySequence = w.count) :
    Owes (s.enqueueText frame).1.cursorAt (s.enqueueText frame).1.binarySequence (s.enqueueText frame).2 [] w := by
  rcases enqueueText_spec s frame with ⟨reason, hr⟩ | ⟨entry, he, ht, hcur⟩
  · rw [hr]; trivial
  · have hsame : (s.enqueueText frame).1.binarySequence = s.binarySequence := by
      obtain ⟨_, _, _, h⟩ := s.enqueueText_same frame
      rw [h]
    rw [he]
    exact .text ht (by rw [hcur, hc]) (hsame.trans hn)

theorem enqueueBinary_owes {s : QueuePaneStream} {w : WireState} (payload : Bytes) (hc : s.cursorAt = w.cursor)
    (hn : s.binarySequence = w.count) :
    Owes (s.enqueueBinary payload).1.cursorAt (s.enqueueBinary payload).1.binarySequence
      (s.enqueueBinary payload).2 payload w := by
  unfold QueuePaneStream.enqueueBinary
  split
  · rename_i hp
    exact ⟨hp, hc, hn⟩
  · split
    · trivial
    · rename_i hcur
      have hcur : s.hasCursor = true := by simpa using hcur
      split
      · trivial
      · have hat : s.cursorAt = some s.cursor := by simp [QueuePaneStream.cursorAt, hcur]
        refine ⟨rfl, rfl, hc.symm.trans hat, ?_, hn⟩
        simp [QueuePaneStream.cursorAt, hcur]

theorem enqueueChunks_owes {s : QueuePaneStream} {w : WireState} {start : Nat} {rest : Bytes}
    (hw : w.cursor = some start) (hc : s.cursorAt = some (start + rest.length)) (hn : s.binarySequence = w.count) :
    Owes (s.enqueueChunks start rest).1.cursorAt (s.enqueueChunks start rest).1.binarySequence
      (s.enqueueChunks start rest).2 rest w := by
  unfold QueuePaneStream.enqueueChunks
  split
  · rename_i hr
    subst hr
    exact ⟨rfl, by rw [hc, hw]; rfl, hn⟩
  · rename_i hr
    have hne : rest.take terminalQueueBinaryPayloadMaxBytes ≠ [] := by
      intro h
      rcases List.take_eq_nil_iff.mp h with h | h
      · exact absurd h (by decide)
      · exact hr h
    have hlen : (rest.take terminalQueueBinaryPayloadMaxBytes).length +
        (rest.drop terminalQueueBinaryPayloadMaxBytes).length = rest.length := by
      rw [← List.length_append, List.take_append_drop]
    refine ⟨{ cursor := some (start + (rest.take terminalQueueBinaryPayloadMaxBytes).length), count := w.count + 1 },
      rest.drop terminalQueueBinaryPayloadMaxBytes, ?_, (List.take_append_drop ..).symm, rfl, rfl, rfl, ?_, ?_⟩
    · exact wire_step_of rfl ⟨hne, List.length_take_le .., rfl, rfl⟩ (by simp only [hn]) hw
    · rw [Nat.add_assoc, hlen]; exact hc
    · simp only [hn]

/-- Work of the reader that neither pushes an entry nor gives the stream up. -/
theorem perform_owes {s : QueuePaneStream} {work : QueueWork} {works : List QueueWork} {rest : Bytes} {w : WireState}
    (h : Owes s.cursorAt s.binarySequence (work :: works) rest w) (hh : s.Healthy)
    (hsequence : (s.perform work).1.nextSequence = s.nextSequence) (hover : (s.perform work).1.overloaded = false) :
    Owes (s.perform work).1.cursorAt (s.perform work).1.binarySequence ((s.perform work).2 ++ works) rest w := by
  cases work with
  | enqueueText frame =>
    obtain ⟨rfl, rfl, hc, hn⟩ := h
    rw [List.append_nil]; exact enqueueText_owes frame hc hn
  | enqueueBinary payload =>
    obtain ⟨rfl, rfl, hc, hn⟩ := h
    rw [List.append_nil]; exact enqueueBinary_owes _ hc hn
  | enqueueChunks start more =>
    obtain ⟨rfl, rfl, hw, hc, hn⟩ := h
    rw [List.append_nil]; exact enqueueChunks_owes hw hc hn
  | enqueue entry =>
    have hne : ¬ (s.active = false ∨ s.overloaded = true) := by simp [hh.1, hh.2]
    simp only [QueuePaneStream.perform, QueuePaneStream.enqueue, if_neg hne] at hsequence ⊢
    split
    · trivial
    · rename_i hroom
      rw [if_neg hroom] at hsequence
      simp only [QueuePaneStream.push] at hsequence
      omega
  | overload reason =>
    simp [QueuePaneStream.perform, QueuePaneStream.overload, hh.1, hh.2, QueuePaneStream.giveUp] at hover
  | signalWriter => exact h

/-! ## What the broker puts in between -/

/-- Work that leaves the client's cursor alone and brings no bytes. -/
def Neutral : QueueWork → Prop
  | .enqueueText frame => ∃ (control : BrokerControl) (size : Nat), frame = control.frame size
  | .enqueue entry => entry.isBinary = false ∧ entry.cursorMark = none
  | .overload _ | .signalWriter => True
  | .enqueueBinary _ | .enqueueChunks .. => False

theorem enqueueText_brokerControl (s : QueuePaneStream) (control : BrokerControl) (size : Nat) :
    ∃ entry, s.enqueueText (control.frame size) = (s, [.enqueue entry]) ∧ entry.isBinary = false ∧
      entry.cursorMark = none := by
  cases control with
  | logicalAttachStart => exact ⟨_, rfl, rfl, rfl⟩
  | agentPreparing => exact ⟨_, rfl, rfl, rfl⟩
  | pong => exact ⟨_, rfl, rfl, rfl⟩

theorem perform_neutral {s : QueuePaneStream} {work : QueueWork} (h : Neutral work) :
    (s.perform work).1.cursorAt = s.cursorAt ∧ (s.perform work).1.binarySequence = s.binarySequence ∧
      ∀ next ∈ (s.perform work).2, Neutral next := by
  cases work with
  | enqueueText frame =>
    obtain ⟨control, size, rfl⟩ := h
    obtain ⟨entry, he, ht, hm⟩ := enqueueText_brokerControl s control size
    simp only [QueuePaneStream.perform, he, List.mem_singleton, forall_eq]
    exact ⟨trivial, trivial, ht, hm⟩
  | enqueueBinary payload => exact h.elim
  | enqueueChunks start rest => exact h.elim
  | enqueue entry =>
    simp only [QueuePaneStream.perform, QueuePaneStream.enqueue]
    split
    · simp
    · split
      · simp [Neutral]
      · exact ⟨rfl, rfl, by simp [Neutral]⟩
  | overload reason =>
    simp only [QueuePaneStream.perform, QueuePaneStream.overload]
    split
    · simp
    · exact ⟨rfl, rfl, by simp [Neutral]⟩
  | signalWriter => simp [QueuePaneStream.perform]

/-! ## What a step can do -/

/-- Nothing moves on the wire or for the reader. -/
structure Still (q q' : QueueRun) : Prop where
  wire : q'.popped ++ q'.stream.buffer = q.popped ++ q.stream.buffer
  out : q'.agentOut = q.agentOut
  reader : q'.reader = q.reader
  healthy : q'.stream.Healthy → q.stream.Healthy
  cursor : q'.stream.cursorAt = q.stream.cursorAt
  count : q'.stream.binarySequence = q.stream.binarySequence
  controls : ∃ more, q'.controls = q.controls ++ more ∧
    ∀ thread ∈ more, thread = [.signalWriter] ∨
      ∃ (control : BrokerControl) (size : Nat), thread = [.enqueueText (control.frame size)]

/-- What the reader is given by an event, and the bytes of it. -/
def AgentWork (q : QueueRun) (e : QueueEvent) (work : QueueWork) (payload : Bytes) : Prop :=
  (∃ frame, e = .agentText frame ∧ work = .enqueueText frame ∧ payload = []) ∨
  (e = .agentBinary payload ∧ work = .enqueueBinary payload) ∨
  (∃ err stderr selector message size, q.readErrorText err stderr selector = some message ∧
    work = .enqueueText { message := some message, size := size } ∧ payload = [])

theorem still_of {q q' : QueueRun} (hw : q'.popped ++ q'.stream.buffer = q.popped ++ q.stream.buffer)
    (ho : q'.agentOut = q.agentOut) (hr : q'.reader = q.reader) (hh : q'.stream.Healthy → q.stream.Healthy)
    (hcur : q'.stream.cursorAt = q.stream.cursorAt) (hn : q'.stream.binarySequence = q.stream.binarySequence)
    (hc : q'.controls = q.controls) : Still q q' :=
  ⟨hw, ho, hr, hh, hcur, hn, [], by simp [hc], by simp⟩

theorem still_snoc {q q' : QueueRun} {work : QueueWork} (hw : q'.popped ++ q'.stream.buffer = q.popped ++ q.stream.buffer)
    (ho : q'.agentOut = q.agentOut) (hr : q'.reader = q.reader) (hh : q'.stream.Healthy → q.stream.Healthy)
    (hcur : q'.stream.cursorAt = q.stream.cursorAt) (hn : q'.stream.binarySequence = q.stream.binarySequence)
    (hc : q'.controls = q.controls ++ [[work]])
    (hwork : work = .signalWriter ∨ ∃ (control : BrokerControl) (size : Nat), work = .enqueueText (control.frame size)) :
    Still q q' := by
  refine ⟨hw, ho, hr, hh, hcur, hn, [[work]], hc, fun thread ht => ?_⟩
  rw [List.mem_singleton.mp ht]
  rcases hwork with rfl | ⟨control, size, rfl⟩
  · exact .inl rfl
  · exact .inr ⟨control, size, rfl⟩

theorem popTurn_still {q q' : QueueRun} {timeUp : Bool} (hs : q.popTurn timeUp = some q') : Still q q' := by
  unfold QueueRun.popTurn at hs
  split at hs
  · split at hs
    · split at hs
      · cases hs
        exact still_of rfl rfl rfl (fun hq => hq) rfl rfl rfl
      · rename_i entry s hp
        cases hs
        obtain ⟨rest, hb, -, -, -, rfl⟩ := QueuePaneStream.popThrough_cases hp
        refine still_of ?_ rfl rfl (fun hq => hq) rfl rfl rfl
        simp only [QueuePaneStream.pop, hb, List.append_assoc, List.singleton_append]
    · cases hs
  · cases hs

theorem finishTurn_still {q q' : QueueRun} (hs : q.finishTurn = some q') : Still q q' := by
  have record (cursor sequence : Nat) : ∃ cursor' sequence', q.stream.recordTurn cursor sequence =
      { q.stream with pendingTurnCursor := cursor', pendingTurnSequence := sequence' } := by
    unfold QueuePaneStream.recordTurn
    split <;> exact ⟨_, _, rfl⟩
  unfold QueueRun.finishTurn at hs
  split at hs
  · rename_i t ht
    split at hs
    · obtain ⟨_, _, hr⟩ := record t.turnCursor t.turnSequence
      rcases q.stream.finishTurn_cases t.turnCursor t.turnSequence with ⟨-, hf⟩ | ⟨-, -, hf⟩ | ⟨-, -, -, hf⟩
      · rw [hf] at hs; cases hs
        exact still_of rfl rfl rfl (fun hq => hq) rfl rfl rfl
      · rw [hf, hr] at hs; cases hs
        exact still_of rfl rfl rfl (fun hq => hq) rfl rfl rfl
      · rw [hf, hr] at hs; cases hs
        exact still_of rfl rfl rfl (fun hq => hq) rfl rfl rfl
    · cases hs
  · cases hs

theorem acknowledgeTurn_still (q : QueueRun) (value : String) : Still q (q.acknowledgeTurn value) := by
  unfold QueueRun.acknowledgeTurn
  split
  · exact still_of rfl rfl rfl (fun hq => hq) rfl rfl rfl
  · rename_i s ha
    obtain ⟨_, _, -, ⟨-, -, -, rfl⟩ | ⟨-, _, _, _, -, -, rfl⟩ | ⟨-, -, -, -, rfl⟩⟩ :=
      QueuePaneStream.acknowledgeTurn_accepted ha
    · exact still_snoc rfl rfl rfl (fun hq => hq) rfl rfl rfl (.inl rfl)
    · exact still_snoc rfl rfl rfl (fun hq => hq) rfl rfl rfl (.inl rfl)
    · exact still_snoc rfl rfl rfl (fun hq => hq) rfl rfl rfl (.inl rfl)

/-- All that a step does to the wire. -/
theorem queue_step_cases {q q' : QueueRun} {e : QueueEvent} (hs : queueMachine.step q e = some q') :
    Still q q' ∨ (∃ thread, q.controlStep thread = some q') ∨ q.readerStep = some q' ∨
      q' = { q with stream := q.stream.deactivate } ∨
      ∃ phase work payload, AgentWork q e work payload ∧ q.reader = [] ∧
        q' = { q with phase := phase, reader := [work], agentOut := q.agentOut ++ payload } := by
  cases e with
  | capacity =>
    simp only [queueMachine, QueueRun.capacity] at hs
    split at hs
    · cases hs; exact .inl (still_of rfl rfl rfl (fun hq => hq) rfl rfl rfl)
    · cases hs
  | agentText frame =>
    simp only [queueMachine, QueueRun.agentFrame] at hs
    split at hs
    · rename_i hc
      cases hs
      exact .inr (.inr (.inr (.inr ⟨_, _, _, .inl ⟨frame, rfl, rfl, rfl⟩, hc.1, rfl⟩)))
    · cases hs
  | agentBinary payload =>
    simp only [queueMachine, QueueRun.agentFrame] at hs
    split at hs
    · rename_i hc
      cases hs
      exact .inr (.inr (.inr (.inr ⟨_, _, _, .inr (.inl ⟨rfl, rfl⟩), hc.1, rfl⟩)))
    · cases hs
  | readError err stderr selector size =>
    simp only [queueMachine, QueueRun.readError] at hs
    split at hs
    · rename_i hc
      split at hs
      · cases hs; exact .inl (still_of rfl rfl rfl (fun hq => hq) rfl rfl rfl)
      · rename_i message hm
        cases hs
        refine .inr (.inr (.inr (.inr ⟨.closed, _, [], .inr (.inr ⟨err, stderr, selector, message, size, hm, rfl, rfl⟩),
          hc.1, ?_⟩)))
        rw [List.append_nil]
    · cases hs
  | readerStep => exact .inr (.inr (.inl hs))
  | brokerControl control size =>
    cases hs
    exact .inl (still_snoc rfl rfl rfl (fun hq => hq) rfl rfl rfl (.inr ⟨control, size, rfl⟩))
  | controlStep thread => exact .inr (.inl ⟨thread, hs⟩)
  | acknowledgeTurn value =>
    simp only [queueMachine, Option.some.injEq] at hs
    exact .inl (hs ▸ acknowledgeTurn_still q value)
  | setPriority priority =>
    simp only [queueMachine, Option.some.injEq] at hs
    subst hs
    exact .inl (still_snoc rfl rfl rfl (fun hq => hq) rfl rfl rfl (.inl rfl))
  | registered =>
    cases hs
    exact .inl (still_snoc rfl rfl rfl (fun hq => hq) rfl rfl rfl (.inl rfl))
  | deactivate => cases hs; exact .inr (.inr (.inr (.inl rfl)))
  | beginTurn =>
    simp only [queueMachine, QueueRun.beginTurn] at hs
    split at hs
    · cases hs
    · split at hs
      · cases hs; exact .inl (still_of rfl rfl rfl (fun hq => hq) rfl rfl rfl)
      · cases hs; exact .inl (still_of rfl rfl rfl (fun hq => hq) rfl rfl rfl)
  | pop timeUp => exact .inl (popTurn_still hs)
  | finishTurn => exact .inl (finishTurn_still hs)
  | notify =>
    simp only [queueMachine, QueueRun.notify] at hs
    split at hs
    · cases hs; exact .inl (still_of rfl rfl rfl (fun hq => hq) rfl rfl rfl)
    · cases hs

/-! ## The invariant -/

/-- What was popped and what is held continue each other, and the reader's work continues both. -/
structure WireInv (q : QueueRun) : Prop where
  wired : ∃ w rest, wireMachine.run {} (q.popped ++ q.stream.buffer) = some w ∧
    q.agentOut = sentBytes (q.popped ++ q.stream.buffer) ++ rest ∧
    (q.stream.Healthy → Owes q.stream.cursorAt q.stream.binarySequence q.reader rest w)
  neutral : ∀ thread ∈ q.controls, ∀ work ∈ thread, Neutral work

theorem start_wireInv (flowControl : FlowControl) (limitBytes priority : Int) :
    WireInv (QueueRun.start flowControl limitBytes priority) where
  wired := ⟨{}, [], rfl, rfl, fun _ => ⟨rfl, rfl, rfl⟩⟩
  neutral := by intro thread h; cases h

namespace WireInv

variable {q q' : QueueRun}

/-- A step that moves nothing. -/
theorem frame (h : WireInv q) (hw : q'.popped ++ q'.stream.buffer = q.popped ++ q.stream.buffer)
    (ho : q'.agentOut = q.agentOut) (hr : q'.reader = q.reader) (hh : q'.stream.Healthy → q.stream.Healthy)
    (hcur : q'.stream.cursorAt = q.stream.cursorAt) (hn : q'.stream.binarySequence = q.stream.binarySequence)
    (hc : ∀ thread ∈ q'.controls, ∀ work ∈ thread, Neutral work) : WireInv q' where
  wired := by
    obtain ⟨w, rest, hrun, hout, howes⟩ := h.wired
    refine ⟨w, rest, by rw [hw]; exact hrun, by rw [ho, hw]; exact hout, fun hq => ?_⟩
    rw [hcur, hn, hr]
    exact howes (hh hq)
  neutral := hc

/-- A text that sets no cursor is put in the buffer. -/
theorem text (h : WireInv q) {o : QueueOutbound} (ht : o.isBinary = false) (hm : o.cursorMark = none)
    (hw : q'.popped ++ q'.stream.buffer = q.popped ++ q.stream.buffer ++ [o])
    (ho : q'.agentOut = q.agentOut) (hr : q'.reader = q.reader) (hh : q'.stream.Healthy → q.stream.Healthy)
    (hcur : q'.stream.cursorAt = q.stream.cursorAt) (hn : q'.stream.binarySequence = q.stream.binarySequence)
    (hc : ∀ thread ∈ q'.controls, ∀ work ∈ thread, Neutral work) : WireInv q' where
  wired := by
    obtain ⟨w, rest, hrun, hout, howes⟩ := h.wired
    have hstep : wireMachine.step w o = some w := by rw [wire_step_text w ht, hm]; rfl
    have hbytes : sentBytes [o] = [] := by simp [sentBytes, data_text ht]
    rw [hw, sentBytes_append, hbytes, List.append_nil, ho, hcur, hn, hr]
    exact ⟨w, rest, Machine.run_append _ hrun (Machine.run_cons_of_step _ [] hstep), hout, fun hq => howes (hh hq)⟩
  neutral := hc

/-- The buffer is dropped, for at most one text, and the stream is not healthy any more. -/
theorem drop (h : WireInv q) (hp : q'.popped = q.popped) (ho : q'.agentOut = q.agentOut)
    (hs : q'.stream.buffer = [] ∨ ∃ o : QueueOutbound, q'.stream.buffer = [o] ∧ o.isBinary = false)
    (hh : ¬ q'.stream.Healthy) (hc : ∀ thread ∈ q'.controls, ∀ work ∈ thread, Neutral work) : WireInv q' where
  wired := by
    obtain ⟨w, rest, hrun, hout, -⟩ := h.wired
    obtain ⟨v, hv, -⟩ := Machine.run_split _ hrun
    rw [sentBytes_append, List.append_assoc] at hout
    rw [ho, hp]
    rcases hs with hs | ⟨o, hs, htext⟩
    · rw [hs, List.append_nil]
      exact ⟨v, _, hv, hout, fun hq => absurd hq hh⟩
    · have hbytes : sentBytes [o] = [] := by simp [sentBytes, data_text htext]
      rw [hs, sentBytes_append, hbytes, List.append_nil]
      exact ⟨_, _, Machine.run_append _ hv (Machine.run_cons_of_step _ [] (wire_step_text v htext)), hout,
        fun hq => absurd hq hh⟩
  neutral := hc

theorem giveUp (h : WireInv q) (reason : String) (hs : q'.stream = q.stream.giveUp reason) (hp : q'.popped = q.popped)
    (ho : q'.agentOut = q.agentOut) (hc : ∀ thread ∈ q'.controls, ∀ work ∈ thread, Neutral work) : WireInv q' := by
  refine h.drop hp ho (.inr ⟨QueuePaneStream.overloadEntry reason (q.stream.nextSequence + 1), ?_, rfl⟩) ?_ hc
  · rw [hs]; rfl
  · rw [hs]; exact fun hq => absurd hq.2 (by simp [QueuePaneStream.giveUp])

/-- The broker's own work puts at most a text in the stream. -/
theorem controlStep (h : WireInv q) {thread : Nat} (hs : q.controlStep thread = some q') : WireInv q' := by
  unfold QueueRun.controlStep at hs
  split at hs
  · cases hs
  · cases hs
  · rename_i work works hw
    have hmem : (work :: works) ∈ q.controls := List.mem_of_getElem? hw
    have hn := h.neutral _ hmem
    have hwork := hn work (List.mem_cons_self ..)
    obtain ⟨hcur, hseq, hnext⟩ := perform_neutral (s := q.stream) hwork
    have hcontrols : ∀ t ∈ q.controls.set thread ((q.stream.perform work).2 ++ works), ∀ work ∈ t, Neutral work := by
      intro t ht next hx
      rcases List.mem_or_eq_of_mem_set ht with ht | rfl
      · exact h.neutral t ht next hx
      · rcases List.mem_append.mp hx with hx | hx
        · exact hnext next hx
        · exact hn next (List.mem_cons_of_mem _ hx)
    cases hs
    rcases q.stream.perform_cases work with ⟨_, _, _, _, hp⟩ | ⟨entry, rfl, hh, hp⟩ | ⟨reason, rfl, -, hp⟩
    · refine h.frame ?_ rfl rfl ?_ hcur hseq hcontrols
      · simp only [hp]
      · simp only [hp]; exact fun hq => hq
    · refine h.text (o := { entry with sequence := q.stream.nextSequence + 1 }) hwork.1 hwork.2 ?_ rfl rfl
        (fun _ => hh) hcur hseq hcontrols
      simp only [hp, QueuePaneStream.push, List.append_assoc]
    · exact h.giveUp reason (by simp only [hp]) rfl rfl hcontrols

/-- The reader brings what it owes. -/
theorem readerStep (h : WireInv q) (hs : q.readerStep = some q') : WireInv q' := by
  unfold QueueRun.readerStep at hs
  split at hs
  · cases hs
  · rename_i work works hw
    cases hs
    obtain ⟨w, rest, hrun, hout, howes⟩ := h.wired
    rw [hw] at howes
    rcases q.stream.perform_cases work with ⟨_, _, _, _, hp⟩ | ⟨entry, rfl, hh, hp⟩ | ⟨reason, rfl, -, hp⟩
    · refine ⟨⟨w, rest, ?_, ?_, fun hq => ?_⟩, h.neutral⟩
      · simp only [hp]; exact hrun
      · simp only [hp]; exact hout
      · have hh : q.stream.Healthy := by rw [hp] at hq; exact hq
        exact perform_owes (howes hh) hh (by rw [hp]) (by rw [hp]; exact hh.2)
    · obtain ⟨w', rest', hstep, rfl, hnext⟩ := howes hh
      have hbytes : sentBytes [{ entry with sequence := q.stream.nextSequence + 1 }] = entry.data := by
        simp [sentBytes, QueueOutbound.data]
      simp only [hp, QueuePaneStream.push]
      refine ⟨⟨w', rest', ?_, ?_, fun _ => hnext⟩, h.neutral⟩
      · rw [← List.append_assoc]
        exact Machine.run_append _ hrun (Machine.run_cons_of_step _ [] hstep)
      · rw [← List.append_assoc, sentBytes_append, hbytes, List.append_assoc]
        exact hout
    · exact h.giveUp reason (by simp only [hp]) rfl rfl h.neutral

/-- A frame read from the agent is work for the reader. -/
theorem agentFrame (h : WireInv q) {payload : Bytes} {work : QueueWork} {phase : ReaderPhase} (hr : q.reader = [])
    (hw : ∀ (cursor : Option Nat) (count : Nat) (w : WireState), cursor = w.cursor → count = w.count →
      Owes cursor count [work] payload w) :
    WireInv { q with phase := phase, reader := [work], agentOut := q.agentOut ++ payload } where
  wired := by
    obtain ⟨w, rest, hrun, hout, howes⟩ := h.wired
    refine ⟨w, rest ++ payload, hrun, ?_, fun hq => ?_⟩
    · simp only [hout, List.append_assoc]
    · have ho := howes hq
      rw [hr] at ho
      obtain ⟨rfl, hc, hn⟩ := ho
      exact hw _ _ w hc hn
  neutral := h.neutral

/-- **Step lemma.** -/
theorem step (h : WireInv q) {e : QueueEvent} (hs : queueMachine.step q e = some q') : WireInv q' := by
  rcases queue_step_cases hs with hq | ⟨thread, hq⟩ | hq | rfl | ⟨phase, work, payload, hw, hr, rfl⟩
  · refine h.frame hq.wire hq.out hq.reader hq.healthy hq.cursor hq.count ?_
    obtain ⟨more, hc, hmore⟩ := hq.controls
    intro thread ht work hwork
    rw [hc] at ht
    rcases List.mem_append.mp ht with ht | ht
    · exact h.neutral thread ht work hwork
    · rcases hmore thread ht with rfl | ⟨control, size, rfl⟩
      · cases List.mem_singleton.mp hwork; trivial
      · cases List.mem_singleton.mp hwork; exact ⟨control, size, rfl⟩
  · exact h.controlStep hq
  · exact h.readerStep hq
  · exact h.drop rfl rfl (.inl rfl) (fun hq => absurd hq.1 (by simp [QueuePaneStream.deactivate])) h.neutral
  · apply h.agentFrame hr
    intro cursor count w hc hn
    rcases hw with ⟨frame, -, rfl, rfl⟩ | ⟨-, rfl⟩ | ⟨_, _, _, _, _, -, rfl, rfl⟩
    · exact ⟨rfl, rfl, hc, hn⟩
    · exact ⟨rfl, rfl, hc, hn⟩
    · exact ⟨rfl, rfl, hc, hn⟩

end WireInv

theorem run_wireInv {flowControl : FlowControl} {limitBytes priority : Int} {es : List QueueEvent} {q : QueueRun}
    (h : queueMachine.run (.start flowControl limitBytes priority) es = some q) : WireInv q :=
  Machine.run_inv queueMachine (fun _ _ _ hq hs => hq.step hs) h (start_wireInv flowControl limitBytes priority)

/-- What was popped is in order: the binary entries are numbered from 1, each has a payload of
a size that is sent and continues the client's cursor, and together they are the first of the
agent's bytes. -/
structure Faithful (popped : List QueueOutbound) (agentOut : Bytes) : Prop where
  numbered : (binaries popped).map QueueOutbound.binarySequence = List.range' 1 (binaries popped).length
  framed : ∀ o ∈ binaries popped, o.data ≠ [] ∧ o.data.length ≤ terminalQueueBinaryPayloadMaxBytes ∧
    o.endCursor - o.startCursor = o.data.length ∧ o.startCursor ≤ o.endCursor
  continues : ∀ before o after, popped = before ++ o :: after → o.isBinary = true →
    cursorAfter before = some o.startCursor
  bytes : sentBytes popped <+: agentOut

/-- **The wire is faithful.** In every run of a stream, what the writer popped is in order. -/
theorem popped_faithful (flowControl : FlowControl) (limitBytes priority : Int) (es : List QueueEvent) (q : QueueRun)
    (h : queueMachine.run (.start flowControl limitBytes priority) es = some q) : Faithful q.popped q.agentOut := by
  obtain ⟨w, rest, hrun, hout, -⟩ := (run_wireInv h).wired
  obtain ⟨v, hv, -⟩ := Machine.run_split _ hrun
  constructor
  · exact (wire_run_numbers hv).1
  · intro o ho
    obtain ⟨hmem, hb⟩ := List.mem_filter.mp ho
    obtain ⟨before, after, he⟩ := List.append_of_mem hmem
    rw [he] at hv
    obtain ⟨hne, hle, hcur, -⟩ := (wire_run_at hv hb).1
    exact ⟨hne, hle, by omega, by omega⟩
  · intro before o after he hb
    rw [he] at hv
    exact (wire_run_at hv hb).2
  · rw [hout, sentBytes_append, List.append_assoc]
    exact List.prefix_append _ _

/-- A replayed byte range of four bytes in two frames, popped in two turns. -/
def replayEvents : List QueueEvent :=
  [.capacity, .agentText { message := some [("type", .str "history-replay-start"), ("delta_from_cursor", .str "5")], size := 10 },
    .readerStep, .readerStep, .readerStep, .capacity, .agentBinary [1, 2, 3], .readerStep, .readerStep, .beginTurn,
    .readerStep, .pop false, .readerStep, .pop false, .finishTurn, .brokerControl .pong 15, .controlStep 0, .controlStep 0,
    .readerStep, .capacity, .agentBinary [4], .readerStep, .readerStep, .readerStep, .readerStep, .readerStep, .beginTurn,
    .pop false, .pop true, .finishTurn]

theorem popped_faithful_replay : ∃ q, queueMachine.run (.start .window 0 0) replayEvents = some q ∧
    Faithful q.popped q.agentOut ∧ sentBytes q.popped = [1, 2, 3] :=
  ⟨_, rfl, popped_faithful .window 0 0 replayEvents _ rfl, rfl⟩

end Webshell
