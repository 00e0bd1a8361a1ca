import Webshell.QueuePresented

/-!
# Both ends of the queue

A run of a stream on the server, and the browser's logical stream that is
given what it writes: the browser takes every message.
-/

namespace Webshell

open GoText

/-! ## Texts the browser reads as the server does -/

/-- The type is a string, and the cursor of a replay's start or end is a decimal string. -/
structure Plain (message : JsonObject) : Prop where
  type : ∃ t, message.get "type" = some (.str t) ∧ trimSpace t = t
  start : message.get "type" = some (.str "history-replay-start") →
    ∃ t n, message.get "delta_from_cursor" = some (.str t) ∧ parseUint t = some n
  complete : message.get "type" = some (.str "history-replay-complete") →
    ∃ t n, message.get "history_cursor" = some (.str t) ∧ parseUint t = some n

def PlainFrame (message : Option JsonObject) : Prop := ∃ m, message = some m ∧ Plain m

def PlainText (o : QueueOutbound) : Prop := ∀ message, o.payload = .text message → PlainFrame message

/-- A replay completion is at the cursor of the client. -/
def Completes (o : QueueOutbound) (cursor : Option Nat) : Prop :=
  ∀ message, o.payload = .text (some message) → message.text "type" = "history-replay-complete" →
    cursor ≠ none ∧ message.cursor "history_cursor" = cursor

theorem plain_typed {t : String} (ht : trimSpace t = t) (hs : t ≠ "history-replay-start")
    (hc : t ≠ "history-replay-complete") {message : JsonObject} (h : message.get "type" = some (.str t)) : Plain message where
  type := ⟨t, h, ht⟩
  start := by rw [h]; intro he; cases he; exact absurd rfl hs
  complete := by rw [h]; intro he; cases he; exact absurd rfl hc

theorem Plain.set {message : JsonObject} (h : Plain message) (value : JsonValue) :
    Plain (message.set "replay_burst_bytes" value) where
  type := by rw [get_set (by decide)]; exact h.type
  start := by rw [get_set (by decide), get_set (by decide)]; exact h.start
  complete := by rw [get_set (by decide), get_set (by decide)]; exact h.complete

theorem completes_other {o : QueueOutbound} {message : JsonObject} (hp : o.payload = .text (some message))
    (ht : message.text "type" ≠ "history-replay-complete") (cursor : Option Nat) : Completes o cursor := by
  intro m hm hc
  rw [hp] at hm
  cases hm
  exact absurd hc ht

theorem completes_binary {o : QueueOutbound} (h : o.isBinary = true) (cursor : Option Nat) : Completes o cursor := by
  intro m hm
  unfold QueueOutbound.isBinary at h
  rw [hm] at h
  cases h

theorem plainText_binary {o : QueueOutbound} (h : o.isBinary = true) : PlainText o := by
  intro m hm
  unfold QueueOutbound.isBinary at h
  rw [hm] at h
  cases h

/-! ## The server's texts -/

def PlainWork : QueueWork → Prop
  | .enqueueText frame => PlainFrame frame.message
  | .enqueue entry => PlainText entry
  | _ => True

/-- Work on the broker's own texts. -/
def BrokerWork : QueueWork → Prop
  | .enqueueText frame => ∃ (control : BrokerControl) (size : Nat), frame = control.frame size
  | .enqueue entry => ∃ (control : BrokerControl) (size : Nat), entry.payload = .text (control.frame size).message
  | .overload _ | .signalWriter => True
  | .enqueueBinary _ | .enqueueChunks .. => False

/-- A text the reader is about to put in the buffer completes at the stream's cursor. -/
def ReaderReady (cursor : Option Nat) (works : List QueueWork) : Prop :=
  ∀ entry, .enqueue entry ∈ works → entry.isBinary = true ∨ works = [.enqueue entry] ∧ Completes entry cursor

theorem brokerControl_plain (control : BrokerControl) (size : Nat) : PlainFrame (control.frame size).message := by
  cases control with
  | logicalAttachStart => exact ⟨_, rfl, plain_typed (t := "logical-attach-start") (by decide) (by decide) (by decide) rfl⟩
  | agentPreparing => exact ⟨_, rfl, plain_typed (t := "agent-preparing") (by decide) (by decide) (by decide) rfl⟩
  | pong => exact ⟨_, rfl, plain_typed (t := "pong") (by decide) (by decide) (by decide) rfl⟩

theorem brokerControl_completes {o : QueueOutbound} (control : BrokerControl) (size : Nat)
    (h : o.payload = .text (control.frame size).message) (cursor : Option Nat) : Completes o cursor := by
  cases control with
  | logicalAttachStart => exact completes_other h (by decide) cursor
  | agentPreparing => exact completes_other h (by decide) cursor
  | pong => exact completes_other h (by decide) cursor

theorem perform_broker {s : QueuePaneStream} {work : QueueWork} (h : BrokerWork work) :
    ∀ next ∈ (s.perform work).2, BrokerWork next := by
  cases work with
  | enqueueText frame =>
    obtain ⟨control, size, rfl⟩ := h
    have hp : ∃ entry, (s.enqueueText (control.frame size)).2 = [.enqueue entry] ∧
        entry.payload = .text (control.frame size).message := by
      cases control with
      | logicalAttachStart => exact ⟨_, rfl, rfl⟩
      | agentPreparing => exact ⟨_, rfl, rfl⟩
      | pong => exact ⟨_, rfl, rfl⟩
    obtain ⟨entry, he, hpay⟩ := hp
    simp only [QueuePaneStream.perform, he, List.mem_singleton, forall_eq]
    exact ⟨control, size, hpay⟩
  | enqueueBinary payload => exact h.elim
  | enqueueChunks start rest => exact h.elim
  | enqueue entry =>
    simp only [QueuePaneStream.perform, QueuePaneStream.enqueue]
    split
    · simp
    · split <;> simp [BrokerWork]
  | overload reason =>
    simp only [QueuePaneStream.perform, QueuePaneStream.overload]
    split <;> simp [BrokerWork]
  | signalWriter => simp [QueuePaneStream.perform]

theorem overloadEntry_plain (reason : String) (sequence : Nat) :
    PlainText (QueuePaneStream.overloadEntry reason sequence) := by
  intro message hm
  cases hm
  exact ⟨_, rfl, plain_typed (t := "connection-error") (by decide) (by decide) (by decide) rfl⟩

theorem overloadEntry_completes (reason : String) (sequence : Nat) (cursor : Option Nat) :
    Completes (QueuePaneStream.overloadEntry reason sequence) cursor := by
  apply completes_other rfl
  show trimSpace "connection-error" ≠ _
  decide

theorem readErrorText_plain {q : QueueRun} {err stderr selector : String} {message : JsonObject}
    (h : q.readErrorText err stderr selector = some message) : Plain message := by
  have herror (text : String) : Plain (AgentConnectionErrorPayload text) :=
    plain_typed (t := "connection-error") (by decide) (by decide) (by decide) rfl
  unfold QueueRun.readErrorText at h
  split at h
  · split at h
    · cases h
      exact plain_typed (t := "workspace-refresh-required") (by decide) (by decide) (by decide) rfl
    · split at h
      · cases h; exact herror _
      · cases h
  · split at h
    · cases h; exact herror _
    · cases h

/-- What `enqueueText` makes of a plain text. -/
theorem enqueueText_ready {s : QueuePaneStream} {frame : TextFrame} (h : PlainFrame frame.message) :
    (∃ reason, (s.enqueueText frame).2 = [.overload reason]) ∨
      ∃ entry, (s.enqueueText frame).2 = [.enqueue entry] ∧ PlainText entry ∧
        Completes entry (s.enqueueText frame).1.cursorAt := by
  obtain ⟨m, size, encoded⟩ := frame
  obtain ⟨message, rfl, hplain⟩ := h
  have plain (entry : QueueOutbound) (hp : entry.payload = .text (some message)) : PlainText entry := by
    intro m hm
    rw [hp] at hm
    cases hm
    exact ⟨message, rfl, hplain⟩
  by_cases hstart : message.text "type" = "history-replay-start"
  · right
    have hne : message.text "type" ≠ "history-replay-complete" := by rw [hstart]; decide
    simp only [QueuePaneStream.enqueueText, hstart, if_true]
    split
    · split
      · refine ⟨_, rfl, ?_, completes_other rfl ?_ _⟩
        · intro m hm
          cases hm
          exact ⟨_, rfl, hplain.set _⟩
        · rw [text_set (by decide)]; exact hne
      · exact ⟨_, rfl, plain _ rfl, completes_other rfl hne _⟩
    · exact ⟨_, rfl, plain _ rfl, completes_other rfl hne _⟩
  · simp only [QueuePaneStream.enqueueText, if_neg hstart]
    split
    · split
      · rename_i hc
        refine .inr ⟨_, rfl, plain _ rfl, ?_⟩
        intro m hm _
        cases hm
        simp [QueuePaneStream.cursorAt, hc.1, hc.2]
      · exact .inl ⟨_, rfl⟩
    · rename_i hne
      split
      · exact .inr ⟨_, rfl, plain _ rfl, completes_other rfl hne _⟩
      · split <;> exact .inr ⟨_, rfl, plain _ rfl, completes_other rfl hne _⟩

/-! ## The server's invariant -/

/-- All texts are plain, and every replay completes where the client is. -/
structure AgreeInv (q : QueueRun) : Prop where
  wired : WireInv q
  texts : ∀ o ∈ q.popped ++ q.stream.buffer, PlainText o
  completes : ∀ before o after, q.popped ++ q.stream.buffer = before ++ o :: after → Completes o (cursorAfter before)
  reader : ∀ work ∈ q.reader, PlainWork work
  ready : q.stream.Healthy → ReaderReady q.stream.cursorAt q.reader
  broker : ∀ thread ∈ q.controls, ∀ work ∈ thread, BrokerWork work

theorem texts_snoc {wire : List QueueOutbound} (h : ∀ o ∈ wire, PlainText o) {o : QueueOutbound} (ho : PlainText o) :
    ∀ p ∈ wire ++ [o], PlainText p := by
  intro p hp
  rcases List.mem_append.mp hp with hp | hp
  · exact h p hp
  · rw [List.mem_singleton.mp hp]; exact ho

theorem start_agreeInv (flowControl : FlowControl) (limitBytes priority : Int) :
    AgreeInv (QueueRun.start flowControl limitBytes priority) where
  wired := start_wireInv flowControl limitBytes priority
  texts := by intro o h; cases h
  completes := by intro before o after h; simp [QueueRun.start, QueuePaneStream.start] at h
  reader := by intro work h; cases h
  ready := by intro _ entry h; cases h
  broker := by intro thread h; cases h

namespace AgreeInv

variable {q q' : QueueRun}

theorem still (h : AgreeInv q) (hw : WireInv q') (hs : Still q q') : AgreeInv q' where
  wired := hw
  texts := by rw [hs.wire]; exact h.texts
  completes := by rw [hs.wire]; exact h.completes
  reader := by rw [hs.reader]; exact h.reader
  ready := by rw [hs.reader, hs.cursor]; exact fun hq => h.ready (hs.healthy hq)
  broker := by
    obtain ⟨more, hc, hmore⟩ := hs.controls
    intro thread ht work hwork
    rw [hc] at ht
    rcases List.mem_append.mp ht with ht | ht
    · exact h.broker thread ht work hwork
    · rcases hmore thread ht with rfl | ⟨control, size, rfl⟩
      · cases List.mem_singleton.mp hwork; trivial
      · cases List.mem_singleton.mp hwork; exact ⟨control, size, rfl⟩

/-- The stream drops what it holds, for at most its connection error, and is not healthy any more. -/
theorem drop (h : AgreeInv q) (hw : WireInv q') (hp : q'.popped = q.popped)
    (hb : q'.stream.buffer = [] ∨ ∃ reason sequence, q'.stream.buffer = [QueuePaneStream.overloadEntry reason sequence])
    (hh : ¬ q'.stream.Healthy) (hr : ∀ work ∈ q'.reader, PlainWork work)
    (hc : ∀ thread ∈ q'.controls, ∀ work ∈ thread, BrokerWork work) : AgreeInv q' := by
  have texts : ∀ o ∈ q.popped, PlainText o := fun o ho => h.texts o (List.mem_append_left _ ho)
  have completes : ∀ before o after, q.popped = before ++ o :: after → Completes o (cursorAfter before) := by
    intro before o after he
    exact h.completes before o (after ++ q.stream.buffer) (by rw [he, List.append_assoc]; rfl)
  refine ⟨hw, ?_, ?_, hr, fun hq => absurd hq hh, hc⟩
  · rcases hb with hb | ⟨reason, sequence, hb⟩
    · rw [hp, hb, List.append_nil]; exact texts
    · rw [hp, hb]; exact texts_snoc texts (overloadEntry_plain _ _)
  · rcases hb with hb | ⟨reason, sequence, hb⟩
    · rw [hp, hb, List.append_nil]; exact completes
    · rw [hp, hb]; exact Log.concat completes (overloadEntry_completes _ _ _)

theorem giveUp (h : AgreeInv q) (hw : WireInv q') (reason : String) (hs : q'.stream = q.stream.giveUp reason)
    (hp : q'.popped = q.popped) (hr : ∀ work ∈ q'.reader, PlainWork work)
    (hc : ∀ thread ∈ q'.controls, ∀ work ∈ thread, BrokerWork work) : AgreeInv q' := by
  refine h.drop hw hp (.inr ⟨reason, _, by rw [hs]; rfl⟩) ?_ hr hc
  rw [hs]
  exact fun hq => absurd hq.2 (by simp [QueuePaneStream.giveUp])

theorem controlStep (h : AgreeInv q) {thread : Nat} (hs : q.controlStep thread = some q') : AgreeInv q' := by
  have hw := h.wired.controlStep hs
  unfold QueueRun.controlStep at hs
  split at hs
  · cases hs
  · cases hs
  · rename_i work works hx
    have hmem : (work :: works) ∈ q.controls := List.mem_of_getElem? hx
    have hb := h.broker _ hmem
    have hwork := hb work (List.mem_cons_self ..)
    obtain ⟨hcur, -, -⟩ := perform_neutral (s := q.stream) (h.wired.neutral _ hmem work (List.mem_cons_self ..))
    have hcontrols : ∀ t ∈ q.controls.set thread ((q.stream.perform work).2 ++ works), ∀ work ∈ t, BrokerWork work := by
      intro t ht next hn
      rcases List.mem_or_eq_of_mem_set ht with ht | rfl
      · exact h.broker t ht next hn
      · rcases List.mem_append.mp hn with hn | hn
        · exact perform_broker hwork next hn
        · exact hb next (List.mem_cons_of_mem _ hn)
    cases hs
    rcases q.stream.perform_cases work with ⟨_, _, _, _, hp⟩ | ⟨entry, rfl, hh, hp⟩ | ⟨reason, rfl, -, hp⟩
    · refine ⟨hw, ?_, ?_, h.reader, fun hq => ?_, hcontrols⟩
      · simp only [hp]; exact h.texts
      · simp only [hp]; exact h.completes
      · rw [hcur]
        exact h.ready (by rw [hp] at hq; exact hq)
    · obtain ⟨control, size, hpay⟩ := hwork
      refine ⟨hw, ?_, ?_, h.reader, fun _ => ?_, hcontrols⟩
      · simp only [hp, QueuePaneStream.push]
        rw [← List.append_assoc]
        refine texts_snoc h.texts fun m hm => ?_
        obtain rfl : (control.frame size).message = m := by
          have := hpay.symm.trans hm
          cases this; rfl
        exact brokerControl_plain control size
      · simp only [hp, QueuePaneStream.push]
        rw [← List.append_assoc]
        exact Log.concat h.completes (brokerControl_completes control size hpay _)
      · rw [hcur]; exact h.ready hh
    · exact h.giveUp hw reason (by simp only [hp]) rfl h.reader hcontrols

theorem perform_plain {s : QueuePaneStream} {work : QueueWork} (h : PlainWork work) :
    ∀ next ∈ (s.perform work).2, PlainWork next := by
  cases work with
  | enqueueText frame =>
    simp only [QueuePaneStream.perform]
    rcases enqueueText_ready (s := s) h with ⟨reason, he⟩ | ⟨entry, he, hplain, -⟩
    · rw [he]; simp [PlainWork]
    · rw [he]; simpa [PlainWork] using hplain
  | enqueueBinary payload =>
    simp only [QueuePaneStream.perform, QueuePaneStream.enqueueBinary]
    split
    · simp
    · split
      · simp [PlainWork]
      · split <;> simp [PlainWork]
  | enqueueChunks start more =>
    simp only [QueuePaneStream.perform, QueuePaneStream.enqueueChunks]
    split
    · simp
    · intro next hn
      rcases List.mem_cons.mp hn with rfl | hn
      · exact plainText_binary rfl
      · cases List.mem_singleton.mp hn; trivial
  | enqueue entry =>
    simp only [QueuePaneStream.perform, QueuePaneStream.enqueue]
    split
    · simp
    · split <;> simp [PlainWork]
  | overload reason =>
    simp only [QueuePaneStream.perform, QueuePaneStream.overload]
    split <;> simp [PlainWork]
  | signalWriter => simp [QueuePaneStream.perform]

/-- What the reader's work leads to is ready. -/
theorem perform_ready {s : QueuePaneStream} {work : QueueWork} {works : List QueueWork} {rest : Bytes} {w : WireState}
    (ho : Owes s.cursorAt s.binarySequence (work :: works) rest w) (hp : PlainWork work)
    (hr : ReaderReady s.cursorAt (work :: works)) :
    ReaderReady (s.perform work).1.cursorAt ((s.perform work).2 ++ works) := by
  -- later work puts nothing but frames in the buffer
  have later : ∀ entry, .enqueue entry ∈ works → entry.isBinary = true := by
    intro entry he
    rcases hr entry (List.mem_cons_of_mem _ he) with hb | ⟨hw, -⟩
    · exact hb
    · rw [(List.cons.inj hw).2] at he
      cases he
  have quiet {s' : QueuePaneStream} {more : List QueueWork} (hm : ∀ entry, QueueWork.enqueue entry ∉ more) :
      ReaderReady s'.cursorAt (more ++ works) := by
    intro entry he
    rcases List.mem_append.mp he with he | he
    · exact absurd he (hm entry)
    · exact .inl (later entry he)
  cases work with
  | enqueueText frame =>
    obtain ⟨rfl, -⟩ := ho
    rw [List.append_nil]
    simp only [QueuePaneStream.perform]
    rcases enqueueText_ready (s := s) hp with ⟨reason, he⟩ | ⟨entry, he, -, hc⟩
    · rw [he]
      intro entry h
      simp at h
    · rw [he]
      intro e h
      cases List.mem_singleton.mp h
      exact .inr ⟨rfl, hc⟩
  | enqueueBinary payload =>
    simp only [QueuePaneStream.perform, QueuePaneStream.enqueueBinary]
    split
    · exact quiet (by simp)
    · split
      · exact quiet (by simp)
      · split <;> exact quiet (by simp)
  | enqueueChunks start more =>
    simp only [QueuePaneStream.perform, QueuePaneStream.enqueueChunks]
    split
    · exact quiet (by simp)
    · intro entry he
      rcases List.mem_append.mp he with he | he
      · rcases List.mem_cons.mp he with he | he
        · cases he; exact .inl rfl
        · cases List.mem_singleton.mp he
      · exact .inl (later entry he)
  | enqueue entry =>
    simp only [QueuePaneStream.perform, QueuePaneStream.enqueue]
    split
    · exact quiet (by simp)
    · split <;> exact quiet (by simp)
  | overload reason =>
    simp only [QueuePaneStream.perform, QueuePaneStream.overload]
    split <;> exact quiet (by simp)
  | signalWriter => exact quiet fun _ => List.not_mem_nil

theorem readerStep (h : AgreeInv q) (hs : q.readerStep = some q') : AgreeInv q' := by
  have hw := h.wired.readerStep hs
  unfold QueueRun.readerStep at hs
  split at hs
  · cases hs
  · rename_i work works hx
    cases hs
    obtain ⟨w, rest, hrun, -, howes⟩ := h.wired.wired
    have hready := h.ready
    have hplain := h.reader
    rw [hx] at howes hready hplain
    have hwork := hplain work (List.mem_cons_self ..)
    have hnext : ∀ next ∈ (q.stream.perform work).2 ++ works, PlainWork next := by
      intro next hn
      rcases List.mem_append.mp hn with hn | hn
      · exact perform_plain hwork next hn
      · exact hplain next (List.mem_cons_of_mem _ hn)
    rcases q.stream.perform_cases work with ⟨_, _, _, _, hp⟩ | ⟨entry, rfl, hh, hp⟩ | ⟨reason, rfl, -, hp⟩
    · refine ⟨hw, ?_, ?_, hnext, fun hq => ?_, h.broker⟩
      · simp only [hp]; exact h.texts
      · simp only [hp]; exact h.completes
      · have hh : q.stream.Healthy := by rw [hp] at hq; exact hq
        exact perform_ready (howes hh) hwork (hready hh)
    · have hcompletes : Completes entry (cursorAfter (q.popped ++ q.stream.buffer)) := by
        rcases hready hh entry (List.mem_cons_self ..) with hb | ⟨hone, hc⟩
        · exact completes_binary hb _
        · obtain rfl : works = [] := (List.cons.inj hone).2
          obtain ⟨w', rest', hstep, -, -, hcur, -⟩ := howes hh
          have hafter : w.cursor = cursorAfter (q.popped ++ q.stream.buffer) := wire_run_cursor hrun
          intro message hm ht
          -- a completion leaves the client's cursor alone, so the stream's is still the one it was
          have hmark : entry.cursorMark = none := cursorMark_other hm (by rw [ht]; decide)
          have hsame : q.stream.cursorAt = cursorAfter (q.popped ++ q.stream.buffer) := by
            rw [hcur, wire_step_cursor hstep, hmark, ← hafter]; rfl
          rw [← hsame]
          exact hc message hm ht
      refine ⟨hw, ?_, ?_, hnext, fun _ => perform_ready (howes hh) hwork (hready hh), h.broker⟩
      · simp only [hp, QueuePaneStream.push]
        rw [← List.append_assoc]
        exact texts_snoc h.texts hwork
      · simp only [hp, QueuePaneStream.push]
        rw [← List.append_assoc]
        exact Log.concat h.completes hcompletes
    · exact h.giveUp hw reason (by simp only [hp]) rfl hnext h.broker

/-- **Step lemma**, for events whose texts are plain. -/
theorem step (h : AgreeInv q) {e : QueueEvent} (he : ∀ frame, e = .agentText frame → PlainFrame frame.message)
    (hs : queueMachine.step q e = some q') : AgreeInv q' := by
  have hw := h.wired.step hs
  rcases queue_step_cases hs with hq | ⟨thread, hq⟩ | hq | rfl | ⟨phase, work, payload, hwork, hr, rfl⟩
  · exact h.still hw hq
  · exact h.controlStep hq
  · exact h.readerStep hq
  · exact h.drop hw rfl (.inl rfl) (fun hq => absurd hq.1 (by simp [QueuePaneStream.deactivate])) h.reader h.broker
  · refine ⟨hw, h.texts, h.completes, ?_, fun _ entry hm => ?_, h.broker⟩
    · intro next hn
      cases List.mem_singleton.mp hn
      rcases hwork with ⟨frame, rfl, rfl, -⟩ | ⟨-, rfl⟩ | ⟨_, _, _, message, size, hm, rfl, -⟩
      · exact he frame rfl
      · trivial
      · exact ⟨message, rfl, readErrorText_plain hm⟩
    · rcases hwork with ⟨frame, -, rfl, -⟩ | ⟨-, rfl⟩ | ⟨_, _, _, _, _, -, rfl, -⟩ <;> cases List.mem_singleton.mp hm

end AgreeInv

theorem run_agreeInv {flowControl : FlowControl} {limitBytes priority : Int} {es : List QueueEvent} {q : QueueRun}
    (h : queueMachine.run (.start flowControl limitBytes priority) es = some q)
    (hp : ∀ frame, .agentText frame ∈ es → PlainFrame frame.message) : AgreeInv q := by
  refine Machine.run_inv_along queueMachine (P := fun _ e => ∀ frame, e = .agentText frame → PlainFrame frame.message)
    (fun _ _ _ hq he hs => hq.step he hs) h ?_ (start_agreeInv flowControl limitBytes priority)
  apply Machine.along_of_forall
  rintro e he frame rfl
  exact hp frame he

end Webshell
