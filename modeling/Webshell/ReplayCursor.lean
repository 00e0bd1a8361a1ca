import Webshell.ReplayAccepted

/-!
# Where a client's cursor is

The only text that sets a cursor is the start of the replay, which comes before
there is output. From then on the cursor counts the bytes that were sent, from
the replay's start on.
-/

namespace Webshell

open GoText Slice

/-! ## The queue's bytes are the agent's -/

def QueueEvent.payload : QueueEvent → Bytes
  | .agentBinary payload => payload
  | _ => []

theorem step_agentOut {q q' : QueueRun} {e : QueueEvent} (hs : queueMachine.step q e = some q') :
    q'.agentOut = q.agentOut ++ e.payload := by
  cases e with
  | agentBinary payload =>
    simp only [queueMachine, QueueRun.agentFrame] at hs
    split at hs
    · cases hs
      rfl
    · cases hs
  | _ =>
    simp only [QueueEvent.payload, List.append_nil]
    rcases queue_step_cases hs with hq | ⟨thread, hq⟩ | hq | rfl | ⟨phase, work, payload, hw, hr, rfl⟩
    · exact hq.out
    · unfold QueueRun.controlStep at hq
      split at hq <;> cases hq
      rfl
    · unfold QueueRun.readerStep at hq
      split at hq <;> cases hq
      rfl
    · rfl
    · rcases hw with ⟨_, _, _, rfl⟩ | ⟨he, _⟩ | ⟨_, _, _, _, _, _, _, rfl⟩
      · exact List.append_nil _
      · cases he
      · exact List.append_nil _

theorem run_agentOut {q q' : QueueRun} {es : List QueueEvent} (hs : queueMachine.run q es = some q') :
    q'.agentOut = q.agentOut ++ es.flatMap QueueEvent.payload := by
  induction es generalizing q with
  | nil =>
    cases hs
    exact (List.append_nil _).symm
  | cons e es ih =>
    obtain ⟨q₁, hstep, hrest⟩ := Machine.run_cons _ hs
    rw [ih hrest, step_agentOut hstep, List.append_assoc, List.flatMap_cons]

/-! ## Where a replay starts -/

/-- The cursor that a text sets, if it starts a replay. -/
def TextFrame.mark (frame : TextFrame) : Option Nat :=
  match frame.message with
  | some message => if message.text "type" = "history-replay-start" then message.cursor "delta_from_cursor" else none
  | none => none

/-- A cursor is only set to where the replay starts, and before there is output. -/
def MarkedAt (start : Nat) (out : Bytes) (mark : Option Nat) : Prop := ∀ n, mark = some n → n = start ∧ out = []

theorem markedAt_none (start : Nat) (out : Bytes) : MarkedAt start out none := by
  intro n hn
  cases hn

/-- The texts on a wire set no other cursor. -/
def Placed (start : Nat) (wire : List QueueOutbound) : Prop :=
  ∀ before o after, wire = before ++ o :: after → o.isBinary = false → MarkedAt start (sentBytes before) o.cursorMark

theorem Placed.left {start : Nat} {wire more : List QueueOutbound} (h : Placed start (wire ++ more)) : Placed start wire :=
  fun before o after he => h before o (after ++ more) (by rw [he, List.append_assoc]; rfl)

theorem Placed.concat {start : Nat} {wire : List QueueOutbound} (h : Placed start wire) {o : QueueOutbound}
    (ho : o.isBinary = false → MarkedAt start (sentBytes wire) o.cursorMark) : Placed start (wire ++ [o]) := by
  intro before other after he hb
  rcases List.eq_nil_or_concat' after with rfl | ⟨after, last, rfl⟩
  · obtain ⟨rfl, hlast⟩ := List.append_inj' he rfl
    obtain rfl := List.singleton_inj.mp hlast
    exact ho hb
  · rw [← List.cons_append, ← List.append_assoc] at he
    obtain ⟨rfl, -⟩ := List.append_inj' he rfl
    exact h before other after rfl hb

/-- Then the client's cursor counts the bytes it has been sent. -/
theorem Placed.cursor {start : Nat} {wire : List QueueOutbound} (h : Placed start wire) {w : WireState}
    (hw : wireMachine.run {} wire = some w) {n : Nat} (hn : w.cursor = some n) : n = start + (sentBytes wire).length := by
  induction wire using List.reverseRecOn generalizing w n with
  | nil =>
    cases hw
    cases hn
  | append_singleton wire o ih =>
    obtain ⟨v, hv, hlast⟩ := Machine.run_split _ hw
    obtain ⟨v', hstep, hnil⟩ := Machine.run_cons _ hlast
    cases hnil
    have hbytes : sentBytes (wire ++ [o]) = sentBytes wire ++ o.data := by simp [sentBytes]
    rw [hbytes, List.length_append]
    cases hb : o.isBinary with
    | true =>
      obtain ⟨⟨-, -, hend, -⟩, -, hstart, rfl⟩ := wire_step_binary hstep hb
      have hat := ih h.left hv hstart
      cases hn
      omega
    | false =>
      rw [data_text hb, List.length_nil, Nat.add_zero]
      rw [wire_step_text v hb] at hstep
      cases hstep
      cases hm : o.cursorMark with
      | some m =>
        rw [hm] at hn
        cases hn
        obtain ⟨rfl, hempty⟩ := h wire o [] rfl hb _ hm
        rw [hempty]
        rfl
      | none =>
        rw [hm] at hn
        exact ih h.left hv hn

def PlacedWork (start : Nat) (out : Bytes) : QueueWork → Prop
  | .enqueueText frame => MarkedAt start out frame.mark
  | .enqueue entry => entry.isBinary = false → MarkedAt start out entry.cursorMark
  | _ => True

theorem enqueueText_mark {s : QueuePaneStream} {frame : TextFrame} {work : QueueWork} (hm : work ∈ (s.enqueueText frame).2) :
    (∃ reason, work = .overload reason) ∨ ∃ entry, work = .enqueue entry ∧ entry.cursorMark = frame.mark := by
  obtain ⟨message, size, encoded⟩ := frame
  cases message with
  | none =>
    obtain rfl := List.mem_singleton.mp hm
    exact .inr ⟨_, rfl, rfl⟩
  | some message =>
    by_cases hstart : message.text "type" = "history-replay-start"
    · have hburst (v : JsonValue) : (message.set "replay_burst_bytes" v).text "type" = "history-replay-start" :=
        (text_set (by decide)).trans hstart
      simp only [QueuePaneStream.enqueueText, hstart, if_true] at hm
      right
      split at hm
      · split at hm
        · obtain rfl := List.mem_singleton.mp hm
          refine ⟨_, rfl, ?_⟩
          rw [cursorMark_start rfl (hburst _)]
          simp only [TextFrame.mark, hstart, if_true]
          unfold JsonObject.cursor
          rw [text_set (by decide)]
        · obtain rfl := List.mem_singleton.mp hm
          exact ⟨_, rfl, rfl⟩
      · obtain rfl := List.mem_singleton.mp hm
        exact ⟨_, rfl, rfl⟩
    · simp only [QueuePaneStream.enqueueText, if_neg hstart] at hm
      split at hm
      · split at hm
        · obtain rfl := List.mem_singleton.mp hm
          exact .inr ⟨_, rfl, rfl⟩
        · obtain rfl := List.mem_singleton.mp hm
          exact .inl ⟨_, rfl⟩
      · split at hm
        · obtain rfl := List.mem_singleton.mp hm
          exact .inr ⟨_, rfl, rfl⟩
        · split at hm
          · obtain rfl := List.mem_singleton.mp hm
            exact .inr ⟨_, rfl, rfl⟩
          · obtain rfl := List.mem_singleton.mp hm
            exact .inr ⟨_, rfl, rfl⟩

theorem perform_placed {s : QueuePaneStream} {work : QueueWork} {start : Nat} {out : Bytes} (h : PlacedWork start out work) :
    ∀ next ∈ (s.perform work).2, PlacedWork start out next := by
  intro next hm
  cases work with
  | enqueueText frame =>
    rcases enqueueText_mark hm with ⟨reason, rfl⟩ | ⟨entry, rfl, hmark⟩
    · trivial
    · intro _
      rw [hmark]
      exact h
  | enqueueBinary payload =>
    simp only [QueuePaneStream.perform, QueuePaneStream.enqueueBinary] at hm
    split at hm
    · cases hm
    · split at hm
      · obtain rfl := List.mem_singleton.mp hm
        trivial
      · split at hm
        · obtain rfl := List.mem_singleton.mp hm
          trivial
        · obtain rfl := List.mem_singleton.mp hm
          trivial
  | enqueueChunks cursor rest =>
    simp only [QueuePaneStream.perform, QueuePaneStream.enqueueChunks] at hm
    split at hm
    · cases hm
    · rcases List.mem_cons.mp hm with rfl | hm
      · intro hb
        cases hb
      · obtain rfl := List.mem_singleton.mp hm
        trivial
  | enqueue entry =>
    simp only [QueuePaneStream.perform, QueuePaneStream.enqueue] at hm
    split at hm
    · cases hm
    · split at hm
      · obtain rfl := List.mem_singleton.mp hm
        trivial
      · obtain rfl := List.mem_singleton.mp hm
        trivial
  | overload reason =>
    simp only [QueuePaneStream.perform, QueuePaneStream.overload] at hm
    split at hm
    · cases hm
    · obtain rfl := List.mem_singleton.mp hm
      trivial
  | signalWriter => cases hm

theorem readErrorText_mark {q : QueueRun} {err stderr selector : String} {message : JsonObject} {size : Nat}
    (h : q.readErrorText err stderr selector = some message) : TextFrame.mark { message := some message, size := size } = none := by
  unfold QueueRun.readErrorText at h
  split at h
  · split at h
    · cases h
      rfl
    · split at h
      · cases h
        rfl
      · cases h
  · split at h
    · cases h
      rfl
    · cases h

/-- The agent's events that are still to come start a replay there too, and before there is output. -/
def PlacedEvents (start : Nat) : Bytes → List QueueEvent → Prop
  | _, [] => True
  | out, e :: es => (∀ frame, e = .agentText frame → MarkedAt start out frame.mark) ∧ PlacedEvents start (out ++ e.payload) es

/-- In a run, with the events that are to come. -/
structure PlacedInv (start : Nat) (q : QueueRun) (es : List QueueEvent) : Prop where
  wired : WireInv q
  wire : Placed start (q.popped ++ q.stream.buffer)
  reader : ∀ work ∈ q.reader, PlacedWork start q.agentOut work
  later : PlacedEvents start q.agentOut es

namespace PlacedInv

variable {base : Nat} {q q' : QueueRun} {e : QueueEvent} {es : List QueueEvent}

/-- The buffer is dropped, for at most one text that sets no cursor. -/
theorem placed_drop (h : PlacedInv base q es) {buffer : List QueueOutbound}
    (hb : buffer = [] ∨ ∃ o : QueueOutbound, buffer = [o] ∧ o.cursorMark = none) : Placed base (q.popped ++ buffer) := by
  rcases hb with rfl | ⟨o, rfl, hm⟩
  · rw [List.append_nil]
    exact h.wire.left
  · exact h.wire.left.concat fun _ => hm ▸ markedAt_none _ _

theorem controlStep (h : PlacedInv base q es) {thread : Nat} (hs : q.controlStep thread = some q') :
    Placed base (q'.popped ++ q'.stream.buffer) ∧ q'.reader = q.reader := by
  unfold QueueRun.controlStep at hs
  split at hs
  · cases hs
  · cases hs
  · rename_i work works hw
    have hwork := h.wired.neutral _ (List.mem_of_getElem? hw) work (List.mem_cons_self ..)
    cases hs
    refine ⟨?_, rfl⟩
    rcases q.stream.perform_cases work with ⟨_, _, _, _, hp⟩ | ⟨entry, rfl, -, hp⟩ | ⟨reason, rfl, -, hp⟩
    · simp only [hp]
      exact h.wire
    · simp only [hp, QueuePaneStream.push, ← List.append_assoc]
      exact h.wire.concat fun _ => hwork.2 ▸ markedAt_none _ _
    · simp only [hp]
      exact h.placed_drop (.inr ⟨_, rfl, rfl⟩)

theorem readerStep (h : PlacedInv base q es) (hs : q.readerStep = some q') :
    Placed base (q'.popped ++ q'.stream.buffer) ∧ ∀ work ∈ q'.reader, PlacedWork base q.agentOut work := by
  unfold QueueRun.readerStep at hs
  split at hs
  · cases hs
  · rename_i work works hw
    have hwork := h.reader work (by rw [hw]; exact List.mem_cons_self ..)
    cases hs
    refine ⟨?_, fun next hm => ?_⟩
    · rcases q.stream.perform_cases work with ⟨_, _, _, _, hp⟩ | ⟨entry, rfl, -, hp⟩ | ⟨reason, rfl, -, hp⟩
      · simp only [hp]
        exact h.wire
      · simp only [hp, QueuePaneStream.push, ← List.append_assoc]
        refine h.wire.concat fun hb n hn => ?_
        obtain ⟨hstart, hout⟩ := hwork hb n hn
        obtain ⟨w, rest, -, hagent, -⟩ := h.wired.wired
        rw [hagent] at hout
        exact ⟨hstart, (List.append_eq_nil_iff.mp hout).1⟩
      · simp only [hp]
        exact h.placed_drop (.inr ⟨_, rfl, rfl⟩)
    · rcases List.mem_append.mp hm with hm | hm
      · exact perform_placed hwork next hm
      · exact h.reader next (by rw [hw]; exact List.mem_cons_of_mem _ hm)

theorem step (h : PlacedInv base q (e :: es)) (hs : queueMachine.step q e = some q') : PlacedInv base q' es := by
  have hout := step_agentOut hs
  have hlater : PlacedEvents base q'.agentOut es := by
    rw [hout]
    exact h.later.2
  have hwired := h.wired.step hs
  have hsame (hr : q'.agentOut = q.agentOut) {works : List QueueWork} (hw : ∀ work ∈ works, PlacedWork base q.agentOut work) :
      ∀ work ∈ works, PlacedWork base q'.agentOut work := by
    rwa [hr]
  rcases queue_step_cases hs with hq | ⟨thread, hq⟩ | hq | rfl | ⟨phase, work, payload, hw, hr, rfl⟩
  · refine ⟨hwired, ?_, ?_, hlater⟩
    · rw [hq.wire]
      exact h.wire
    · rw [hq.reader]
      exact hsame hq.out h.reader
  · obtain ⟨hwire, hreader⟩ := h.controlStep hq
    refine ⟨hwired, hwire, ?_, hlater⟩
    rw [hreader]
    refine hsame ?_ h.reader
    unfold QueueRun.controlStep at hq
    split at hq <;> cases hq
    rfl
  · obtain ⟨hwire, hreader⟩ := h.readerStep hq
    refine ⟨hwired, hwire, hsame ?_ hreader, hlater⟩
    unfold QueueRun.readerStep at hq
    split at hq <;> cases hq
    rfl
  · exact ⟨hwired, h.placed_drop (.inl rfl), h.reader, hlater⟩
  · refine ⟨hwired, h.wire, fun next hm => ?_, hlater⟩
    obtain rfl := List.mem_singleton.mp hm
    rcases hw with ⟨frame, rfl, rfl, rfl⟩ | ⟨-, rfl⟩ | ⟨err, stderr, selector, message, size, herr, rfl, rfl⟩
    · simpa [PlacedWork] using h.later.1 frame rfl
    · trivial
    · show MarkedAt base _ _
      rw [readErrorText_mark herr]
      exact markedAt_none _ _

theorem run (h : PlacedInv base q es) (hs : queueMachine.run q es = some q') : PlacedInv base q' [] := by
  induction es generalizing q with
  | nil =>
    cases hs
    exact h
  | cons e es ih =>
    obtain ⟨q₁, hstep, hrest⟩ := Machine.run_cons _ hs
    exact ih (h.step hstep) hrest

theorem start (flowControl : FlowControl) (limitBytes priority : Int) (h : PlacedEvents base [] es) :
    PlacedInv base (.start flowControl limitBytes priority) es :=
  ⟨start_wireInv .., fun before o after he => by simp [QueueRun.start, QueuePaneStream.start] at he, by simp [QueueRun.start], h⟩

end PlacedInv

/-! ## The agent's frames -/

def AgentFrame.bytes : AgentFrame → Bytes
  | .binary payload => payload
  | .text _ => []

/-- A text that starts a replay starts it there, and before there is output. -/
def StartedAt (start : Nat) : Bytes → List AgentFrame → Prop
  | _, [] => True
  | out, .binary payload :: frames => StartedAt start (out ++ payload) frames
  | out, .text payload :: frames =>
    (∃ t, payload.get "type" = some (jsonString t) ∧ trimSpace t = t ∧
      (t = "history-replay-start" → payload.get "delta_from_cursor" = some (jsonCursor start) ∧ out = [])) ∧
    StartedAt start out frames

namespace StartedAt

variable {start : Nat} {out : Bytes} {frames : List AgentFrame}

theorem text {payload : Json} (ha : Announces payload) (h : StartedAt start out frames) : StartedAt start out (.text payload :: frames) := by
  obtain ⟨t, ht, htrim, hne, -⟩ := ha
  exact ⟨⟨t, ht, htrim, fun he => absurd he hne⟩, h⟩

theorem texts {payloads : List Json} (hp : ∀ payload ∈ payloads, Announces payload) (h : StartedAt start out frames) :
    StartedAt start out (payloads.map .text ++ frames) := by
  induction payloads with
  | nil => exact h
  | cons payload payloads ih =>
    exact .text (hp payload (List.mem_cons_self ..)) (ih fun p hm => hp p (List.mem_cons_of_mem _ hm))

/-- After the start, output and announcements may follow. -/
theorem live (hl : ∀ frame ∈ frames, ∀ payload, frame = .text payload → Announces payload) (out : Bytes) : StartedAt start out frames := by
  induction frames generalizing out with
  | nil => trivial
  | cons frame frames ih =>
    have hrest := fun f hf => hl f (List.mem_cons_of_mem frame hf)
    cases frame with
    | text payload => exact .text (hl _ (List.mem_cons_self ..) payload rfl) (ih hrest out)
    | binary payload => exact ih hrest _

theorem binaries {payloads : List Bytes} (h : ∀ out, StartedAt start out frames) (out : Bytes) :
    StartedAt start out (payloads.map .binary ++ frames) := by
  induction payloads generalizing out with
  | nil => exact h out
  | cons payload payloads ih => exact ih (out ++ payload)

theorem take {sent : List AgentFrame} (h : StartedAt start out frames) (hs : sent <+: frames) : StartedAt start out sent := by
  induction frames generalizing out sent with
  | nil =>
    rw [List.prefix_nil.mp hs]
    trivial
  | cons frame frames ih =>
    rcases List.prefix_cons_iff.mp hs with rfl | ⟨rest, rfl, hr⟩
    · trivial
    · cases frame with
      | binary payload =>
        have hafter : StartedAt start (out ++ payload) frames := h
        exact show StartedAt start (out ++ payload) rest from ih hafter hr
      | text payload => exact ⟨h.1, ih h.2 hr⟩

end StartedAt

theorem carried_payload {frames : List AgentFrame} {es : List QueueEvent}
    (hc : List.Forall₂ Carries frames (es.filter QueueEvent.ofAgent)) :
    es.flatMap QueueEvent.payload = frames.flatMap AgentFrame.bytes := by
  induction es generalizing frames with
  | nil =>
    cases hc
    rfl
  | cons e es ih =>
    cases he : e.ofAgent with
    | false =>
      rw [List.filter_cons_of_neg (by simp [he])] at hc
      rw [List.flatMap_cons, ih hc]
      cases e with
      | agentBinary payload => cases he
      | _ => rfl
    | true =>
      rw [List.filter_cons_of_pos he] at hc
      cases hc with
      | @cons frame _ frames _ hframe hrest =>
        rw [List.flatMap_cons, List.flatMap_cons, ih hrest]
        cases frame with
        | text payload =>
          cases e with
          | agentText text => rfl
          | _ => exact hframe.elim
        | binary payload =>
          cases e with
          | agentBinary data =>
            cases hframe
            rfl
          | _ => exact hframe.elim

theorem carried_placed {start : Nat} (hstart : start < uint64Limit) {out : Bytes} {frames : List AgentFrame} {es : List QueueEvent}
    (h : StartedAt start out frames) (hc : List.Forall₂ Carries frames (es.filter QueueEvent.ofAgent)) : PlacedEvents start out es := by
  induction es generalizing frames out with
  | nil => trivial
  | cons e es ih =>
    cases he : e.ofAgent with
    | false =>
      rw [List.filter_cons_of_neg (by simp [he])] at hc
      refine ⟨?_, ih ?_ hc⟩
      · rintro frame rfl
        cases he
      · cases e with
        | agentBinary payload => cases he
        | _ => simpa [QueueEvent.payload] using h
    | true =>
      rw [List.filter_cons_of_pos he] at hc
      cases hc with
      | @cons frame _ frames _ hframe hrest =>
        cases frame with
        | text payload =>
          cases e with
          | agentText text =>
            obtain ⟨⟨t, ht, htrim, hat⟩, hafter⟩ := h
            obtain ⟨message, hm, hd⟩ := hframe
            refine ⟨?_, ih (by simpa [QueueEvent.payload] using hafter) hrest⟩
            rintro _ ⟨⟩ n hn
            simp only [TextFrame.mark, hm, describes_text hd ht htrim] at hn
            split at hn
            · rename_i heq
              obtain ⟨hdelta, hout⟩ := hat heq
              rw [describes_cursor hd hdelta hstart] at hn
              exact ⟨(Option.some.inj hn).symm, hout⟩
            · cases hn
          | _ => exact hframe.elim
        | binary payload =>
          cases e with
          | agentBinary data =>
            cases hframe
            exact ⟨by simp, ih (show StartedAt start (out ++ payload) frames from h) hrest⟩
          | _ => exact hframe.elim

/-- Frames that continue each other are plain texts to the queue. -/
theorem carried_plain {cursor : Option Nat} {frames : List AgentFrame} {es : List QueueEvent} (h : Continues cursor frames)
    (hc : List.Forall₂ Carries frames (es.filter QueueEvent.ofAgent)) : ∀ frame, .agentText frame ∈ es → PlainFrame frame.message := by
  intro text hm
  have hmem : QueueEvent.agentText text ∈ es.filter QueueEvent.ofAgent := List.mem_filter.mpr ⟨hm, rfl⟩
  generalize es.filter QueueEvent.ofAgent = agent at hc hmem
  induction hc generalizing cursor with
  | nil => cases hmem
  | @cons frame e frames agent hframe hrest ih =>
    rcases List.mem_cons.mp hmem with rfl | hmem
    · cases frame with
      | binary payload => exact hframe.elim
      | text payload =>
        obtain ⟨message, hmessage, hd⟩ := hframe
        refine ⟨message, hmessage, ?_⟩
        have hother {t : String} (ht : payload.get "type" = some (jsonString t)) (hn : t ≠ "history-replay-start")
            (hn' : t ≠ "history-replay-complete") (htrim : trimSpace t = t) : Plain message := by
          have hget := (hd.2.2 "type" t).mpr ht
          refine ⟨⟨t, hget, htrim⟩, fun hs => ?_, fun hs => ?_⟩
          · rw [hget] at hs
            cases hs
            exact absurd rfl hn
          · rw [hget] at hs
            cases hs
            exact absurd rfl hn'
        cases h with
        | text announced after =>
          obtain ⟨t, ht, htrim, hn, hn'⟩ := announced
          exact hother ht hn hn' htrim
        | start type delta fits after =>
          have hget := (hd.2.2 "type" _).mpr type
          refine ⟨⟨_, hget, by decide⟩, fun _ => ⟨_, _, (hd.2.2 _ _).mpr delta, parseUint_formatUint fits⟩, fun hs => ?_⟩
          rw [hget] at hs
          exact absurd hs (by decide)
        | complete type history fits after =>
          have hget := (hd.2.2 "type" _).mpr type
          refine ⟨⟨_, hget, by decide⟩, fun hs => ?_, fun _ => ⟨_, _, (hd.2.2 _ _).mpr history, parseUint_formatUint fits⟩⟩
          rw [hget] at hs
          exact absurd hs (by decide)
    · cases h with
      | text _ after => exact ih after hmem
      | start _ _ _ after => exact ih after hmem
      | complete _ _ _ after => exact ih after hmem
      | binary after => exact ih after hmem

end Webshell
