import Webshell.AgentAttach
import Webshell.PaneSnapshots
import Webshell.ReplayCursor

/-!
# What is shown is the pane's output

From the pane's own buffer over its client, the attach, the queue of the stream
and the wire to the browser: what the browser has been given is the pane's
output from the replay's start on, and its cursor is where it is in it.
-/

namespace Webshell

open GoText Slice

/-! ## The frames of an attach -/

section Attach

variable {identity : TerminalReplayIdentity} {attachment : Attachment} {m : CheckpointMemory} {clock : ReplayClock}
  {times : AttachTimes} {failure : Option Json} {notes : Nat → ControlNotes} {received : List PaneOutbound}

theorem exit_announces (e : PaneExitSnapshot) (selector paneID : String) : Announces (e.controlPayload selector paneID) :=
  ⟨"process-exit", by unfold PaneExitSnapshot.controlPayload; split <;> rfl, by decide, by decide, by decide⟩

/-- No control starts or completes a replay. -/
theorem control_announces (identity : TerminalReplayIdentity) (notes : ControlNotes) (control : PaneControl) :
    Announces (control.json identity notes) := by
  cases control with
  | processExit exitCode message retained => exact exit_announces ..
  | checkpointDiagnostic => exact ⟨"terminal-checkpoint-diagnostic", rfl, by decide, by decide, by decide⟩
  | resizeOwnerReleased epoch geometry => exact ⟨"resize-owner-released", rfl, by decide, by decide, by decide⟩
  | resizeApplied epoch geometry => exact ⟨"resize-applied", rfl, by decide, by decide, by decide⟩
  | resizeError epoch appliedEpoch geometry reason => exact ⟨"resize-error", rfl, by decide, by decide, by decide⟩
  | pong => exact ⟨"pong", rfl, by decide, by decide, by decide⟩

theorem ready_announces (times : AttachTimes) : Announces (agentAttachReady times) :=
  ⟨"agent-attach-ready", rfl, by decide, by decide, by decide⟩

theorem liveFrames_announce (n : Nat) : ∀ frame ∈ liveFrames identity notes n received, ∀ payload, frame = .text payload → Announces payload := by
  induction received generalizing n with
  | nil => simp [liveFrames]
  | cons outbound rest ih =>
    intro frame hm payload he
    rcases List.mem_cons.mp hm with rfl | hm
    · unfold PaneOutbound.frame at he
      split at he
      · cases he
      · cases he
        exact control_announces ..
    · split at hm
      · cases hm
      · exact ih (n + 1) frame hm payload he

theorem frame_bytes (notes : ControlNotes) (outbound : PaneOutbound) : (outbound.frame identity notes).bytes = outbound.bytes := by
  unfold PaneOutbound.frame PaneOutbound.bytes
  cases outbound.payload <;> rfl

theorem liveFrames_bytes (n : Nat) : (liveFrames identity notes n received).flatMap AgentFrame.bytes <+: received.flatMap PaneOutbound.bytes := by
  induction received generalizing n with
  | nil => exact List.prefix_rfl
  | cons outbound rest ih =>
    simp only [liveFrames, List.flatMap_cons, frame_bytes]
    refine (List.prefix_append_right_inj _).mpr ?_
    split
    · exact List.nil_prefix
    · exact ih (n + 1)

theorem liveFrames_all (n : Nat) (h : ∀ outbound ∈ received, outbound.closeAfter = false) :
    (liveFrames identity notes n received).flatMap AgentFrame.bytes = received.flatMap PaneOutbound.bytes := by
  induction received generalizing n with
  | nil => rfl
  | cons outbound rest ih =>
    simp only [liveFrames, List.flatMap_cons, frame_bytes, h outbound (List.mem_cons_self ..), Bool.false_eq_true, if_false]
    rw [ih (n + 1) fun o hm => h o (List.mem_cons_of_mem _ hm)]

/-- What follows the replay. -/
def afterReplay (identity : TerminalReplayIdentity) (attachment : Attachment) (notes : Nat → ControlNotes) (received : List PaneOutbound) :
    List AgentFrame :=
  if attachment.exit.exited = true then [.text (attachment.exit.controlPayload identity.selector identity.paneID)]
  else liveFrames identity notes 0 received

theorem afterReplay_announce : ∀ frame ∈ afterReplay identity attachment notes received, ∀ payload, frame = .text payload → Announces payload := by
  unfold afterReplay
  split
  · intro frame hm payload he
    obtain rfl := List.mem_singleton.mp hm
    cases he
    exact exit_announces ..
  · exact liveFrames_announce 0

variable (identity attachment m clock times failure notes received) in
theorem attachFrames_shape : ∃ before : List Json, (∀ payload ∈ before, Announces payload) ∧
    attachFrames identity attachment m clock times failure notes received =
      before.map .text ++ (writeAgentHistoryReplay identity attachment.history m attachment.allowGeneratedInput clock ++
        afterReplay identity attachment notes received) := by
  cases failure with
  | none => exact ⟨[agentAttachReady times], by simpa using ready_announces times, rfl⟩
  | some diagnostics =>
    refine ⟨[PaneControl.checkpointDiagnostic.json identity { checkpointDiagnostics := diagnostics }, agentAttachReady times], ?_, rfl⟩
    simpa using ⟨control_announces identity _ _, ready_announces times⟩

theorem attachFrames_continue (h : Described attachment.history) :
    Continues none (attachFrames identity attachment m clock times failure notes received) := by
  obtain ⟨before, hb, he⟩ := attachFrames_shape identity attachment m clock times failure notes received
  rw [he]
  apply Continues.announced
  · intro frame hm
    obtain ⟨payload, hp, rfl⟩ := List.mem_map.mp hm
    exact ⟨payload, rfl, hb payload hp⟩
  · exact replay_continues h afterReplay_announce none

theorem attachFrames_started :
    StartedAt attachment.history.deltaFrom [] (attachFrames identity attachment m clock times failure notes received) := by
  obtain ⟨before, hb, he⟩ := attachFrames_shape identity attachment m clock times failure notes received
  rw [he, replay_shape, List.append_assoc, List.append_assoc, List.cons_append]
  refine .texts hb (.texts parts_announce ⟨⟨_, start_type, by decide, fun _ => ⟨start_from, rfl⟩⟩, ?_⟩)
  refine .binaries (fun out => ?_) []
  exact ⟨⟨_, complete_type _, by decide, fun hs => absurd hs (by decide)⟩, .live afterReplay_announce out⟩

theorem attachFrames_flatten : (attachFrames identity attachment m clock times failure notes received).flatMap AgentFrame.bytes =
    attachment.history.chunks.flatten ++ (afterReplay identity attachment notes received).flatMap AgentFrame.bytes := by
  obtain ⟨before, hb, he⟩ := attachFrames_shape identity attachment m clock times failure notes received
  have htexts (payloads : List Json) : (payloads.map AgentFrame.text).flatMap AgentFrame.bytes = [] := by
    induction payloads with
    | nil => rfl
    | cons payload payloads ih => exact ih
  have hbinaries (payloads : List Bytes) : (payloads.map AgentFrame.binary).flatMap AgentFrame.bytes = payloads.flatten := by
    induction payloads with
    | nil => rfl
    | cons payload payloads ih => simp [AgentFrame.bytes, ih]
  rw [he, replay_shape]
  simp only [List.flatMap_append, List.flatMap_cons, List.flatMap_nil, htexts, hbinaries, replayPayloads_flatten, AgentFrame.bytes,
    List.nil_append, List.append_nil]

variable (identity attachment m clock times failure notes received) in
theorem attachFrames_bytes : (attachFrames identity attachment m clock times failure notes received).flatMap AgentFrame.bytes <+:
    attachment.history.chunks.flatten ++ received.flatMap PaneOutbound.bytes := by
  rw [attachFrames_flatten]
  refine (List.prefix_append_right_inj _).mpr ?_
  unfold afterReplay
  split
  · exact List.nil_prefix
  · exact liveFrames_bytes 0

/-- A client that is still served has been sent all that its writer took. -/
theorem attachFrames_all (hexit : attachment.exit.exited = false) (hopen : ∀ outbound ∈ received, outbound.closeAfter = false) :
    (attachFrames identity attachment m clock times failure notes received).flatMap AgentFrame.bytes =
      attachment.history.chunks.flatten ++ received.flatMap PaneOutbound.bytes := by
  rw [attachFrames_flatten]
  congr 1
  unfold afterReplay
  rw [if_neg (by simp [hexit])]
  exact liveFrames_all 0 hopen

end Attach

/-! ## What each part hands on -/

/-- An attach in a run of the pane, the run since then, and the attached client's own state. -/
structure AttachRun (p : TerminalPane) (attachment : Attachment) (p' : TerminalPane) (s : Subscriber) : Prop where
  started : ∃ generation cols rows limit localPTY es, paneMachine.run (.start generation cols rows limit localPTY) es = some p
  attached : ∃ request answers more, (p.attachClient request answers).2 = .ok attachment ∧
    paneMachine.run (p.attachClient request answers).1 more = some p'
  client : p'.subscribers[attachment.client]? = some s
  stop_lt : p.history.stop < uint64Limit
  epoch_lt : p.resizeEpoch < uint64Limit

theorem attach_subscribed {p : TerminalPane} {request : HistorySyncRequest} {answers : PaneAnswers} {attachment : Attachment}
    (ha : (p.attachClient request answers).2 = .ok attachment) :
    (p.attachClient request answers).1.subscribers[attachment.client]? = some { client := .new, snapshot := attachment.history } := by
  unfold TerminalPane.attachClient at ha ⊢
  split at ha
  · cases ha
  · split at ha
    · cases ha
    · rename_i hc _ generation hgeneration
      simp only at ha
      split at ha
      · cases ha
      · rename_i history hh
        cases ha
        rw [if_neg hc]
        simp only [hh]
        simp

namespace AttachRun

variable {p p' : TerminalPane} {attachment : Attachment} {s : Subscriber}

theorem described (h : AttachRun p attachment p' s) : Described attachment.history := by
  obtain ⟨generation, cols, rows, limit, localPTY, es, hrun⟩ := h.started
  obtain ⟨request, answers, more, ha, -⟩ := h.attached
  exact (attach_described hrun ha h.stop_lt h.epoch_lt).1

theorem inv (h : AttachRun p attachment p' s) : PaneInv p' := by
  obtain ⟨generation, cols, rows, limit, localPTY, es, hrun⟩ := h.started
  obtain ⟨request, answers, more, -, hmore⟩ := h.attached
  have hp := paneMachine.run_inv (fun p e p' hi hs => PaneInv.step hi hs) hrun (PaneInv.start ..)
  exact paneMachine.run_inv (fun p e p' hi hs => PaneInv.step hi hs) hmore (hp.attachClient request answers)

theorem snapshot (h : AttachRun p attachment p' s) : s.snapshot = attachment.history := by
  obtain ⟨request, answers, more, ha, hmore⟩ := h.attached
  obtain ⟨s', hs', he⟩ := (TerminalPane.Kept.run hmore).each _ _ (attach_subscribed ha)
  rw [h.client] at hs'
  cases hs'
  exact he

/-- The snapshot and what was sent since join, and are followed by what is on its way. -/
theorem joined (h : AttachRun p attachment p' s) : ∃ upto, upto ≤ p'.out.length ∧
    attachment.history.chunks.flatten ++ s.client.binary = slice p'.out attachment.history.deltaFrom upto ∧
    (s.client.done = false → attachment.client ∈ p'.clients → p'.out.drop upto = flightFor attachment.client p'.inflight) := by
  obtain ⟨upto, hr⟩ := h.inv.each _ s h.client
  rw [← h.snapshot]
  refine ⟨upto, hr.upto_le, ?_, hr.missing⟩
  rw [hr.chunks, hr.live, slice_join hr.from_le hr.to_le]

/-- What the client's writer has taken, after the snapshot, is output. -/
theorem taken (h : AttachRun p attachment p' s) :
    attachment.history.chunks.flatten ++ s.client.received.flatMap PaneOutbound.bytes <+: p'.out.drop attachment.history.deltaFrom := by
  obtain ⟨upto, -, hjoin, -⟩ := h.joined
  have htaken : s.client.received.flatMap PaneOutbound.bytes <+: s.client.binary := by
    unfold PaneClient.binary PaneClient.accepted
    rw [List.append_assoc, List.flatMap_append]
    exact List.prefix_append ..
  refine ((List.prefix_append_right_inj _).mpr htaken).trans ?_
  rw [hjoin]
  exact List.take_prefix ..

/-- An open client with nothing on its way to its writer has been given all output. -/
theorem taken_all (h : AttachRun p attachment p' s) (hc : attachment.client ∈ p'.clients) (hd : s.client.done = false)
    (hf : p'.inflight = []) (hsend : s.client.send = []) (hpending : s.client.pending = []) :
    attachment.history.chunks.flatten ++ s.client.received.flatMap PaneOutbound.bytes = p'.out.drop attachment.history.deltaFrom := by
  obtain ⟨upto, hle, hjoin, hmissing⟩ := h.joined
  have htaken : s.client.received.flatMap PaneOutbound.bytes = s.client.binary := by
    simp [PaneClient.binary, PaneClient.accepted, hsend, hpending]
  have hend : p'.out.length ≤ upto := by
    have hnone := hmissing hd hc
    rw [hf] at hnone
    exact List.drop_eq_nil_iff.mp hnone
  have hupto : upto = p'.out.length := Nat.le_antisymm hle hend
  rw [htaken, hjoin, hupto, slice_to_end]

end AttachRun

/-- A run of a stream's queue whose agent has sent these frames. -/
structure Fed (sent : List AgentFrame) (q : QueueRun) : Prop where
  run : ∃ flowControl limitBytes priority es, queueMachine.run (.start flowControl limitBytes priority) es = some q ∧
    List.Forall₂ Carries sent (es.filter QueueEvent.ofAgent)

namespace Fed

variable {sent : List AgentFrame} {q : QueueRun}

theorem agrees (h : Fed sent q) {cursor : Option Nat} (hc : Continues cursor sent) : AgreeInv q := by
  obtain ⟨flowControl, limitBytes, priority, es, hq, hcarried⟩ := h.run
  exact run_agreeInv hq (carried_plain hc hcarried)

theorem placed (h : Fed sent q) {start : Nat} (hs : start < uint64Limit) (ha : StartedAt start [] sent) :
    Placed start (q.popped ++ q.stream.buffer) := by
  obtain ⟨flowControl, limitBytes, priority, es, hq, hcarried⟩ := h.run
  exact ((PlacedInv.start flowControl limitBytes priority (carried_placed hs ha hcarried)).run hq).wire

theorem agentOut (h : Fed sent q) : q.agentOut = sent.flatMap AgentFrame.bytes := by
  obtain ⟨flowControl, limitBytes, priority, es, hq, hcarried⟩ := h.run
  rw [run_agentOut hq, carried_payload hcarried]
  exact List.nil_append _

/-- What an attached client's writer sends sets the cursor at the replay's start. -/
theorem attach (h : Fed sent q) {p p' : TerminalPane} {attachment : Attachment} {s : Subscriber} (hp : AttachRun p attachment p' s)
    {identity : TerminalReplayIdentity} {m : CheckpointMemory} {clock : ReplayClock} {times : AttachTimes} {failure : Option Json}
    {notes : Nat → ControlNotes} {received : List PaneOutbound}
    (hsent : sent <+: attachFrames identity attachment m clock times failure notes received) :
    AgreeInv q ∧ Placed attachment.history.deltaFrom (q.popped ++ q.stream.buffer) := by
  have hdescribed := hp.described
  have hstart : attachment.history.deltaFrom < uint64Limit := Nat.lt_of_le_of_lt hdescribed.from_le hdescribed.to_lt
  exact ⟨h.agrees ((attachFrames_continue hdescribed).take hsent), h.placed hstart (attachFrames_started.take hsent)⟩

end Fed

/-- The stream of a subscription, as the browser has just opened it. -/
structure JustOpened (sub : TerminalQueueSubscription) (c : QueueConnection) (s : LogicalStream) : Prop where
  stream : c.stream (streamKey sub.identity) = some s
  isOpen : s.readyState = .open
  fresh : s.Fresh
  generation : s.historyGeneration = sub.historyGeneration.toList

theorem JustOpened.takes {sub : TerminalQueueSubscription} {c : QueueConnection} {s : LogicalStream} (h : JustOpened sub c s) :
    TakesInv sub {} [] s := by
  refine ⟨h.isOpen, h.generation, h.fresh.1, .inl ⟨rfl, h.fresh.2.2.1⟩, ?_⟩
  rw [h.fresh.2.2.2]
  rfl

/-- A part of what is written is written for a part of the entries. -/
theorem Writes.take {sub : TerminalQueueSubscription} {os : List QueueOutbound} {bs : List (Nat × Nat)} {ds got : List QueueDelivery}
    (h : Writes sub os bs ds) (hg : got <+: ds) : ∃ os' bs', os' <+: os ∧ Writes sub os' bs' got := by
  induction h generalizing got with
  | nil =>
    rw [List.prefix_nil.mp hg]
    exact ⟨[], [], List.prefix_rfl, .nil⟩
  | @outbound o os bs d ds ho _ ih =>
    rcases List.prefix_cons_iff.mp hg with rfl | ⟨rest, rfl, hr⟩
    · exact ⟨[], [], List.nil_prefix, .nil⟩
    · obtain ⟨os', bs', hp, hw⟩ := ih hr
      exact ⟨o :: os', bs', List.cons_prefix_cons.mpr ⟨rfl, hp⟩, .outbound ho hw⟩
  | @turn os b bs ds _ ih =>
    rcases List.prefix_cons_iff.mp hg with rfl | ⟨rest, rfl, hr⟩
    · exact ⟨[], [], List.nil_prefix, .nil⟩
    · obtain ⟨os', bs', hp, hw⟩ := ih hr
      exact ⟨os', b :: bs', hp, .turn hw⟩

theorem sentBytes_binaries (wire : List QueueOutbound) : ((binaries wire).map QueueOutbound.data).flatten = sentBytes wire := by
  induction wire with
  | nil => rfl
  | cons o wire ih =>
    unfold binaries sentBytes at *
    rw [List.filter_cons, List.flatMap_cons]
    cases hb : o.isBinary with
    | true => simp [ih]
    | false => simp [ih, data_text hb]

/-- Bytes were given to the page, and its cursor is where they end. -/
structure Shown (start : Nat) (data : Bytes) (s : LogicalStream) : Prop where
  payloads : (binaryPayloads s.dispatched).flatten = data
  cursor : ∀ n, s.expectedCursor = some n → n = start + data.length

/-- The browser takes what is written for a part of the wire, and shows its bytes. -/
theorem writes_shown {q : QueueRun} (hq : AgreeInv q) {start : Nat} (hplaced : Placed start (q.popped ++ q.stream.buffer))
    {sub : TerminalQueueSubscription} (hv : sub.Valid) (hsafe : ∀ o ∈ binaries q.popped, o.binarySequence ≤ Js.maxSafeInteger)
    {os after : List QueueOutbound} (hos : os ++ after = q.popped) {bs : List (Nat × Nat)} {got : List QueueDelivery}
    (hwrites : Writes sub os bs got) {c : QueueConnection} {stream : LogicalStream} (ho : JustOpened sub c stream) :
    c.TakesAll got ∧ ∃ stream', (c.deliverAll got).stream (streamKey sub.identity) = some stream' ∧ Shown start (sentBytes os) stream' := by
  obtain ⟨w, rest, hwire, -⟩ := hq.wired.wired
  rw [← hos, List.append_assoc] at hwire
  obtain ⟨v, hv', -⟩ := Machine.run_split _ hwire
  have hmem (o : QueueOutbound) (hm : o ∈ os) : o ∈ q.popped := hos ▸ List.mem_append_left _ hm
  obtain ⟨htakes, stream', hstream', hend⟩ := takes_writes hv [] hwrites hv' rfl
    (fun o hm => hq.texts o (List.mem_append_left _ (hmem o hm)))
    (fun mid o rest he => hq.completes mid o (rest ++ after ++ q.stream.buffer) (by rw [← hos, he]; simp))
    (fun o hm => by
      obtain ⟨hm, hb⟩ := List.mem_filter.mp hm
      exact hsafe o (List.mem_filter.mpr ⟨hmem o hm, hb⟩)) ho.stream ho.takes
  refine ⟨htakes, stream', hstream', ?_, fun n hn => ?_⟩
  · rw [hend.payloads, List.nil_append, sentBytes_binaries]
  · have hplace : Placed start (os ++ (after ++ q.stream.buffer)) := by
      rw [← List.append_assoc, hos]
      exact hplaced
    exact hplace.left.cursor hv' (hend.cursor.symm.trans hn)

/-! ## From end to end -/

/-- The stream shows the output from `start` on, and its cursor is where that ends. -/
structure ShownExact (out : Bytes) (start : Nat) (s : LogicalStream) : Prop where
  shown : (binaryPayloads s.dispatched).flatten <+: out.drop start
  cursor : ∀ n, s.expectedCursor = some n → n = start + (binaryPayloads s.dispatched).flatten.length

section

variable {p p' : TerminalPane} {attachment : Attachment} {s : Subscriber} (identity : TerminalReplayIdentity) (m : CheckpointMemory)
  (clock : ReplayClock) (times : AttachTimes) (failure : Option Json) (notes : Nat → ControlNotes) {sent : List AgentFrame} {q : QueueRun}
  {sub : TerminalQueueSubscription} {ds got : List QueueDelivery} {c : QueueConnection} {stream : LogicalStream}

/-- In every run of the pane, of its client's writer, of the queue of the stream
and of the wire, up to wherever each of them is: the browser takes all it is
sent, what it has been given is the pane's output from the start of the replay
on, and its cursor is the place in the output where that ends. -/
theorem shown_output (hp : AttachRun p attachment p' s)
    (hsent : sent <+: attachFrames identity attachment m clock times failure notes s.client.received) (hq : Fed sent q)
    (hv : sub.Valid) (hsafe : ∀ o ∈ binaries q.popped, o.binarySequence ≤ Js.maxSafeInteger)
    (hds : Writes sub q.popped q.sent ds) (hgot : got <+: ds) (ho : JustOpened sub c stream) :
    c.TakesAll got ∧ ∃ stream', (c.deliverAll got).stream (streamKey sub.identity) = some stream' ∧
      ShownExact p'.out attachment.history.deltaFrom stream' := by
  obtain ⟨hagree, hplaced⟩ := hq.attach hp hsent
  obtain ⟨os, bs, ⟨after, hos⟩, hwrites⟩ := hds.take hgot
  obtain ⟨htakes, stream', hstream', hshown⟩ := writes_shown hagree hplaced hv hsafe hos hwrites ho
  refine ⟨htakes, stream', hstream', ?_, by rw [hshown.payloads]; exact hshown.cursor⟩
  -- entries, the queue's output, the frames, what the client's writer took, the output
  have hbytes : sentBytes os <+: q.agentOut := by
    obtain ⟨w, rest, -, hout, -⟩ := hagree.wired.wired
    rw [hout, sentBytes_append, ← hos, sentBytes_append, List.append_assoc, List.append_assoc]
    exact List.prefix_append ..
  have hframes : q.agentOut <+: attachment.history.chunks.flatten ++ s.client.received.flatMap PaneOutbound.bytes := by
    rw [hq.agentOut]
    obtain ⟨rest, hrest⟩ := hsent
    have hall := attachFrames_bytes identity attachment m clock times failure notes s.client.received
    rw [← hrest, List.flatMap_append] at hall
    exact (List.prefix_append ..).trans hall
  rw [hshown.payloads]
  exact (hbytes.trans hframes).trans hp.taken

/-- Where everything is at rest, the browser has been given all of the output
since the start of the replay. -/
theorem shown_all (hp : AttachRun p attachment p' s) (hc : attachment.client ∈ p'.clients) (hd : s.client.done = false)
    (hf : p'.inflight = []) (hsend : s.client.send = []) (hpending : s.client.pending = [])
    (hexit : attachment.exit.exited = false) (hopen : ∀ outbound ∈ s.client.received, outbound.closeAfter = false)
    (hq : Fed (attachFrames identity attachment m clock times failure notes s.client.received) q)
    (hhealthy : q.stream.Healthy) (hreader : q.reader = []) (hbuffer : q.stream.buffer = [])
    (hv : sub.Valid) (hsafe : ∀ o ∈ binaries q.popped, o.binarySequence ≤ Js.maxSafeInteger)
    (hds : Writes sub q.popped q.sent ds) (ho : JustOpened sub c stream) :
    ∃ stream', (c.deliverAll ds).stream (streamKey sub.identity) = some stream' ∧
      Shown attachment.history.deltaFrom (p'.out.drop attachment.history.deltaFrom) stream' := by
  obtain ⟨hagree, hplaced⟩ := hq.attach hp List.prefix_rfl
  obtain ⟨-, stream', hstream', hshown⟩ := writes_shown hagree hplaced hv hsafe (List.append_nil _) hds ho
  refine ⟨stream', hstream', ?_⟩
  have hbytes : sentBytes q.popped = q.agentOut := by
    obtain ⟨w, rest, -, hout, howes⟩ := hagree.wired.wired
    have hrest : rest = [] := by
      have := howes hhealthy
      rw [hreader] at this
      exact this.1
    rw [hout, hrest, hbuffer, List.append_nil, List.append_nil]
  rwa [hbytes, hq.agentOut, attachFrames_all hexit hopen, hp.taken_all hc hd hf hsend hpending] at hshown

end

/-! ## One byte before the attach, one after it -/

theorem numeric_jsonInt (n : Int) : (jsonInt n).Numeric := by
  unfold jsonInt
  split
  · exact numeric_jsonUint _
  · rename_i m _
    obtain ⟨hn, hc⟩ := numeric_jsonUint (m + 1)
    refine ⟨?_, List.forall_mem_cons.mpr ⟨by decide, hc⟩⟩
    cases hd : Nat.toDigits 10 (m + 1) with
    | nil =>
      rw [hd] at hn
      exact absurd hn (by decide)
    | cons d ds =>
      have hminus : d ≠ '-' := by
        rintro rfl
        have := digits_isDigit (m + 1) '-' (by rw [hd]; exact List.mem_cons_self ..)
        exact absurd this (by decide)
      unfold Json.isNumber at hn ⊢
      simpa [hd, hminus] using hn

/-- A value of a JSON text, as the server decodes it. -/
def readValue : Json → JsonValue
  | .str value => .str (String.ofList value)
  | _ => .other ""

theorem readValue_iff (value : Json) (t : String) : readValue value = .str t ↔ value = jsonString t := by
  cases value with
  | str value =>
    simp only [readValue, jsonString, JsonValue.str.injEq, Json.str.injEq]
    exact ⟨fun h => by rw [← h, String.toList_ofList], fun h => by rw [h, String.ofList_toList]⟩
  | _ => simp [readValue, jsonString]

theorem readValue_string (s : String) : readValue (jsonString s) = .str s := (readValue_iff _ _).mpr rfl

theorem readValue_int (n : Int) : readValue (jsonInt n) = .other "" := by
  unfold jsonInt
  split <;> rfl

/-- Of two fields alike the later one counts. -/
def readObject (fields : List (List Char × Json)) : JsonObject :=
  fields.reverse.map fun field => (String.ofList field.1, readValue field.2)

theorem readObject_nil : readObject [] = [] := rfl

theorem readObject_cons (key : String) (value : Json) (fields : List (List Char × Json)) :
    readObject ((key.toList, value) :: fields) = readObject fields ++ [(key, readValue value)] := by
  simp [readObject, String.ofList_toList]

theorem lookup_read (fields : List (List Char × Json)) (key t : String) :
    (fields.map fun field => (String.ofList field.1, readValue field.2)).lookup key = some (.str t) ↔
      fields.lookup key.toList = some (jsonString t) := by
  induction fields with
  | nil => simp
  | cons field fields ih =>
    obtain ⟨k, value⟩ := field
    by_cases hk : key.toList = k
    · subst hk
      simp [String.ofList_toList, readValue_iff]
    · have hne : (key == String.ofList k) = false := by
        have : key ≠ String.ofList k := fun he => hk (by rw [he, String.toList_ofList])
        simp [this]
      have hne' : (key.toList == k) = false := by simp [hk]
      simp only [List.map_cons, List.lookup_cons, hne, hne', ih]

theorem describes_read {fields : List (List Char × Json)} {message : JsonObject} (hn : (Json.obj fields).Numeric)
    (hm : readObject fields = message) : Describes message (.obj fields) := by
  subst hm
  exact ⟨⟨_, rfl⟩, hn, fun key t => lookup_read fields.reverse key t⟩

def shownIdentity : TerminalReplayIdentity := ⟨"s", "", "", "p"⟩

theorem shown_tabFields : shownIdentity.tabFields = [] := if_neg (by decide)

def shownHistory : PaneHistorySnapshot where
  chunks := [[0x61]]
  generation := "g"
  syncMode := "snapshot"
  serverBase := 0
  serverEnd := 1
  deltaFrom := 0
  deltaTo := 1
  cols := 80
  rows := 24

def readyMessage : JsonObject := [
  ("agent_attach_prepare_duration_ms", .other ""), ("agent_history_snapshot_duration_ms", .other ""),
  ("agent_pane_resolve_duration_ms", .other ""), ("agent_workspace_ready_duration_ms", .other ""),
  ("agent_attach_started_unix_ms", .other ""), ("server_unix_ms", .other ""), ("type", .str "agent-attach-ready")]

theorem ready_described : Describes readyMessage (agentAttachReady {}) := by
  unfold agentAttachReady
  refine describes_read ?_ ?_
  · simp only [Json.Numeric, Json.NumericFields, numeric_jsonInt, jsonString, and_self]
  · simp only [readObject_cons, readValue_string, readValue_int, readObject_nil]
    rfl

def startMessage : JsonObject := [
  ("server_replay_started_unix_ms", .other ""), ("server_replay_frames", .other ""), ("server_history_chunks", .other ""),
  ("server_history_bytes", .other ""), ("pixel_height", .other ""), ("pixel_width", .other ""), ("rows", .other ""),
  ("cols", .other ""), ("resize_epoch", .str ""), ("delta_to_cursor", .str "1"), ("delta_from_cursor", .str "0"),
  ("sync_mode", .str "snapshot"), ("server_end_cursor", .str "1"), ("server_base_cursor", .str "0"), ("history_generation", .str "g"),
  ("allow_generated_input", .other ""), ("pane_id", .str "p"), ("selector", .str "s"), ("resize_protocol", .str "epoch-v1"),
  ("type", .str "history-replay-start"), ("recovery_baseline", .str "raw-history")]

def shownStart : Json := historyReplayStart shownIdentity shownHistory blankMemory true {}

theorem start_described : Describes startMessage shownStart := by
  have hbaseline : baselineFields shownHistory blankMemory = [("recovery_baseline".toList, jsonString "raw-history")] := rfl
  unfold shownStart historyReplayStart
  rw [shown_tabFields, hbaseline]
  simp only [List.nil_append, List.cons_append, jsonCursor]
  refine describes_read ?_ ?_
  · simp only [Json.Numeric, Json.NumericFields, numeric_jsonInt, jsonString, and_self]
  · simp only [readObject_cons, readValue_string, readValue_int, readObject_nil]
    rfl

def completeMessage : JsonObject := [
  ("server_replay_duration_ms", .other ""), ("server_replay_finished_unix_ms", .other ""), ("server_replay_started_unix_ms", .other ""),
  ("server_replay_frames", .other ""), ("server_history_chunks", .other ""), ("server_history_bytes", .other ""),
  ("history_cursor", .str "1"), ("history_generation", .str "g"), ("pane_id", .str "p"), ("selector", .str "s"),
  ("type", .str "history-replay-complete")]

def shownComplete : Json := historyReplayComplete shownIdentity shownHistory 1 {}

theorem complete_described : Describes completeMessage shownComplete := by
  unfold shownComplete historyReplayComplete
  rw [shown_tabFields]
  simp only [List.nil_append, jsonCursor]
  refine describes_read ?_ ?_
  · simp only [Json.Numeric, Json.NumericFields, numeric_jsonInt, jsonString, and_self]
  · simp only [readObject_cons, readValue_string, readValue_int, readObject_nil]
    rfl

def shownFrames : List AgentFrame :=
  [.text (agentAttachReady {}), .text shownStart, .binary [0x61], .text shownComplete, .binary [0x62]]

theorem shown_attach : ∃ p attachment p' s, paneMachine.run (.start "g" 80 24 0 false) [.output [0x61] {}] = some p ∧
    (p.attachClient {} {}).2 = .ok attachment ∧ p.history.stop < uint64Limit ∧ p.resizeEpoch < uint64Limit ∧
    paneMachine.run (p.attachClient {} {}).1 [.output [0x62] {}, .deliver 0, .receive 0] = some p' ∧
    p'.subscribers[attachment.client]? = some s ∧ p'.out = [0x61, 0x62] ∧ attachment.history = shownHistory ∧
    attachFrames shownIdentity attachment blankMemory {} {} none (fun _ => {}) s.client.received = shownFrames ∧
    attachment.client ∈ p'.clients ∧ s.client.done = false ∧ p'.inflight = [] ∧ s.client.send = [] ∧ s.client.pending = [] ∧
    attachment.exit.exited = false ∧ ∀ outbound ∈ s.client.received, outbound.closeAfter = false :=
  ⟨_, _, _, _, rfl, rfl, by decide, by decide, rfl, rfl, rfl, rfl, rfl, by decide, rfl, rfl, rfl, rfl, rfl, by decide⟩

def shownEvents : List QueueEvent :=
  [.capacity, .agentText { message := some readyMessage, size := 10 }, .readerStep, .readerStep, .readerStep,
    .capacity, .agentText { message := some startMessage, size := 10 }, .readerStep, .readerStep, .readerStep,
    .capacity, .agentBinary [0x61], .readerStep, .readerStep, .readerStep, .readerStep, .readerStep,
    .capacity, .agentText { message := some completeMessage, size := 10 }, .readerStep, .readerStep, .readerStep,
    .capacity, .agentBinary [0x62], .readerStep, .readerStep, .readerStep, .readerStep, .readerStep,
    .beginTurn, .pop false, .pop false, .pop false, .pop false, .pop true, .finishTurn, .notify]

theorem shownEvents_carry : List.Forall₂ Carries shownFrames (shownEvents.filter QueueEvent.ofAgent) :=
  .cons ⟨_, rfl, ready_described⟩ (.cons ⟨_, rfl, start_described⟩ (.cons rfl (.cons ⟨_, rfl, complete_described⟩ (.cons rfl .nil))))

def shownEntry (sequence : Nat) (message : JsonObject) : QueueOutbound where
  sequence := sequence
  payload := .text (some message)
  byteCost := 10

def shownByte (sequence n : Nat) (byte : UInt8) : QueueOutbound where
  sequence := sequence
  binarySequence := n + 1
  payload := .binary [byte]
  startCursor := n
  endCursor := n + 1
  byteCost := 1

theorem shownEvents_run : ∃ q, queueMachine.run (.start .window 0 0) shownEvents = some q ∧ q.sent = [(2, 2)] ∧
    q.popped = [shownEntry 1 readyMessage, shownEntry 2 startMessage, shownByte 3 0 0x61,
      { shownEntry 4 completeMessage with replayBurstFinish := true }, shownByte 5 1 0x62] ∧
    q.stream.Healthy ∧ q.reader = [] ∧ q.stream.buffer = [] := ⟨_, rfl, rfl, rfl, ⟨rfl, rfl⟩, rfl, rfl⟩

theorem shown_writes {q : QueueRun} (hsent : q.sent = [(2, 2)])
    (hpopped : q.popped = [shownEntry 1 readyMessage, shownEntry 2 startMessage, shownByte 3 0 0x61,
      { shownEntry 4 completeMessage with replayBurstFinish := true }, shownByte 5 1 0x62]) :
    ∃ ds, Writes openedSubscription q.popped q.sent ds := by
  have hframe (sequence n : Nat) (byte : UInt8) (h : ((shownByte sequence n byte).frame openedSubscription).isSome = true) :
      ∃ data, (shownByte sequence n byte).frame openedSubscription = some data := Option.isSome_iff_exists.mp h
  obtain ⟨first, hfirst⟩ := hframe 3 0 0x61 (by decide +kernel)
  obtain ⟨second, hsecond⟩ := hframe 5 1 0x62 (by decide +kernel)
  refine ⟨[.paneControl (paneControl openedSubscription (agentAttachReady {})), .paneControl (paneControl openedSubscription shownStart),
    .binary first, .paneControl (paneControl openedSubscription shownComplete), .binary second,
    .paneControl (paneControl openedSubscription (queueTurnComplete (2, 2)))], ?_⟩
  rw [hpopped, hsent]
  exact .outbound ⟨_, _, rfl, ready_described, rfl⟩ (.outbound ⟨_, _, rfl, start_described, rfl⟩ (.outbound ⟨rfl, hfirst⟩
    (.outbound ⟨_, _, rfl, complete_described, rfl⟩ (.outbound ⟨rfl, hsecond⟩ (.turn .nil)))))

theorem justOpened_stream : JustOpened openedSubscription openedConnection openedStream := ⟨rfl, rfl, ⟨rfl, rfl, rfl, rfl⟩, rfl⟩

theorem shown_output_twoBytes : ∃ q ds, queueMachine.run (.start .window 0 0) shownEvents = some q ∧
    Writes openedSubscription q.popped q.sent ds ∧ openedConnection.TakesAll ds ∧
    ∃ s, (openedConnection.deliverAll ds).stream (streamKey openedSubscription.identity) = some s ∧ ShownExact [0x61, 0x62] 0 s := by
  obtain ⟨p, attachment, p', s, hrun, ha, hstop, hepoch, hmore, hs, hout, hhistory, hframes, -⟩ := shown_attach
  have hp : AttachRun p attachment p' s := ⟨⟨_, _, _, _, _, _, hrun⟩, ⟨_, _, _, ha, hmore⟩, hs, hstop, hepoch⟩
  obtain ⟨q, hq, hsent, hpopped, -⟩ := shownEvents_run
  obtain ⟨ds, hds⟩ := shown_writes hsent hpopped
  have hsafe : ∀ o ∈ binaries q.popped, o.binarySequence ≤ Js.maxSafeInteger := by
    rw [hpopped]
    decide
  obtain ⟨htakes, stream, hstream, hshown⟩ := shown_output shownIdentity blankMemory {} {} none (fun _ => {}) hp List.prefix_rfl
    ⟨_, _, _, _, hq, hframes ▸ shownEvents_carry⟩ openedSubscription_valid hsafe hds List.prefix_rfl justOpened_stream
  rw [hout, hhistory] at hshown
  exact ⟨q, ds, hq, hds, htakes, stream, hstream, hshown⟩

/-- The byte from before the attach came with the replay, the other one as it was put out. -/
theorem shown_all_twoBytes : ∃ q ds, queueMachine.run (.start .window 0 0) shownEvents = some q ∧
    Writes openedSubscription q.popped q.sent ds ∧
    ∃ s, (openedConnection.deliverAll ds).stream (streamKey openedSubscription.identity) = some s ∧ Shown 0 [0x61, 0x62] s := by
  obtain ⟨p, attachment, p', s, hrun, ha, hstop, hepoch, hmore, hs, hout, hhistory, hframes, hc, hd, hf, hsend, hpending, hexit, hopen⟩ :=
    shown_attach
  have hp : AttachRun p attachment p' s := ⟨⟨_, _, _, _, _, _, hrun⟩, ⟨_, _, _, ha, hmore⟩, hs, hstop, hepoch⟩
  obtain ⟨q, hq, hsent, hpopped, hhealthy, hreader, hbuffer⟩ := shownEvents_run
  obtain ⟨ds, hds⟩ := shown_writes hsent hpopped
  have hsafe : ∀ o ∈ binaries q.popped, o.binarySequence ≤ Js.maxSafeInteger := by
    rw [hpopped]
    decide
  obtain ⟨stream, hstream, hshown⟩ := shown_all shownIdentity blankMemory {} {} none (fun _ => {}) hp hc hd hf hsend hpending hexit hopen
    ⟨_, _, _, _, hq, hframes ▸ shownEvents_carry⟩ hhealthy hreader hbuffer openedSubscription_valid hsafe hds justOpened_stream
  rw [hout, hhistory] at hshown
  exact ⟨q, ds, hq, hds, stream, hstream, hshown⟩

end Webshell
