import Webshell.Pane

/-!
# Snapshot and live output join without a gap

A client's snapshot and the chunks enqueued to it since are one range of the
pane's output. The append in progress is the only output a client may still
miss, and what it misses are exactly that append's chunks for it.
-/

namespace Webshell

open Slice

/-- The bytes that the append in progress has still to enqueue to a client. -/
def flightFor (client : Nat) (inflight : List (Nat × Bytes)) : Bytes :=
  (inflight.filter fun f => f.1 = client).flatMap (·.2)

/-- `upto` is how far the client has got; while open it is followed by `flight`, which is
all that it misses as long as it is attached. -/
structure Received (out : Bytes) (attached : Prop) (flight : Bytes) (s : Subscriber) (upto : Nat) : Prop where
  from_le : s.snapshot.deltaFrom ≤ s.snapshot.deltaTo
  to_le : s.snapshot.deltaTo ≤ upto
  upto_le : upto ≤ out.length
  chunks : s.snapshot.chunks.flatten = slice out s.snapshot.deltaFrom s.snapshot.deltaTo
  live : s.client.binary = slice out s.snapshot.deltaTo upto
  flying : s.client.done = false → flight <+: out.drop upto
  missing : s.client.done = false → attached → out.drop upto = flight

structure PaneInv (p : TerminalPane) : Prop where
  history : HistoryInv p.out p.history
  pending : ∀ e, p.checkpoint = some e → PendingInv p.out e
  nodup : p.clients.Nodup
  known : ∀ c ∈ p.clients, c < p.subscribers.length
  flights : ∀ f ∈ p.inflight, f.1 < p.subscribers.length
  each : ∀ c s, p.subscribers[c]? = some s →
    ∃ upto, Received p.out (c ∈ p.clients) (flightFor c p.inflight) s upto

/-! ## Messages without output -/

/-- Clients told something: the same bytes, and none opened again. -/
structure Told (before after : List Subscriber) : Prop where
  length : after.length = before.length
  same : ∀ (c : Nat) (s' : Subscriber), after[c]? = some s' → ∃ s : Subscriber, before[c]? = some s ∧ s'.snapshot = s.snapshot ∧
    s'.client.binary = s.client.binary ∧ (s'.client.done = false → s.client.done = false)

theorem Told.refl (subscribers : List Subscriber) : Told subscribers subscribers :=
  ⟨rfl, fun _ s hs => ⟨s, hs, rfl, rfl, fun hd => hd⟩⟩

theorem Told.trans {a b c : List Subscriber} (h₁ : Told a b) (h₂ : Told b c) : Told a c where
  length := h₂.length.trans h₁.length
  same := by
    intro i s'' hs''
    obtain ⟨s', hs', hsnap', hb', hd'⟩ := h₂.same i s'' hs''
    obtain ⟨s, hs, hsnap, hb, hd⟩ := h₁.same i s' hs'
    exact ⟨s, hs, hsnap'.trans hsnap, hb'.trans hb, fun hf => hd (hd' hf)⟩

theorem told_modify (subscribers : List Subscriber) (client : Nat) (f : PaneClient → PaneClient)
    (hf : ∀ s, subscribers[client]? = some s →
      (f s.client).binary = s.client.binary ∧ ((f s.client).done = false → s.client.done = false)) :
    Told subscribers (subscribers.modify client fun s => { s with client := f s.client }) where
  length := List.length_modify ..
  same := by
    intro c s' hs'
    rw [List.getElem?_modify] at hs'
    obtain ⟨s, hs, rfl⟩ := Option.map_eq_some_iff.mp hs'
    refine ⟨s, hs, ?_⟩
    split
    · rename_i hc
      subst hc
      exact ⟨rfl, hf s hs⟩
    · exact ⟨rfl, rfl, fun hd => hd⟩

theorem enqueueText_told (p : TerminalPane) (answers : PaneAnswers) (control : PaneControl) (closeAfter : Bool)
    (clients : List Nat) : ∃ subscribers, p.enqueueText answers control closeAfter clients =
      { p with subscribers := subscribers } ∧ Told p.subscribers subscribers := by
  unfold TerminalPane.enqueueText
  induction clients generalizing p with
  | nil => exact ⟨_, rfl, .refl _⟩
  | cons client clients ih =>
    obtain ⟨subscribers, he, ht⟩ := ih (p.enqueueTo client ⟨.text control (answers.textSize control), closeAfter⟩)
    refine ⟨subscribers, he, Told.trans ?_ ht⟩
    refine told_modify p.subscribers client (fun c => (c.enqueue _).1) fun s _ => ?_
    refine ⟨PaneClient.enqueue_text_binary .., fun hd => ?_⟩
    cases hc : s.client.done with
    | false => rfl
    | true => rw [PaneClient.enqueue_done hc] at hd; rw [hc] at hd; cases hd

theorem recordCheckpointFailure_told (p : TerminalPane) (operation : String) (batchFrom batchTo pendingBefore : Nat)
    (answers : PaneAnswers) : ∃ subscribers failure,
      p.recordCheckpointFailureLocked operation batchFrom batchTo pendingBefore answers =
        { p with subscribers := subscribers, checkpointFailure := failure } ∧ Told p.subscribers subscribers := by
  unfold TerminalPane.recordCheckpointFailureLocked
  split
  · exact ⟨_, _, rfl, .refl _⟩
  · split
    · exact ⟨_, _, rfl, .refl _⟩
    · split
      · exact ⟨_, _, rfl, .refl _⟩
      · obtain ⟨subscribers, he, ht⟩ := enqueueText_told { p with checkpointFailure := some _ } answers
          .checkpointDiagnostic false p.clients
        exact ⟨subscribers, _, he, ht⟩

namespace PaneInv

variable {p p' : TerminalPane}

theorem frame (h : PaneInv p) (hc : p'.clients = p.clients) (hs : p'.subscribers = p.subscribers)
    (hh : p'.history = p.history) (he : p'.checkpoint = p.checkpoint) (ho : p'.out = p.out)
    (hi : p'.inflight = p.inflight) : PaneInv p' where
  history := by rw [ho, hh]; exact h.history
  pending := by rw [ho, he]; exact h.pending
  nodup := by rw [hc]; exact h.nodup
  known := by rw [hc, hs]; exact h.known
  flights := by rw [hi, hs]; exact h.flights
  each := by rw [hs, ho, hc, hi]; exact h.each

theorem withCheckpoint (h : PaneInv p) {engine : Option CheckpointEngine}
    (he : ∀ e, engine = some e → PendingInv p.out e) : PaneInv { p with checkpoint := engine } :=
  { history := h.history, pending := he, nodup := h.nodup, known := h.known, flights := h.flights, each := h.each }

theorem withHistory (h : PaneInv p) {history : PaneHistory} (hh : HistoryInv p.out history) :
    PaneInv { p with history := history } :=
  { history := hh, pending := h.pending, nodup := h.nodup, known := h.known, flights := h.flights, each := h.each }

/-- Telling clients something keeps the invariant. -/
theorem told (h : PaneInv p) {subscribers : List Subscriber} (ht : Told p.subscribers subscribers) :
    PaneInv { p with subscribers := subscribers } where
  history := h.history
  pending := h.pending
  nodup := h.nodup
  known := by simp only; rw [ht.length]; exact h.known
  flights := by simp only; rw [ht.length]; exact h.flights
  each := by
    intro c s' hs'
    obtain ⟨s, hs, hsnap, hb, hd⟩ := ht.same c s' hs'
    obtain ⟨upto, hr⟩ := h.each c s hs
    exact ⟨upto, {
      from_le := by rw [hsnap]; exact hr.from_le
      to_le := by rw [hsnap]; exact hr.to_le
      upto_le := hr.upto_le
      chunks := by rw [hsnap]; exact hr.chunks
      live := by rw [hsnap, hb]; exact hr.live
      flying := fun hf => hr.flying (hd hf)
      missing := fun hf => hr.missing (hd hf) }⟩

theorem enqueueText (h : PaneInv p) (answers : PaneAnswers) (control : PaneControl) (closeAfter : Bool)
    (clients : List Nat) : PaneInv (p.enqueueText answers control closeAfter clients) := by
  obtain ⟨subscribers, he, ht⟩ := enqueueText_told p answers control closeAfter clients
  rw [he]; exact h.told ht

theorem recordCheckpointFailure (h : PaneInv p) (operation : String) (batchFrom batchTo pendingBefore : Nat)
    (answers : PaneAnswers) :
    PaneInv (p.recordCheckpointFailureLocked operation batchFrom batchTo pendingBefore answers) := by
  obtain ⟨subscribers, failure, he, ht⟩ := recordCheckpointFailure_told p operation batchFrom batchTo pendingBefore answers
  rw [he]; exact (h.told ht).frame rfl rfl rfl rfl rfl rfl

theorem resizeCheckpoint (h : PaneInv p) (cols rows lines : Int) (answers : PaneAnswers) :
    PaneInv (p.resizeCheckpointLocked cols rows lines answers) := by
  unfold TerminalPane.resizeCheckpointLocked
  split
  · exact h
  · rename_i e he
    refine (h.withCheckpoint fun e' he' => ?_).recordCheckpointFailure ..
    cases he'
    exact (h.pending e he).resize cols rows lines answers.parser

theorem trimHistory (h : PaneInv p) : PaneInv p.trimHistoryLocked := by
  unfold TerminalPane.trimHistoryLocked
  exact (h.withHistory (h.history.trim _)).frame rfl rfl rfl rfl rfl rfl

/-! ## Resizing -/

theorem resizeWithPixels (h : PaneInv p) (cols rows pixelWidth pixelHeight : Int) (answers : PaneAnswers) :
    PaneInv (p.resizeWithPixelsUnlocked cols rows pixelWidth pixelHeight answers).1 := by
  unfold TerminalPane.resizeWithPixelsUnlocked
  split
  · exact h
  · simp only
    split
    · exact h
    · generalize hg : normalizeGeometry p.geometry cols rows pixelWidth pixelHeight = g
      have hstored : PaneInv { p with geometry := g } := h.frame rfl rfl rfl rfl rfl rfl
      have hr := hstored.resizeCheckpoint g.cols g.rows (p.historyLimitBytes / averageHistoryBytesPerLine) answers
      split
      · exact hr
      · split
        · exact hr
        · exact hr.frame rfl rfl rfl rfl rfl rfl

theorem refuse (h : PaneInv p) (source epoch : Nat) (reason err : String) (answers : PaneAnswers) :
    PaneInv (p.refuse source epoch reason err answers).pane := h.enqueueText ..

theorem resizeAndOwn (h : PaneInv p) (cols rows pixelWidth pixelHeight : Int) (source : Nat) (answers : PaneAnswers) :
    PaneInv (p.resizeAndOwn cols rows pixelWidth pixelHeight source answers).pane := by
  have hr := h.resizeWithPixels cols rows pixelWidth pixelHeight answers
  unfold TerminalPane.resizeAndOwn
  revert hr
  cases p.resizeWithPixelsUnlocked cols rows pixelWidth pixelHeight answers with
  | mk p' err =>
    intro hr
    cases err with
    | some err => exact hr
    | none => exact hr.frame rfl rfl rfl rfl rfl rfl

theorem applyLegacyInputResize (h : PaneInv p) (cols rows pixelWidth pixelHeight : Int) (source : Nat)
    (answers : PaneAnswers) :
    PaneInv (p.applyLegacyInputResize cols rows pixelWidth pixelHeight source answers).pane := by
  unfold TerminalPane.applyLegacyInputResize
  split
  · exact h
  · split
    · exact h.refuse ..
    · exact h.resizeAndOwn ..

theorem applyResize (h : PaneInv p) (message : TerminalControlMessage) (source : Nat) (answers : PaneAnswers) :
    PaneInv (p.applyResize message source answers).pane := by
  unfold TerminalPane.applyResize
  split
  · split
    · exact h.refuse ..
    · split
      · exact h.resizeAndOwn ..
      · exact h.refuse ..
  · rename_i epoch hepoch
    simp only
    generalize normalizeGeometry p.geometry message.Cols message.Rows message.PixelWidth message.PixelHeight = g
    split
    · exact h.refuse ..
    · split
      · exact h.refuse ..
      · split
        · exact h.refuse ..
        · have hr := h.resizeWithPixels g.cols g.rows g.pixelWidth g.pixelHeight answers
          revert hr
          cases p.resizeWithPixelsUnlocked g.cols g.rows g.pixelWidth g.pixelHeight answers with
          | mk p' err =>
            intro hr
            cases err with
            | some err =>
              simp only at hr ⊢
              exact hr.refuse ..
            | none =>
              simp only at hr ⊢
              refine PaneInv.enqueueText ?_ ..
              exact hr.frame rfl rfl rfl rfl rfl rfl

theorem handleTerminalControlMessage (h : PaneInv p) (message : TerminalControlMessage) (client : Nat)
    (answers : PaneAnswers) : PaneInv (p.handleTerminalControlMessage message client answers).1.pane := by
  unfold TerminalPane.handleTerminalControlMessage
  simp only
  split
  · split
    · exact h
    · split
      · simp only
        exact h.applyResize ..
      · simp only
        exact h.applyLegacyInputResize ..
  · split
    · simp only
      exact h.applyResize ..
    · exact h
  · exact h
  · exact h
  · exact h
  · exact h.enqueueText ..
  · exact h

theorem handleResizeFrame (h : PaneInv p) (message : TerminalControlMessage) (client : Nat) (answers : PaneAnswers) :
    PaneInv (p.handleResizeFrame message client answers).pane := by
  unfold TerminalPane.handleResizeFrame
  simp only
  split
  · split
    · exact h.applyLegacyInputResize ..
    · exact h.applyResize ..
  · exact h

end PaneInv

/-! ## Flights -/

theorem takeFlight_spec {client : Nat} : ∀ {inflight rest : List (Nat × Bytes)} {chunk : Bytes},
    TerminalPane.takeFlight client inflight = some (chunk, rest) →
      flightFor client inflight = chunk ++ flightFor client rest ∧
        (∀ other, other ≠ client → flightFor other inflight = flightFor other rest) ∧
          (∀ f ∈ rest, f ∈ inflight) ∧ ∃ f ∈ inflight, f.1 = client
  | [], rest, chunk, h => by cases h
  | (c, x) :: inflight, rest, chunk, h => by
    rw [TerminalPane.takeFlight] at h
    split at h
    · rename_i hc
      cases h
      refine ⟨by simp [flightFor, hc], ?_, fun f hf => List.mem_cons_of_mem _ hf, _, List.mem_cons_self .., hc⟩
      intro other ho
      have hne : ¬ c = other := fun e => ho (e.symm.trans hc)
      simp [flightFor, hne]
    · rename_i hc
      obtain ⟨⟨chunk', rest'⟩, hm, he⟩ := Option.map_eq_some_iff.mp h
      cases he
      obtain ⟨hown, hothers, hsub, f, hf, hfc⟩ := takeFlight_spec hm
      refine ⟨?_, ?_, ?_, f, List.mem_cons_of_mem _ hf, hfc⟩
      · simpa [flightFor, hc] using hown
      · intro other ho
        have := hothers other ho
        by_cases hco : c = other <;> simpa [flightFor, hco] using this
      · intro g hg
        rcases List.mem_cons.mp hg with rfl | hg
        · exact List.mem_cons_self ..
        · exact List.mem_cons_of_mem _ (hsub g hg)

theorem flightFor_notMem {client : Nat} {clients : List Nat} (h : client ∉ clients) (chunks : List Bytes) :
    flightFor client (clients.flatMap fun c => chunks.map fun chunk => (c, chunk)) = [] := by
  unfold flightFor
  rw [List.filter_eq_nil_iff.mpr, List.flatMap_nil]
  intro f hf
  obtain ⟨c, hc, hm⟩ := List.mem_flatMap.mp hf
  obtain ⟨chunk, -, rfl⟩ := List.mem_map.mp hm
  simpa using fun e : c = client => h (e ▸ hc)

/-- A captured client is to be sent all the chunks, in order. -/
theorem flightFor_mem {client : Nat} {clients : List Nat} (hn : clients.Nodup) (h : client ∈ clients)
    (chunks : List Bytes) :
    flightFor client (clients.flatMap fun c => chunks.map fun chunk => (c, chunk)) = chunks.flatten := by
  induction clients with
  | nil => cases h
  | cons c clients ih =>
    have happ : ∀ a b : List (Nat × Bytes), flightFor client (a ++ b) = flightFor client a ++ flightFor client b := by
      intro a b; simp [flightFor]
    obtain ⟨hc, hn⟩ := List.nodup_cons.mp hn
    rw [List.flatMap_cons, happ]
    by_cases he : c = client
    · subst he
      rw [flightFor_notMem hc, List.append_nil]
      unfold flightFor
      rw [List.filter_eq_self.mpr, List.flatMap_map, List.flatMap_id']
      intro f hf
      obtain ⟨chunk, -, rfl⟩ := List.mem_map.mp hf
      simp
    · have hz : flightFor client (chunks.map fun chunk => (c, chunk)) = [] := by
        unfold flightFor
        rw [List.filter_eq_nil_iff.mpr, List.flatMap_nil]
        intro f hf
        obtain ⟨chunk, -, rfl⟩ := List.mem_map.mp hf
        simpa using he
      rw [hz, List.nil_append]
      exact ih hn ((List.mem_cons.mp h).resolve_left (Ne.symm he))

/-! ## Output -/

namespace PaneInv

variable {p p' : TerminalPane}

/-- The locked step of an append: every attached client misses the new bytes, and they are
in flight to it. -/
theorem appendOutput (h : PaneInv p) (hf : p.inflight = []) (filtered : Bytes) (answers : PaneAnswers) :
    PaneInv (p.appendOutput filtered answers) := by
  unfold TerminalPane.appendOutput
  split
  · exact h
  · simp only
    have hgrown : PaneInv { p with
        checkpoint := p.checkpoint.map fun e : CheckpointEngine => e.write filtered answers.parser
        history := (makeHistoryChunks filtered).foldl PaneHistory.append p.history
        out := p.out ++ filtered
        inflight := p.clients.flatMap fun client => (makeHistoryChunks filtered).map fun chunk => (client, chunk) } := by
      constructor
      · have := h.history.appendAll (makeHistoryChunks filtered)
        rwa [makeHistoryChunks_flatten] at this
      · intro e he
        obtain ⟨e₀, he₀, rfl⟩ := Option.map_eq_some_iff.mp he
        exact (h.pending e₀ he₀).write filtered answers.parser
      · exact h.nodup
      · exact h.known
      · intro f hm
        obtain ⟨c, hc, hm⟩ := List.mem_flatMap.mp hm
        obtain ⟨chunk, -, rfl⟩ := List.mem_map.mp hm
        exact h.known c hc
      · intro c s hs
        obtain ⟨upto, hr⟩ := h.each c s hs
        have hle := hr.upto_le
        refine ⟨upto, hr.from_le, hr.to_le, by simp only [List.length_append]; omega, ?_, ?_, ?_, ?_⟩
        · simp only
          rw [slice_append (Nat.le_trans hr.to_le hle)]; exact hr.chunks
        · simp only
          rw [slice_append hle]; exact hr.live
        · intro hd
          simp only
          by_cases hc : c ∈ p.clients
          · have hm := hr.missing hd hc
            rw [hf] at hm
            rw [flightFor_mem h.nodup hc, makeHistoryChunks_flatten, List.drop_append_of_le_length hle, hm]
            exact List.prefix_rfl
          · rw [flightFor_notMem hc]; exact List.nil_prefix
        · intro hd hc
          have hm := hr.missing hd hc
          rw [hf] at hm
          simp only
          rw [flightFor_mem h.nodup hc, makeHistoryChunks_flatten, List.drop_append_of_le_length hle, hm]
          rfl
    have htrimmed := hgrown.trimHistory
    obtain ⟨subscribers, failure, he, ht⟩ := recordCheckpointFailure_told ({ p with
        checkpoint := p.checkpoint.map fun e : CheckpointEngine => e.write filtered answers.parser
        history := (makeHistoryChunks filtered).foldl PaneHistory.append p.history
        out := p.out ++ filtered }.trimHistoryLocked) "write" p.history.stop
      ({ p with
        checkpoint := p.checkpoint.map fun e : CheckpointEngine => e.write filtered answers.parser
        history := (makeHistoryChunks filtered).foldl PaneHistory.append p.history
        out := p.out ++ filtered }.trimHistoryLocked).history.stop
      ((p.checkpoint.map fun e : CheckpointEngine => e.pending.length).getD 0) answers
    rw [he]
    exact (htrimmed.told ht).frame rfl rfl rfl rfl rfl rfl

/-- One chunk of the append reaches one client. -/
theorem deliver (h : PaneInv p) {client : Nat} (hs : p.deliver client = some p') : PaneInv p' := by
  unfold TerminalPane.deliver at hs
  cases ht : TerminalPane.takeFlight client p.inflight with
  | none => rw [ht] at hs; cases hs
  | some r =>
    obtain ⟨chunk, rest⟩ := r
    rw [ht] at hs; cases hs
    obtain ⟨hown, hothers, hsub, -⟩ := takeFlight_spec ht
    refine ⟨h.history, h.pending, h.nodup, ?_, ?_, ?_⟩
    · intro c hc
      simp only [TerminalPane.enqueueTo, TerminalPane.modifyClient, List.length_modify]
      exact h.known c hc
    · intro f hf
      simp only [TerminalPane.enqueueTo, TerminalPane.modifyClient, List.length_modify]
      exact h.flights f (hsub f hf)
    · intro c s hs
      simp only [TerminalPane.enqueueTo, TerminalPane.modifyClient, List.getElem?_modify] at hs ⊢
      obtain ⟨s₀, hs₀, rfl⟩ := Option.map_eq_some_iff.mp hs
      obtain ⟨upto, hr⟩ := h.each c s₀ hs₀
      split
      · rename_i hc
        subst hc
        obtain ⟨hb, hrej, hacc⟩ := PaneClient.enqueue_binary s₀.client ⟨.binary chunk, false⟩
        cases hok : (s₀.client.enqueue ⟨.binary chunk, false⟩).2 with
        | false =>
          have hd := hrej hok
          rw [hok] at hb
          refine ⟨upto, hr.from_le, hr.to_le, hr.upto_le, hr.chunks, ?_, ?_, ?_⟩
          · exact (hb.trans (List.append_nil _)).trans hr.live
          · intro hf; rw [hd] at hf; cases hf
          · intro hf; rw [hd] at hf; cases hf
        | true =>
          have hopen := (hacc hok).1
          rw [hok] at hb
          obtain ⟨tail, ht⟩ := hr.flying hopen
          rw [hown, List.append_assoc] at ht
          have hlen : upto + chunk.length ≤ p.out.length := by
            have := congrArg List.length ht
            have := hr.upto_le
            simp only [List.length_append, List.length_drop] at *
            omega
          have hnext : p.out.drop (upto + chunk.length) = flightFor client rest ++ tail := by
            rw [← List.drop_drop, ← ht, List.drop_left]
          refine ⟨upto + chunk.length, hr.from_le, Nat.le_add_right_of_le hr.to_le, hlen, hr.chunks, ?_, ?_, ?_⟩
          · rw [← slice_extend hr.to_le ht.symm, ← hr.live]; exact hb
          · intro _
            rw [hnext]
            exact List.prefix_append ..
          · intro _ hatt
            have hm := hr.missing hopen hatt
            rw [← List.drop_drop, hm, hown, List.drop_left]
      · rename_i hc
        rw [← hothers c (Ne.symm hc)]
        exact ⟨upto, hr⟩

/-! ## Attach and detach -/

/-- A snapshot taken now: it reaches to the end of the output. -/
structure Current (out : Bytes) (history : PaneHistorySnapshot) : Prop where
  from_le : history.deltaFrom ≤ history.deltaTo
  to_eq : history.deltaTo = out.length
  chunks : history.chunks.flatten = slice out history.deltaFrom history.deltaTo

theorem current_full (h : PaneInv p) : Current p.out p.history.snapshot where
  from_le := by show p.history.base ≤ p.history.stop; rw [h.history.stop_eq]; exact h.history.base_le
  to_eq := h.history.stop_eq
  chunks := h.history.snapshot_chunks

theorem current_delta (h : PaneInv p) {cursor : Nat} (hb : p.history.base ≤ cursor) (he : cursor ≤ p.history.stop) :
    Current p.out (p.history.snapshotFrom cursor) := by
  obtain ⟨hf, ht, hc⟩ := h.history.snapshotFrom_chunks hb he
  exact ⟨by rw [hf, ht]; exact he, ht.trans h.history.stop_eq, by rw [hf, ht]; exact hc⟩

/-- The engine's snapshot stands before the bytes it holds back. -/
theorem current_checkpoint (h : PaneInv p) {history : PaneHistorySnapshot} (hc : Current p.out history)
    {e : CheckpointEngine} (he : p.checkpoint = some e) (hs : e.healthy = true) (checkpoint : TerminalMemoryCheckpoint) :
    Current p.out (p.withCheckpoint history e checkpoint) := by
  obtain ⟨front, hf⟩ := h.pending e he hs
  have hstop := h.history.stop_eq
  have hlen : p.out.length = front.length + e.pending.length := by rw [← hf, List.length_append]
  refine ⟨?_, hc.to_eq, ?_⟩
  · show p.history.stop - e.pending.length ≤ history.deltaTo
    rw [hc.to_eq]; omega
  · have hcut : p.history.stop - e.pending.length = front.length := by omega
    have hdrop : p.out.drop front.length = e.pending := by rw [← hf, List.drop_left]
    show (if e.pending = [] then [] else [e.pending]).flatten =
      slice p.out (p.history.stop - e.pending.length) history.deltaTo
    rw [hc.to_eq, hcut, slice_to_end, hdrop]
    split
    · rename_i hnil; rw [hnil]; rfl
    · simp

theorem checkpointHistory_current (h : PaneInv p) {request : HistorySyncRequest} {answers : PaneAnswers}
    {history : PaneHistorySnapshot} (ha : p.checkpointHistory request answers = .ok history) : Current p.out history := by
  have hfull : Current p.out
      { p.describe "snapshot" p.history.snapshot with checkpointFallback := p.checkpointFallback } :=
    ⟨h.current_full.from_le, h.current_full.to_eq, h.current_full.chunks⟩
  unfold TerminalPane.checkpointHistory at ha
  simp only at ha
  cases he : p.checkpoint with
  | none => rw [he] at ha; cases ha; exact hfull
  | some e =>
    simp only [he] at ha
    split at ha
    · cases hs : e.snapshot p.history.stop answers.parser with
      | error err => rw [hs] at ha; cases ha
      | ok result =>
        rw [hs] at ha
        cases result with
        | none => cases ha; exact hfull
        | some checkpoint =>
          cases ha
          exact h.current_checkpoint hfull he (snapshot_healthy hs) checkpoint
    · cases ha; exact hfull

theorem attachHistory_current (h : PaneInv p) {request : HistorySyncRequest} {answers : PaneAnswers}
    {history : PaneHistorySnapshot} (ha : p.attachHistory request answers = .ok history) : Current p.out history := by
  unfold TerminalPane.attachHistory at ha
  cases hc : p.checkpointHistory request answers with
  | error err => rw [hc] at ha; cases ha
  | ok full =>
    simp only [hc] at ha
    split at ha
    · rename_i hcond
      obtain ⟨-, -, -, -, -, hb, he⟩ := hcond
      cases ha
      have hd := h.current_delta hb he
      exact ⟨hd.from_le, hd.to_eq, hd.chunks⟩
    · cases ha; exact h.checkpointHistory_current hc

theorem flightFor_new (h : PaneInv p) : flightFor p.subscribers.length p.inflight = [] := by
  unfold flightFor
  rw [List.filter_eq_nil_iff.mpr, List.flatMap_nil]
  intro f hf
  have := h.flights f hf
  simp only [decide_eq_true_eq]; omega

/-- A new client starts with everything so far. -/
theorem subscribe (h : PaneInv p) {history : PaneHistorySnapshot} (hc : Current p.out history) :
    PaneInv { p with
      subscribers := p.subscribers ++ [{ client := .new, snapshot := history }]
      clients := p.clients ++ [p.subscribers.length] } where
  history := h.history
  pending := h.pending
  nodup := by
    refine List.nodup_append.mpr ⟨h.nodup, List.nodup_singleton _, fun a ha b hb => ?_⟩
    have := h.known a ha
    rw [List.mem_singleton.mp hb]; omega
  known := by
    intro c hm
    simp only [List.length_append, List.length_singleton]
    rcases List.mem_append.mp hm with hm | hm
    · have := h.known c hm; omega
    · rw [List.mem_singleton.mp hm]; omega
  flights := by
    intro f hf
    have := h.flights f hf
    simp only [List.length_append, List.length_singleton]; omega
  each := by
    intro c s hs
    simp only at hs ⊢
    rcases Nat.lt_or_ge c p.subscribers.length with hlt | hge
    · rw [List.getElem?_append_left hlt] at hs
      obtain ⟨upto, hr⟩ := h.each c s hs
      refine ⟨upto, hr.from_le, hr.to_le, hr.upto_le, hr.chunks, hr.live, hr.flying, fun hd ha => hr.missing hd ?_⟩
      rcases List.mem_append.mp ha with ha | ha
      · exact ha
      · rw [List.mem_singleton.mp ha] at hlt; omega
    · rw [List.getElem?_append_right hge] at hs
      have hlt := (List.getElem?_eq_some_iff.mp hs).1
      rw [List.length_singleton] at hlt
      have hceq : c = p.subscribers.length := by omega
      rw [hceq, Nat.sub_self] at hs
      cases hs
      rw [hceq, h.flightFor_new]
      refine ⟨p.out.length, hc.from_le, Nat.le_of_eq hc.to_eq, Nat.le_refl _, hc.chunks, ?_, ?_, ?_⟩
      · rw [hc.to_eq, slice_self]; rfl
      · exact fun _ => List.nil_prefix
      · exact fun _ _ => List.drop_length

theorem attachClient (h : PaneInv p) (request : HistorySyncRequest) (answers : PaneAnswers) :
    PaneInv (p.attachClient request answers).1 := by
  unfold TerminalPane.attachClient
  split
  · exact h
  · split
    · exact h
    · rename_i generation _
      simp only
      have hg : PaneInv { p with historyGeneration := generation } := h.frame rfl rfl rfl rfl rfl rfl
      cases ha : TerminalPane.attachHistory { p with historyGeneration := generation } request answers with
      | error err => exact hg
      | ok history => exact (hg.subscribe (hg.attachHistory_current ha)).frame rfl rfl rfl rfl rfl rfl

theorem detachClient (h : PaneInv p) (client : Nat) (answers : PaneAnswers) :
    PaneInv (p.detachClient client answers) := by
  have hd : PaneInv { p with clients := p.clients.filter (· ≠ client) } := {
    history := h.history
    pending := h.pending
    nodup := h.nodup.filter _
    known := fun c hc => h.known c (List.mem_of_mem_filter hc)
    flights := h.flights
    each := by
      intro c s hs
      obtain ⟨upto, hr⟩ := h.each c s hs
      exact ⟨upto, hr.from_le, hr.to_le, hr.upto_le, hr.chunks, hr.live, hr.flying, fun hopen ha =>
        hr.missing hopen (List.mem_of_mem_filter ha)⟩ }
  unfold TerminalPane.detachClient
  simp only
  split
  · refine PaneInv.enqueueText ?_ ..
    exact hd.frame rfl rfl rfl rfl rfl rfl
  · exact hd

/-! ## Steps and runs -/

theorem modifyClient (h : PaneInv p) (client : Nat) {f : PaneClient → PaneClient}
    (hf : ∀ s, p.subscribers[client]? = some s →
      (f s.client).binary = s.client.binary ∧ ((f s.client).done = false → s.client.done = false)) :
    PaneInv (p.modifyClient client f) := h.told (told_modify p.subscribers client f hf)

theorem setHistoryLimitBytes (h : PaneInv p) (limit : Int) (answers : PaneAnswers) :
    PaneInv (p.setHistoryLimitBytes limit answers) := by
  unfold TerminalPane.setHistoryLimitBytes
  simp only
  split
  · exact h
  · refine PaneInv.resizeCheckpoint (PaneInv.trimHistory ?_) ..
    exact h.frame rfl rfl rfl rfl rfl rfl

theorem close (h : PaneInv p) : PaneInv p.close := by
  unfold TerminalPane.close
  split
  · exact h
  · refine (h.withCheckpoint fun e he => ?_).frame rfl rfl rfl rfl rfl rfl
    obtain ⟨e₀, -, rfl⟩ := Option.map_eq_some_iff.mp he
    exact PendingInv.close

theorem accept {client : Nat} {result : TerminalPane.ResizeResult} (h : PaneInv result.pane)
    (hs : p.accept client result = some p') : PaneInv p' := by
  unfold TerminalPane.accept at hs
  split at hs
  · cases hs; exact h
  · cases hs

theorem step (h : PaneInv p) {e : PaneEvent} (hs : paneMachine.step p e = some p') : PaneInv p' := by
  cases e with
  | attach request answers => cases hs; exact h.attachClient request answers
  | detach client answers =>
    simp only [paneMachine] at hs
    split at hs
    · cases hs; exact h.detachClient client answers
    · cases hs
  | output filtered answers =>
    simp only [paneMachine] at hs
    split at hs
    · cases hs; exact h
    · split at hs
      · rename_i hf
        cases hs; exact h.appendOutput hf filtered answers
      · cases hs
  | deliver client => exact h.deliver hs
  | limit bytes answers => cases hs; exact h.setHistoryLimitBytes bytes answers
  | control client message answers => exact accept (h.handleTerminalControlMessage message client answers) hs
  | resizeFrame client message answers => exact accept (h.handleResizeFrame message client answers) hs
  | receive client =>
    simp only [paneMachine] at hs
    split at hs
    · cases hs
    · rename_i s hsub
      obtain ⟨c, hc, rfl⟩ := Option.map_eq_some_iff.mp hs
      obtain ⟨ha, hd⟩ := PaneClient.receive_accepted hc
      refine h.modifyClient client fun s' hs' => ?_
      rw [hsub] at hs'; cases hs'
      exact ⟨congrArg (List.flatMap PaneOutbound.bytes) ha, fun hf => by rw [← hd]; exact hf⟩
  | dequeued client size =>
    cases hs
    refine h.modifyClient client fun s _ => ?_
    obtain ⟨ha, hd⟩ := s.client.dequeued_accepted size
    exact ⟨congrArg (List.flatMap PaneOutbound.bytes) ha, fun hf => by rw [← hd]; exact hf⟩
  | exit exitCode exitText =>
    cases hs
    unfold TerminalPane.markExited
    split
    · exact h
    · exact h.frame rfl rfl rfl rfl rfl rfl
  | retain => cases hs; exact h.frame rfl rfl rfl rfl rfl rfl
  | notifyExit client retained answers =>
    simp only [paneMachine, TerminalPane.notifyExit] at hs
    split at hs
    · cases hs
      refine PaneInv.enqueueText ?_ ..
      exact h.frame rfl rfl rfl rfl rfl rfl
    · cases hs
  | close => cases hs; exact h.close
  | closeClient client => cases hs; exact h.modifyClient client fun s _ => ⟨rfl, fun hf => by cases hf⟩

theorem start (generation : String) (cols rows limit : Int) (localPTY : Bool) :
    PaneInv (TerminalPane.start generation cols rows limit localPTY) where
  history := .empty
  pending := by
    intro e he
    unfold TerminalPane.start at he
    cases localPTY with
    | false => cases he
    | true => cases he; exact fun _ => List.suffix_rfl
  nodup := List.nodup_nil
  known := fun c hc => by cases hc
  flights := fun f hf => by cases hf
  each := fun c s hs => by cases hs

end PaneInv

/-- What a client has been given: its snapshot and the output since, without a gap, up to
`upto`. A client that is attached and open misses the chunks in flight to it and nothing else. -/
structure ReplayExact (p : TerminalPane) (c : Nat) (s : Subscriber) : Prop where
  from_le : s.snapshot.deltaFrom ≤ s.snapshot.deltaTo
  snapshot : s.snapshot.chunks.flatten = slice p.out s.snapshot.deltaFrom s.snapshot.deltaTo
  live : ∃ upto, s.snapshot.deltaTo ≤ upto ∧ upto ≤ p.out.length ∧
    s.snapshot.chunks.flatten ++ s.client.binary = slice p.out s.snapshot.deltaFrom upto ∧
      (c ∈ p.clients → s.client.done = false → p.out.drop upto = flightFor c p.inflight)

theorem replay_exact {generation : String} {cols rows limit : Int} {localPTY : Bool} {p : TerminalPane}
    {es : List PaneEvent} (h : paneMachine.run (.start generation cols rows limit localPTY) es = some p) {c : Nat}
    {s : Subscriber} (hs : p.subscribers[c]? = some s) : ReplayExact p c s := by
  have hi := paneMachine.run_inv (fun p e p' hi hs => hi.step hs) h (PaneInv.start ..)
  obtain ⟨upto, hr⟩ := hi.each c s hs
  refine ⟨hr.from_le, hr.chunks, upto, hr.to_le, hr.upto_le, ?_, fun ha ho => hr.missing ho ha⟩
  rw [hr.chunks, hr.live, slice_join hr.from_le hr.to_le]

/-- One client attaches before an append, a second one between the append and its fan-out. -/
def attachAroundOutput : List PaneEvent :=
  [.output [0x61] {}, .attach {} {}, .output [0x62, 0x63] {}, .attach {} {}, .deliver 0, .output [0x64] {}, .deliver 1]

theorem replay_exact_attachAroundOutput : ∃ p s t,
    paneMachine.run (.start "g" 80 24 0 true) attachAroundOutput = some p ∧ p.subscribers[0]? = some s ∧
      p.subscribers[1]? = some t ∧ s.snapshot.chunks.flatten ++ s.client.binary = [0x61, 0x62, 0x63] ∧
        t.snapshot.chunks.flatten ++ t.client.binary = [0x61, 0x62, 0x63, 0x64] ∧ ReplayExact p 0 s ∧
          ReplayExact p 1 t := by
  have h : paneMachine.run (.start "g" 80 24 0 true) attachAroundOutput = some _ := rfl
  exact ⟨_, _, _, h, rfl, rfl, by decide, by decide, replay_exact h rfl, replay_exact h rfl⟩

end Webshell
