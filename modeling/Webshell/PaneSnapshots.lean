import Webshell.PaneReplay

/-!
# A snapshot stays with its client

Whatever happens to a pane, a client that attached keeps the place it was given
and the snapshot it was answered with.
-/

namespace Webshell

namespace TerminalPane

/-- Every client is where it was, with its snapshot. -/
structure Kept (p p' : TerminalPane) : Prop where
  each : ∀ (c : Nat) (s : Subscriber), p.subscribers[c]? = some s → ∃ s' : Subscriber, p'.subscribers[c]? = some s' ∧ s'.snapshot = s.snapshot

namespace Kept

variable {p p' p'' : TerminalPane}

theorem same (h : p'.subscribers = p.subscribers) : Kept p p' :=
  ⟨fun _ s hs => ⟨s, by rw [h]; exact hs, rfl⟩⟩

theorem refl (p : TerminalPane) : Kept p p := same rfl

theorem trans (h : Kept p p') (h' : Kept p' p'') : Kept p p'' := by
  constructor
  intro c s hs
  obtain ⟨s', hs', he⟩ := h.each c s hs
  obtain ⟨s'', hs'', he'⟩ := h'.each c s' hs'
  exact ⟨s'', hs'', he'.trans he⟩

/-- Nothing was done to the clients before. -/
theorem before (h : Kept p' p'') (hs : p'.subscribers = p.subscribers) : Kept p p'' := (same hs).trans h

theorem told (h : Told p.subscribers p'.subscribers) : Kept p p' := by
  constructor
  intro c s hs
  have hlt : c < p'.subscribers.length := by
    rw [h.length]
    exact (List.getElem?_eq_some_iff.mp hs).1
  obtain ⟨s₀, hs₀, he, -⟩ := h.same c _ (List.getElem?_eq_getElem hlt)
  rw [hs] at hs₀
  cases hs₀
  exact ⟨_, List.getElem?_eq_getElem hlt, he⟩

theorem modifyClient (p : TerminalPane) (client : Nat) (f : PaneClient → PaneClient) : Kept p (p.modifyClient client f) := by
  constructor
  intro c s hs
  simp only [TerminalPane.modifyClient, List.getElem?_modify, hs, Option.map_eq_map, Option.map_some]
  refine ⟨_, rfl, ?_⟩
  split <;> rfl

theorem enqueueText (p : TerminalPane) (answers : PaneAnswers) (control : PaneControl) (closeAfter : Bool) (clients : List Nat) :
    Kept p (p.enqueueText answers control closeAfter clients) := by
  obtain ⟨subscribers, he, ht⟩ := enqueueText_told p answers control closeAfter clients
  rw [he]
  exact told ht

theorem recordCheckpointFailure (p : TerminalPane) (operation : String) (batchFrom batchTo pendingBefore : Nat)
    (answers : PaneAnswers) : Kept p (p.recordCheckpointFailureLocked operation batchFrom batchTo pendingBefore answers) := by
  obtain ⟨subscribers, failure, he, ht⟩ := recordCheckpointFailure_told p operation batchFrom batchTo pendingBefore answers
  rw [he]
  exact told ht

theorem resizeCheckpoint (p : TerminalPane) (cols rows lines : Int) (answers : PaneAnswers) :
    Kept p (p.resizeCheckpointLocked cols rows lines answers) := by
  unfold TerminalPane.resizeCheckpointLocked
  split
  · exact refl p
  · exact (recordCheckpointFailure ..).before rfl

theorem resizeWithPixels (p : TerminalPane) (cols rows pixelWidth pixelHeight : Int) (answers : PaneAnswers) :
    Kept p (p.resizeWithPixelsUnlocked cols rows pixelWidth pixelHeight answers).1 := by
  unfold TerminalPane.resizeWithPixelsUnlocked
  split
  · exact refl p
  · simp only
    generalize normalizeGeometry p.geometry cols rows pixelWidth pixelHeight = g
    split
    · exact refl p
    · have hr : Kept p ({ p with geometry := g }.resizeCheckpointLocked g.cols g.rows
          (p.historyLimitBytes / averageHistoryBytesPerLine) answers) :=
        (resizeCheckpoint ..).before rfl
      split
      · exact hr
      · split
        · exact hr
        · exact hr.trans (same rfl)

theorem resizeAndOwn (p : TerminalPane) (cols rows pixelWidth pixelHeight : Int) (source : Nat) (answers : PaneAnswers) :
    Kept p (p.resizeAndOwn cols rows pixelWidth pixelHeight source answers).pane := by
  have hr := resizeWithPixels p cols rows pixelWidth pixelHeight answers
  unfold TerminalPane.resizeAndOwn
  split
  · rename_i p₁ err he
    rwa [he] at hr
  · rename_i p₁ he
    rw [he] at hr
    exact hr.trans (same rfl)

theorem applyLegacyInputResize (p : TerminalPane) (cols rows pixelWidth pixelHeight : Int) (source : Nat) (answers : PaneAnswers) :
    Kept p (p.applyLegacyInputResize cols rows pixelWidth pixelHeight source answers).pane := by
  unfold TerminalPane.applyLegacyInputResize
  split
  · exact refl p
  · split
    · exact enqueueText ..
    · exact resizeAndOwn ..

theorem applyResize (p : TerminalPane) (message : TerminalControlMessage) (source : Nat) (answers : PaneAnswers) :
    Kept p (p.applyResize message source answers).pane := by
  unfold TerminalPane.applyResize
  split
  · split
    · exact enqueueText ..
    · split
      · exact resizeAndOwn ..
      · exact enqueueText ..
  · simp only
    generalize normalizeGeometry p.geometry message.Cols message.Rows message.PixelWidth message.PixelHeight = g
    have hr := resizeWithPixels p g.cols g.rows g.pixelWidth g.pixelHeight answers
    split
    · exact enqueueText ..
    · split
      · exact enqueueText ..
      · split
        · exact enqueueText ..
        · split
          · rename_i p₁ err he
            rw [he] at hr
            exact hr.trans (enqueueText ..)
          · rename_i p₁ he
            rw [he] at hr
            exact hr.trans ((enqueueText ..).before rfl)

theorem handleTerminalControlMessage (p : TerminalPane) (message : TerminalControlMessage) (client : Nat) (answers : PaneAnswers) :
    Kept p (p.handleTerminalControlMessage message client answers).1.pane := by
  unfold TerminalPane.handleTerminalControlMessage
  simp only
  split
  · split
    · exact refl p
    · split
      · exact applyResize ..
      · exact applyLegacyInputResize ..
  · split
    · exact applyResize ..
    · exact refl p
  · exact refl p
  · exact refl p
  · exact refl p
  · exact enqueueText ..
  · exact refl p

theorem handleResizeFrame (p : TerminalPane) (message : TerminalControlMessage) (client : Nat) (answers : PaneAnswers) :
    Kept p (p.handleResizeFrame message client answers).pane := by
  unfold TerminalPane.handleResizeFrame
  simp only
  split
  · split
    · exact applyLegacyInputResize ..
    · exact applyResize ..
  · exact refl p

theorem appendOutput (p : TerminalPane) (filtered : Bytes) (answers : PaneAnswers) : Kept p (p.appendOutput filtered answers) := by
  unfold TerminalPane.appendOutput
  split
  · exact refl p
  · let grown : TerminalPane := { p with
      checkpoint := p.checkpoint.map fun e : CheckpointEngine => e.write filtered answers.parser
      history := (makeHistoryChunks filtered).foldl PaneHistory.append p.history
      out := p.out ++ filtered }
    have hrecorded := recordCheckpointFailure grown.trimHistoryLocked "write" p.history.stop grown.trimHistoryLocked.history.stop
      ((p.checkpoint.map fun e : CheckpointEngine => e.pending.length).getD 0) answers
    have hgrown : Kept p grown.trimHistoryLocked := same rfl
    exact (hgrown.trans hrecorded).trans (same rfl)

theorem attachClient (p : TerminalPane) (request : HistorySyncRequest) (answers : PaneAnswers) :
    Kept p (p.attachClient request answers).1 := by
  unfold TerminalPane.attachClient
  split
  · exact refl p
  · split
    · exact refl p
    · simp only
      split
      · exact same rfl
      · constructor
        intro c s hs
        refine ⟨s, ?_, rfl⟩
        simp only
        rw [List.getElem?_append_left (List.getElem?_eq_some_iff.mp hs).1]
        exact hs

theorem accept {client : Nat} {result : ResizeResult} (h : Kept p result.pane) (hs : p.accept client result = some p') : Kept p p' := by
  obtain ⟨-, he⟩ := Option.ite_none_right_eq_some.mp hs
  cases he
  exact h

theorem step {e : PaneEvent} (hs : paneMachine.step p e = some p') : Kept p p' := by
  cases e with
  | attach request answers =>
    cases hs
    exact attachClient ..
  | detach client answers =>
    obtain ⟨-, he⟩ := Option.ite_none_right_eq_some.mp hs
    cases he
    unfold TerminalPane.detachClient
    simp only
    split
    · exact (enqueueText ..).before rfl
    · exact same rfl
  | output filtered answers =>
    simp only [paneMachine] at hs
    split at hs
    · cases hs
      exact refl p
    · obtain ⟨-, he⟩ := Option.ite_none_right_eq_some.mp hs
      cases he
      exact appendOutput ..
  | deliver client =>
    simp only [paneMachine, TerminalPane.deliver] at hs
    split at hs
    · cases hs
    · cases hs
      exact (modifyClient ..).before rfl
  | limit bytes answers =>
    cases hs
    unfold TerminalPane.setHistoryLimitBytes
    simp only
    split
    · exact refl p
    · exact (resizeCheckpoint ..).before rfl
  | control client message answers => exact accept (handleTerminalControlMessage p message client answers) hs
  | resizeFrame client message answers => exact accept (handleResizeFrame p message client answers) hs
  | receive client =>
    simp only [paneMachine] at hs
    split at hs
    · cases hs
    · obtain ⟨c, -, rfl⟩ := Option.map_eq_some_iff.mp hs
      exact modifyClient ..
  | dequeued client size =>
    cases hs
    exact modifyClient ..
  | exit exitCode exitText =>
    cases hs
    unfold TerminalPane.markExited
    split
    · exact refl p
    · exact same rfl
  | retain =>
    cases hs
    exact same rfl
  | notifyExit client retained answers =>
    obtain ⟨-, he⟩ := Option.ite_none_right_eq_some.mp hs
    cases he
    exact (enqueueText ..).before rfl
  | close =>
    cases hs
    unfold TerminalPane.close
    split
    · exact refl p
    · exact same rfl
  | closeClient client =>
    cases hs
    exact modifyClient ..

theorem run {es : List PaneEvent} (hs : paneMachine.run p es = some p') : Kept p p' :=
  paneMachine.run_inv (fun _ _ _ h hs => h.trans (step hs)) hs (refl p)

end Kept

end TerminalPane

end Webshell
