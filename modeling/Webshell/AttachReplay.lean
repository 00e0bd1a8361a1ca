import Webshell.AgentReplay

/-!
# The snapshot of an attach

An engine that follows the output has the pane's own size, so a checkpoint taken
for an attach is the one its start describes.
-/

namespace Webshell

open GoText Slice

/-! ## The engine has the pane's size -/

/-- The engine, as long as it follows the output, is as large as the pane. -/
def SameGrid (p : TerminalPane) : Prop :=
  ∀ e, p.checkpoint = some e → e.healthy = true → e.cols = p.geometry.cols ∧ e.rows = p.geometry.rows

theorem write_grid {e : CheckpointEngine} {data : Bytes} {answers : ParserAnswers} (h : (e.write data answers).healthy = true) :
    e.healthy = true ∧ (e.write data answers).cols = e.cols ∧ (e.write data answers).rows = e.rows := by
  by_cases hh : e.healthy = true
  · refine ⟨hh, ?_⟩
    unfold CheckpointEngine.write CheckpointEngine.close
    simp only [hh, Bool.not_true, Bool.false_eq_true, if_false]
    repeat' split
    all_goals exact ⟨rfl, rfl⟩
  · have hsame : e.write data answers = e := by
      unfold CheckpointEngine.write
      rw [if_pos (by simpa using hh)]
    rw [hsame] at h
    exact absurd h hh

theorem resize_grid {e : CheckpointEngine} {cols rows lines : Int} {answers : ParserAnswers}
    (h : (e.resize cols rows lines answers).healthy = true) :
    (e.resize cols rows lines answers).cols = cols ∧ (e.resize cols rows lines answers).rows = rows := by
  by_cases hh : e.healthy = true
  · unfold CheckpointEngine.resize at h ⊢
    simp only [hh, Bool.not_true, Bool.false_eq_true, if_false] at h ⊢
    generalize hlimit : (if e.capacity < CheckpointEngine.scrollbackCapacity lines cols rows then
      { e with scrollback := lines, err := answers.setScrollbackLimit, capacity := CheckpointEngine.scrollbackCapacity lines cols rows }
      else { e with scrollback := lines }) = limited at h ⊢
    split at h
    · rename_i herr
      simp only [CheckpointEngine.healthy, Bool.and_eq_true, Option.isNone_iff_eq_none] at h
      rw [h.1.2] at herr
      cases herr
    · rename_i herr
      rw [if_neg herr]
      split
      · rename_i hsame
        exact ⟨hsame.1.symm, hsame.2.symm⟩
      · rename_i hother
        rw [if_neg hother] at h
        split
        · rename_i err hr
          rw [hr] at h
          simp [CheckpointEngine.healthy] at h
        · exact ⟨rfl, rfl⟩
  · have hsame : e.resize cols rows lines answers = e := by
      unfold CheckpointEngine.resize
      rw [if_pos (by simpa using hh)]
    rw [hsame] at h
    exact absurd h hh

namespace SameGrid

variable {p p' : TerminalPane}

theorem frame (h : SameGrid p) (hc : p'.checkpoint = p.checkpoint) (hg : p'.geometry = p.geometry) : SameGrid p' := by
  intro e he hh
  rw [hg]
  exact h e (hc ▸ he) hh

theorem enqueueText (h : SameGrid p) (answers : PaneAnswers) (control : PaneControl) (closeAfter : Bool)
    (clients : List Nat) : SameGrid (p.enqueueText answers control closeAfter clients) := by
  obtain ⟨subscribers, he, -⟩ := enqueueText_told p answers control closeAfter clients
  rw [he]
  exact h.frame rfl rfl

theorem recordCheckpointFailure (h : SameGrid p) (operation : String) (batchFrom batchTo pendingBefore : Nat)
    (answers : PaneAnswers) : SameGrid (p.recordCheckpointFailureLocked operation batchFrom batchTo pendingBefore answers) := by
  obtain ⟨subscribers, failure, he, -⟩ := recordCheckpointFailure_told p operation batchFrom batchTo pendingBefore answers
  rw [he]
  exact h.frame rfl rfl

theorem resizeCheckpoint (h : p.checkpoint = none → SameGrid p) (lines : Int) (answers : PaneAnswers) :
    SameGrid (p.resizeCheckpointLocked p.geometry.cols p.geometry.rows lines answers) := by
  unfold TerminalPane.resizeCheckpointLocked
  split
  · rename_i hn
    exact h hn
  · apply recordCheckpointFailure
    intro e he hh
    cases he
    exact resize_grid hh

theorem of_none (h : p.checkpoint = none) : SameGrid p := fun e he => by
  rw [h] at he
  cases he

theorem resizeWithPixels (h : SameGrid p) (cols rows pixelWidth pixelHeight : Int) (answers : PaneAnswers) :
    SameGrid (p.resizeWithPixelsUnlocked cols rows pixelWidth pixelHeight answers).1 := by
  unfold TerminalPane.resizeWithPixelsUnlocked
  split
  · exact h
  · simp only
    split
    · exact h
    · generalize normalizeGeometry p.geometry cols rows pixelWidth pixelHeight = g
      have hr := resizeCheckpoint (p := { p with geometry := g }) of_none
        (p.historyLimitBytes / averageHistoryBytesPerLine) answers
      split
      · exact hr
      · split
        · exact hr
        · exact hr.frame rfl rfl

theorem resizeAndOwn (h : SameGrid p) (cols rows pixelWidth pixelHeight : Int) (source : Nat) (answers : PaneAnswers) :
    SameGrid (p.resizeAndOwn cols rows pixelWidth pixelHeight source answers).pane := by
  have hr := h.resizeWithPixels cols rows pixelWidth pixelHeight answers
  unfold TerminalPane.resizeAndOwn
  revert hr
  cases p.resizeWithPixelsUnlocked cols rows pixelWidth pixelHeight answers with
  | mk p' err =>
    intro hr
    cases err with
    | some err => exact hr
    | none => exact hr.frame rfl rfl

theorem applyLegacyInputResize (h : SameGrid p) (cols rows pixelWidth pixelHeight : Int) (source : Nat)
    (answers : PaneAnswers) : SameGrid (p.applyLegacyInputResize cols rows pixelWidth pixelHeight source answers).pane := by
  unfold TerminalPane.applyLegacyInputResize
  split
  · exact h
  · split
    · exact h.enqueueText _ _ _ _
    · exact h.resizeAndOwn _ _ _ _ _ _

theorem applyResize (h : SameGrid p) (message : TerminalControlMessage) (source : Nat) (answers : PaneAnswers) :
    SameGrid (p.applyResize message source answers).pane := by
  unfold TerminalPane.applyResize
  split
  · split
    · exact h.enqueueText _ _ _ _
    · split
      · exact h.resizeAndOwn _ _ _ _ _ _
      · exact h.enqueueText _ _ _ _
  · simp only
    generalize normalizeGeometry p.geometry message.Cols message.Rows message.PixelWidth message.PixelHeight = g
    split
    · exact h.enqueueText _ _ _ _
    · split
      · exact h.enqueueText _ _ _ _
      · split
        · exact h.enqueueText _ _ _ _
        · have hr := h.resizeWithPixels g.cols g.rows g.pixelWidth g.pixelHeight answers
          revert hr
          cases p.resizeWithPixelsUnlocked g.cols g.rows g.pixelWidth g.pixelHeight answers with
          | mk p' err =>
            intro hr
            cases err with
            | some err => exact enqueueText hr _ _ _ _
            | none =>
              simp only at hr ⊢
              apply enqueueText
              exact hr.frame rfl rfl

theorem handleTerminalControlMessage (h : SameGrid p) (message : TerminalControlMessage) (client : Nat)
    (answers : PaneAnswers) : SameGrid (p.handleTerminalControlMessage message client answers).1.pane := by
  unfold TerminalPane.handleTerminalControlMessage
  simp only
  split
  · split
    · exact h
    · split
      · simp only
        exact h.applyResize _ _ _
      · simp only
        exact h.applyLegacyInputResize _ _ _ _ _ _
  · split
    · simp only
      exact h.applyResize _ _ _
    · exact h
  · exact h
  · exact h
  · exact h
  · exact h.enqueueText _ _ _ _
  · exact h

theorem handleResizeFrame (h : SameGrid p) (message : TerminalControlMessage) (client : Nat) (answers : PaneAnswers) :
    SameGrid (p.handleResizeFrame message client answers).pane := by
  unfold TerminalPane.handleResizeFrame
  simp only
  split
  · split
    · exact h.applyLegacyInputResize _ _ _ _ _ _
    · exact h.applyResize _ _ _
  · exact h

theorem appendOutput (h : SameGrid p) (filtered : Bytes) (answers : PaneAnswers) : SameGrid (p.appendOutput filtered answers) := by
  unfold TerminalPane.appendOutput
  split
  · exact h
  · simp only
    refine frame (recordCheckpointFailure (p := TerminalPane.trimHistoryLocked _) ?_ _ _ _ _ _) rfl rfl
    intro e he hh
    obtain ⟨e', he', rfl⟩ := Option.map_eq_some_iff.mp he
    obtain ⟨hh', hcols, hrows⟩ := write_grid hh
    rw [hcols, hrows]
    exact h e' he' hh'

theorem attachClient (h : SameGrid p) (request : HistorySyncRequest) (answers : PaneAnswers) :
    SameGrid (p.attachClient request answers).1 := by
  unfold TerminalPane.attachClient
  split
  · exact h
  · split
    · exact h
    · simp only
      split <;> exact h.frame rfl rfl

theorem detachClient (h : SameGrid p) (client : Nat) (answers : PaneAnswers) : SameGrid (p.detachClient client answers) := by
  unfold TerminalPane.detachClient
  simp only
  split
  · apply enqueueText
    exact h.frame rfl rfl
  · exact h.frame rfl rfl

theorem setHistoryLimitBytes (h : SameGrid p) (limit : Int) (answers : PaneAnswers) :
    SameGrid (p.setHistoryLimitBytes limit answers) := by
  unfold TerminalPane.setHistoryLimitBytes
  generalize (if limit ≤ 0 then historyLimitBytesForTerminalScrollback defaultTerminalScrollback else limit) = limit
  simp only
  split
  · exact h
  · exact resizeCheckpoint (p := TerminalPane.trimHistoryLocked { p with historyLimitBytes := limit })
      (fun _ => h.frame rfl rfl) _ _

theorem close (h : SameGrid p) : SameGrid p.close := by
  unfold TerminalPane.close
  split
  · exact h
  · intro e he hh
    obtain ⟨e', he', rfl⟩ := Option.map_eq_some_iff.mp he
    unfold CheckpointEngine.close at hh
    split at hh
    · rename_i hclosed
      simp [CheckpointEngine.healthy, hclosed] at hh
    · simp [CheckpointEngine.healthy] at hh

theorem accept {client : Nat} {result : TerminalPane.ResizeResult} (h : SameGrid result.pane)
    (hs : p.accept client result = some p') : SameGrid p' := by
  unfold TerminalPane.accept at hs
  split at hs
  · cases hs; exact h
  · cases hs

theorem step (h : SameGrid p) {e : PaneEvent} (hs : paneMachine.step p e = some p') : SameGrid p' := by
  cases e with
  | attach request answers => cases hs; exact h.attachClient request answers
  | detach client answers =>
    simp only [paneMachine] at hs
    split at hs
    · cases hs; exact h.detachClient client answers
    · cases hs
  | output filtered answers =>
    simp only [paneMachine] at hs
    split at hs
    · cases hs; exact h
    · split at hs
      · cases hs; exact h.appendOutput filtered answers
      · cases hs
  | deliver client =>
    simp only [paneMachine, TerminalPane.deliver] at hs
    split at hs
    · cases hs
    · cases hs; exact h.frame rfl rfl
  | limit bytes answers => cases hs; exact h.setHistoryLimitBytes bytes answers
  | control client message answers => exact accept (h.handleTerminalControlMessage message client answers) hs
  | resizeFrame client message answers => exact accept (h.handleResizeFrame message client answers) hs
  | receive client =>
    simp only [paneMachine] at hs
    split at hs
    · cases hs
    · obtain ⟨c, -, rfl⟩ := Option.map_eq_some_iff.mp hs
      exact h.frame rfl rfl
  | dequeued client size => cases hs; exact h.frame rfl rfl
  | exit exitCode exitText =>
    cases hs
    unfold TerminalPane.markExited
    split
    · exact h
    · exact h.frame rfl rfl
  | retain => cases hs; exact h.frame rfl rfl
  | notifyExit client retained answers =>
    simp only [paneMachine, TerminalPane.notifyExit] at hs
    split at hs
    · cases hs
      apply enqueueText
      exact h.frame rfl rfl
    · cases hs
  | close => cases hs; exact h.close
  | closeClient client => cases hs; exact h.frame rfl rfl

theorem start (generation : String) (cols rows limit : Int) (localPTY : Bool) :
    SameGrid (TerminalPane.start generation cols rows limit localPTY) := by
  intro e he _
  unfold TerminalPane.start at he
  cases localPTY with
  | false => cases he
  | true => cases he; exact ⟨rfl, rfl⟩

end SameGrid

/-! ## The snapshot -/

theorem snapshot_taken {e : CheckpointEngine} {cursor : Nat} {answers : ParserAnswers} {checkpoint : TerminalMemoryCheckpoint}
    (h : e.snapshot cursor answers = .ok (some checkpoint)) :
    checkpoint.cursor = cursor - e.pending.length ∧ checkpoint.cols = e.cols ∧ checkpoint.rows = e.rows := by
  unfold CheckpointEngine.snapshot at h
  split at h
  · cases h
  · split at h
    · cases h
    · split at h
      · cases h
      · split at h
        · cases h
        · cases h
          exact ⟨rfl, rfl, rfl⟩

section Attach

variable {p : TerminalPane} {request : HistorySyncRequest} {answers : PaneAnswers} {history : PaneHistorySnapshot}

/-- What a snapshot says of itself, its bytes apart. -/
structure SelfDescribed (p : TerminalPane) (history : PaneHistorySnapshot) : Prop where
  base_le : history.serverBase ≤ history.deltaTo
  end_eq : history.serverEnd = history.deltaTo
  epoch_eq : history.resizeEpoch = p.resizeEpoch
  sync : history.syncMode.toList.length ≤ 8
  checkpoint : ∀ checkpoint, history.checkpoint = some checkpoint →
    checkpoint.cursor = history.deltaFrom ∧ checkpoint.cols = history.cols ∧ checkpoint.rows = history.rows

theorem checkpointHistory_described (h : PaneInv p) (hg : SameGrid p) (ha : p.checkpointHistory request answers = .ok history) :
    SelfDescribed p history := by
  have hbase : p.history.base ≤ p.history.stop := by
    rw [h.history.stop_eq]
    exact h.history.base_le
  have hfull : SelfDescribed p { p.describe "snapshot" p.history.snapshot with checkpointFallback := p.checkpointFallback } :=
    ⟨hbase, rfl, rfl, by simp only [TerminalPane.describe]; decide, fun _ hc => by cases hc⟩
  unfold TerminalPane.checkpointHistory at ha
  simp only at ha
  cases he : p.checkpoint with
  | none => rw [he] at ha; cases ha; exact hfull
  | some e =>
    simp only [he] at ha
    split at ha
    · cases hs : e.snapshot p.history.stop answers.parser with
      | error err => rw [hs] at ha; cases ha
      | ok result =>
        rw [hs] at ha
        cases result with
        | none => cases ha; exact hfull
        | some checkpoint =>
          cases ha
          obtain ⟨hcursor, hcols, hrows⟩ := snapshot_taken hs
          obtain ⟨hcols', hrows'⟩ := hg e he (snapshot_healthy hs)
          refine ⟨Nat.le_trans (Nat.min_le_left ..) hbase, rfl, rfl, hfull.sync, fun c hc => ?_⟩
          cases hc
          exact ⟨hcursor, hcols.trans hcols', hrows.trans hrows'⟩
    · cases ha; exact hfull

theorem attachHistory_described (h : PaneInv p) (hg : SameGrid p) (ha : p.attachHistory request answers = .ok history) :
    SelfDescribed p history := by
  unfold TerminalPane.attachHistory at ha
  cases hc : p.checkpointHistory request answers with
  | error err => rw [hc] at ha; cases ha
  | ok full =>
    simp only [hc] at ha
    split at ha
    · rename_i hcond
      obtain ⟨-, -, -, -, -, hb, he⟩ := hcond
      cases ha
      refine ⟨Nat.le_trans hb he, rfl, rfl, ?_, fun _ hc => by cases hc⟩
      unfold TerminalPane.describe
      simp only
      split <;> decide
    · cases ha; exact checkpointHistory_described h hg hc

/-- An attach takes the history of the pane, which may have its generation only now. -/
theorem attach_history {attachment : Attachment} (ha : (p.attachClient request answers).2 = .ok attachment) :
    ∃ generation, ({ p with historyGeneration := generation } : TerminalPane).attachHistory request answers =
      .ok attachment.history := by
  unfold TerminalPane.attachClient at ha
  split at ha
  · cases ha
  · split at ha
    · cases ha
    · rename_i generation _
      simp only at ha
      split at ha
      · cases ha
      · rename_i history hh
        cases ha
        exact ⟨generation, hh⟩

/-- The snapshot of an attach goes up to the end of the output. -/
theorem attach_current {generation : String} {cols rows limit : Int} {localPTY : Bool} {es : List PaneEvent}
    (hrun : paneMachine.run (.start generation cols rows limit localPTY) es = some p) {attachment : Attachment}
    (ha : (p.attachClient request answers).2 = .ok attachment) : PaneInv.Current p.out attachment.history := by
  have hi := paneMachine.run_inv (fun p e p' hi hs => PaneInv.step hi hs) hrun (PaneInv.start ..)
  obtain ⟨generation, hh⟩ := attach_history ha
  have hi' : PaneInv { p with historyGeneration := generation } := hi.frame rfl rfl rfl rfl rfl rfl
  exact hi'.attachHistory_current hh

/-- The cursors, sizes and bytes of an attach in any run. -/
theorem attach_described {generation : String} {cols rows limit : Int} {localPTY : Bool} {es : List PaneEvent}
    (hrun : paneMachine.run (.start generation cols rows limit localPTY) es = some p) {attachment : Attachment}
    (ha : (p.attachClient request answers).2 = .ok attachment) (hstop : p.history.stop < uint64Limit)
    (hepoch : p.resizeEpoch < uint64Limit) :
    Described attachment.history ∧ attachment.history.chunks.flatten =
      slice p.out attachment.history.deltaFrom attachment.history.deltaTo := by
  have hi := paneMachine.run_inv (fun p e p' hi hs => PaneInv.step hi hs) hrun (PaneInv.start ..)
  have hg := paneMachine.run_inv (fun p e p' hi hs => SameGrid.step hi hs) hrun (SameGrid.start _ _ _ _ _)
  have hc := attach_current hrun ha
  obtain ⟨generation, hh⟩ := attach_history ha
  have hi' : PaneInv { p with historyGeneration := generation } := hi.frame rfl rfl rfl rfl rfl rfl
  have hg' : SameGrid { p with historyGeneration := generation } := hg.frame rfl rfl
  have hd := attachHistory_described hi' hg' hh
  have hto : attachment.history.deltaTo < uint64Limit := by
    rw [hc.to_eq, ← hi.history.stop_eq]
    exact hstop
  refine ⟨⟨hc.from_le, hd.base_le, hd.end_eq, hto, ?_, hd.sync, ?_, hd.checkpoint⟩, hc.chunks⟩
  · rw [hd.epoch_eq]
    exact hepoch
  · rw [hc.chunks]
    exact length_slice (Nat.le_of_eq hc.to_eq)

end Attach

end Webshell
