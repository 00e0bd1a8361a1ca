import Webshell.ReplayFeed
import Webshell.CheckpointReceiver

/-!
# What an attach is answered with is accepted

The frames of a replay continue each other from any cursor on, none is too large
for the connection or for the queue's buffer, and a checkpoint among them is put
together again by the browser.
-/

namespace Webshell

open GoText Slice

/-! ## The frames continue each other -/

section Frames

variable {identity : TerminalReplayIdentity} {history : PaneHistorySnapshot} {m : CheckpointMemory} {allowGeneratedInput : Bool}
  {clock : ReplayClock}

/-- The checkpoint's parts that go before the start. -/
def replayParts (identity : TerminalReplayIdentity) (history : PaneHistorySnapshot) (m : CheckpointMemory) : List Json :=
  match history.checkpoint with
  | some checkpoint => partMessages identity history.generation checkpoint m
  | none => []

theorem replay_shape : writeAgentHistoryReplay identity history m allowGeneratedInput clock =
    (replayParts identity history m).map .text ++
      .text (historyReplayStart identity history m allowGeneratedInput clock) :: (replayPayloads history.chunks).map .binary ++
        [.text (historyReplayComplete identity history (replayPayloads history.chunks).length clock)] := by
  unfold writeAgentHistoryReplay replayParts
  cases history.checkpoint with
  | none => rfl
  | some checkpoint =>
    have hparts : (partMessages identity history.generation checkpoint m).map AgentFrame.text =
        m.parts.mapIdx fun index part => .text (checkpointPart identity history.generation checkpoint index part) := by
      apply List.ext_getElem
      · simp [partMessages]
      · intro i _ _
        simp [partMessages]
    simp only [hparts]

theorem parts_announce : ∀ payload ∈ replayParts identity history m, Announces payload := by
  intro payload h
  unfold replayParts at h
  split at h
  · obtain ⟨i, -, rfl⟩ := List.mem_mapIdx.mp h
    exact ⟨"terminal-checkpoint-part", rfl, by decide, by decide, by decide⟩
  · cases h

theorem replay_continues (h : Described history) {live : List AgentFrame}
    (hl : ∀ frame ∈ live, ∀ payload, frame = .text payload → Announces payload) (cursor : Option Nat) :
    Continues cursor (writeAgentHistoryReplay identity history m allowGeneratedInput clock ++ live) := by
  have hbytes : history.deltaFrom + (replayPayloads history.chunks).flatten.length = history.deltaTo := by
    have hle := h.from_le
    rw [replayPayloads_flatten, h.bytes]
    omega
  rw [replay_shape, List.append_assoc, List.append_assoc, List.cons_append]
  apply Continues.announced
  · intro frame hf
    obtain ⟨payload, hp, rfl⟩ := List.mem_map.mp hf
    exact ⟨payload, rfl, parts_announce payload hp⟩
  · refine .start start_type start_from (Nat.lt_of_le_of_lt h.from_le h.to_lt) ?_
    apply Continues.binaries
    rw [hbytes]
    exact .complete (complete_type _) (complete_cursor _) h.to_lt (.live hl _)

end Frames

/-! ## Sizes -/

/-- The connection carries the frame, and below the high water the queue's buffer has room
for it and for the size of a burst. -/
def AgentFrame.Fits (frame : AgentFrame) : Prop :=
  WriteAgentFrame frame = none ∧ ∀ s : QueuePaneStream, s.bufferBytes < terminalQueuePaneBufferHighWater →
    s.bufferBytes + (frame.size + 64) ≤ terminalQueuePaneBufferLimit

theorem fits_of_size {frame : AgentFrame} (h : frame.size + 64 ≤ 2 ^ 20) : frame.Fits := by
  constructor
  · unfold WriteAgentFrame agentMaxFramePayload
    rw [if_neg (by omega)]
  · intro s hs
    unfold terminalQueuePaneBufferHighWater at hs
    unfold terminalQueuePaneBufferLimit
    omega

theorem output_fits (filtered : Bytes) : ∀ chunk ∈ makeHistoryChunks filtered, (AgentFrame.binary chunk).Fits := by
  intro chunk h
  apply fits_of_size
  have hlen := (chunksOf_nonempty _ _ chunk h).2
  unfold historyChunkMaxBytes at hlen
  unfold AgentFrame.size
  simp only
  omega

/-! ## The whole replay -/

/-- The replay of `history`, whose bytes are `out`, is accepted wherever it goes. -/
structure ReplayAccepted (identity : TerminalReplayIdentity) (history : PaneHistorySnapshot) (m : CheckpointMemory)
    (allowGeneratedInput : Bool) (clock : ReplayClock) (out : Bytes) : Prop where
  /-- In every run of a queue stream that has read some of the replay and of what follows it. -/
  queue (flowControl : FlowControl) (limitBytes priority : Int) (es : List QueueEvent) (q : QueueRun)
    (live sent : List AgentFrame) (announced : ∀ frame ∈ live, ∀ payload, frame = .text payload → Announces payload)
    (read : sent <+: writeAgentHistoryReplay identity history m allowGeneratedInput clock ++ live)
    (carried : List.Forall₂ Carries sent (es.filter QueueEvent.ofAgent))
    (run : queueMachine.run (.start flowControl limitBytes priority) es = some q) : NeverDiscontinuous q
  /-- Names of some length are what a session can have. -/
  fits (names : namesLength identity history.generation ≤ 2 ^ 14) :
    (∀ frame ∈ writeAgentHistoryReplay identity history m allowGeneratedInput clock, frame.Fits) ∧
      ∀ filtered, ∀ chunk ∈ makeHistoryChunks filtered, (AgentFrame.binary chunk).Fits
  shape : writeAgentHistoryReplay identity history m allowGeneratedInput clock =
    (replayParts identity history m).map .text ++
      .text (historyReplayStart identity history m allowGeneratedInput clock) :: (replayPayloads history.chunks).map .binary ++
        [.text (historyReplayComplete identity history (replayPayloads history.chunks).length clock)]
  payloads : ∀ payload ∈ replayPayloads history.chunks, payload.length ≤ 512 * 1024
  bytes : (replayPayloads history.chunks).flatten = history.chunks.flatten ∧
    history.chunks.flatten = slice out history.deltaFrom history.deltaTo
  cursor : (historyReplayComplete identity history (replayPayloads history.chunks).length clock).get "history_cursor" =
    some (jsonString (formatUint history.deltaTo))
  received (checkpoint : TerminalMemoryCheckpoint) (sent : history.checkpoint = some checkpoint) : ∃ r chunks,
    CheckpointReceiver.acceptAll { name := identity.selector, id := identity.paneID } (replayParts identity history m) = .ok r ∧
      r.take (historyReplayStart identity history m allowGeneratedInput clock) =
        ({ name := identity.selector, id := identity.paneID }, .ok (some (checkpoint.json m, chunks))) ∧
      ∃ pieces, chunks.mapM Base64.atob = some pieces ∧ pieces.flatten = m.compressed

theorem replay_accepted {generation : String} {cols rows limit : Int} {localPTY : Bool} {es : List PaneEvent} {p : TerminalPane}
    (hrun : paneMachine.run (.start generation cols rows limit localPTY) es = some p) {request : HistorySyncRequest}
    {answers : PaneAnswers} {attachment : Attachment} (ha : (p.attachClient request answers).2 = .ok attachment)
    (hstop : p.history.stop < uint64Limit) (hepoch : p.resizeEpoch < uint64Limit) (identity : TerminalReplayIdentity)
    (m : CheckpointMemory) (clock : ReplayClock) :
    ReplayAccepted identity attachment.history m attachment.allowGeneratedInput clock p.out := by
  obtain ⟨hd, hbytes⟩ := attach_described hrun ha hstop hepoch
  exact {
    queue := fun flowControl limitBytes priority es q live sent announced read carried run =>
      fed_continuous run (replay_continues hd announced none) read carried
    fits := fun names => by
      refine ⟨fun frame hf => ?_, output_fits⟩
      have hsize := frame_size hd attachment.allowGeneratedInput clock frame hf
      apply fits_of_size
      unfold historyReplayChunk at hsize
      omega
    shape := replay_shape
    payloads := fun payload hp => (replayPayloads_fits _ payload hp).2
    bytes := ⟨replayPayloads_flatten _, hbytes⟩
    cursor := complete_cursor _
    received := fun checkpoint hc => by
      have hparts : replayParts identity attachment.history m = partMessages identity attachment.history.generation checkpoint m := by
        unfold replayParts
        rw [hc]
      rw [hparts]
      exact checkpoint_received hd hc }

/-- A client takes the checkpoint of a pane that has put out three bytes, the last of a rune that goes on. -/
def attachSplitRune : List PaneEvent := [.output [0x61, 0x62] {}, .output [0xc3] {}]

def splitRuneRequest : HistorySyncRequest := { CheckpointProtocol := TerminalMemoryCheckpointProtocol }

def blankMemory : CheckpointMemory where
  compressed := [0x1f, 0x8b]
  written := by decide
  bounded := by decide
  wasmSHA256 := ⟨List.replicate 32 0, rfl⟩
  memorySHA256 := ⟨List.replicate 32 0, rfl⟩
  memoryBytes := 65536
  handle := 1
  stack := 2

theorem replay_accepted_splitRune : ∃ p attachment checkpoint,
    paneMachine.run (.start "g" 80 24 0 true) attachSplitRune = some p ∧
      (p.attachClient splitRuneRequest {}).2 = .ok attachment ∧ attachment.history.checkpoint = some checkpoint ∧
      attachment.history.deltaFrom = 2 ∧ replayPayloads attachment.history.chunks = [[0xc3]] ∧
      ReplayAccepted ⟨"s", "w", "tab-1", "pane-1"⟩ attachment.history blankMemory attachment.allowGeneratedInput {} p.out := by
  have hrun : ∃ p, paneMachine.run (.start "g" 80 24 0 true) attachSplitRune = some p ∧ p.history.stop < uint64Limit ∧
      p.resizeEpoch < uint64Limit ∧ ∃ attachment checkpoint, (p.attachClient splitRuneRequest {}).2 = .ok attachment ∧
        attachment.history.checkpoint = some checkpoint ∧ attachment.history.deltaFrom = 2 ∧
          replayPayloads attachment.history.chunks = [[0xc3]] :=
    ⟨_, rfl, by decide, by decide, _, _, rfl, rfl, rfl, rfl⟩
  obtain ⟨p, hrun, hstop, hepoch, attachment, checkpoint, ha, hc, hfrom, hpayloads⟩ := hrun
  exact ⟨p, attachment, checkpoint, hrun, ha, hc, hfrom, hpayloads, replay_accepted hrun ha hstop hepoch _ _ _⟩

end Webshell
