import Webshell.FastFrames

/-!
# What an attach is answered with

The frames of an attach without the integrity protocol: a ready control, the
replay of the snapshot, and then what the client is sent, one message at a time
until one closes it.
-/

namespace Webshell

open GoText

/-- What a control says besides. -/
structure ControlNotes where
  checkpointDiagnostics : Json := .null
  resizeDiagnostics : Json := .null

def Geometry.fields (g : Geometry) : List (List Char × Json) := [
  ("cols".toList, jsonInt g.cols),
  ("rows".toList, jsonInt g.rows),
  ("pixel_width".toList, jsonInt g.pixelWidth),
  ("pixel_height".toList, jsonInt g.pixelHeight)]

def TerminalReplayIdentity.paneFields (identity : TerminalReplayIdentity) : List (List Char × Json) := [
  ("selector".toList, jsonString identity.selector),
  ("pane_id".toList, jsonString identity.paneID)]

/-- The text of a control; the encoder sorts its fields. -/
def PaneControl.json (identity : TerminalReplayIdentity) (notes : ControlNotes) : PaneControl → Json
  | .processExit exitCode message retained =>
    ({ exited := true, exitCode := exitCode, message := message, retained := retained } : PaneExitSnapshot).controlPayload
      identity.selector identity.paneID
  | .checkpointDiagnostic =>
    .obj (("type".toList, jsonString "terminal-checkpoint-diagnostic") :: identity.paneFields ++
      [("checkpoint_diagnostics".toList, notes.checkpointDiagnostics)])
  | .resizeOwnerReleased epoch geometry =>
    .obj (("type".toList, jsonString "resize-owner-released") :: identity.paneFields ++
      ("resize_epoch".toList, jsonString (formatTerminalResizeEpoch epoch)) :: geometry.fields)
  | .resizeApplied epoch geometry =>
    .obj (("type".toList, jsonString "resize-applied") :: ("checkpoint_diagnostics".toList, notes.checkpointDiagnostics) ::
      ("resize_diagnostics".toList, notes.resizeDiagnostics) :: identity.paneFields ++
        ("resize_epoch".toList, jsonString (formatTerminalResizeEpoch epoch)) :: geometry.fields)
  | .resizeError epoch appliedEpoch geometry reason =>
    .obj (("type".toList, jsonString "resize-error") :: identity.paneFields ++
      ("resize_epoch".toList, jsonString (formatTerminalResizeEpoch epoch)) ::
        ("applied_epoch".toList, jsonString (formatTerminalResizeEpoch appliedEpoch)) :: geometry.fields ++
          [("reason".toList, jsonString reason), ("retryable".toList, .bool (retryable reason))])
  | .pong => .obj [("type".toList, jsonString "pong")]

/-- The times an attach is answered with, in milliseconds. -/
structure AttachTimes where
  attachStarted : Int := 0
  workspaceReady : Int := 0
  paneResolved : Int := 0
  historyReady : Int := 0

def agentAttachReady (times : AttachTimes) : Json :=
  .obj [
    ("type".toList, jsonString "agent-attach-ready"),
    ("server_unix_ms".toList, jsonInt times.historyReady),
    ("agent_attach_started_unix_ms".toList, jsonInt times.attachStarted),
    ("agent_workspace_ready_duration_ms".toList, jsonInt (times.workspaceReady - times.attachStarted)),
    ("agent_pane_resolve_duration_ms".toList, jsonInt (times.paneResolved - times.workspaceReady)),
    ("agent_history_snapshot_duration_ms".toList, jsonInt (times.historyReady - times.paneResolved)),
    ("agent_attach_prepare_duration_ms".toList, jsonInt (times.historyReady - times.attachStarted))]

/-- What is sent to a client, in its frame. -/
def PaneOutbound.frame (identity : TerminalReplayIdentity) (notes : ControlNotes) (outbound : PaneOutbound) : AgentFrame :=
  match outbound.payload with
  | .binary data => .binary data
  | .text control _ => .text (control.json identity notes)

/-- The loop over what the client is sent. -/
def liveFrames (identity : TerminalReplayIdentity) (notes : Nat → ControlNotes) : Nat → List PaneOutbound → List AgentFrame
  | _, [] => []
  | n, outbound :: rest =>
    outbound.frame identity (notes n) :: if outbound.closeAfter = true then [] else liveFrames identity notes (n + 1) rest

/-- All that `handleAttach` writes for an attached client, if no write fails; `failure` is a diagnosis
of the checkpoint that is kept for the pane. -/
def attachFrames (identity : TerminalReplayIdentity) (attachment : Attachment) (m : CheckpointMemory) (clock : ReplayClock)
    (times : AttachTimes) (failure : Option Json) (notes : Nat → ControlNotes) (received : List PaneOutbound) : List AgentFrame :=
  (match failure with
    | some diagnostics => [.text (PaneControl.checkpointDiagnostic.json identity { checkpointDiagnostics := diagnostics })]
    | none => []) ++
  .text (agentAttachReady times) ::
    (writeAgentHistoryReplay identity attachment.history m attachment.allowGeneratedInput clock ++
      if attachment.exit.exited = true then [.text (attachment.exit.controlPayload identity.selector identity.paneID)]
      else liveFrames identity notes 0 received)

end Webshell
