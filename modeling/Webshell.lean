import Webshell.ActivityScans
import Webshell.AgentAttach
import Webshell.AgentFrames
import Webshell.AgentReconcile
import Webshell.AgentReplay
import Webshell.ArchiveNames
import Webshell.ArchiveWalk
import Webshell.AttachReplay
import Webshell.AttachmentArchive
import Webshell.AttachmentNames
import Webshell.BackendOutput
import Webshell.BackendReplies
import Webshell.BackendRpc
import Webshell.Base64
import Webshell.BytePaths
import Webshell.CellPacket
import Webshell.Checkpoint
import Webshell.CheckpointReceiver
import Webshell.CheckpointScan
import Webshell.Crc32
import Webshell.Credit
import Webshell.Daemon
import Webshell.DaemonIsolation
import Webshell.DaemonPanes
import Webshell.DaemonServe
import Webshell.DesktopShortcuts
import Webshell.FastFrames
import Webshell.GoBytes
import Webshell.GoPath
import Webshell.GoReader
import Webshell.GoSlice
import Webshell.Grid
import Webshell.HealthRuns
import Webshell.History
import Webshell.HistoryWords
import Webshell.JsConversion
import Webshell.JsValue
import Webshell.Json
import Webshell.KittyAccounting
import Webshell.KittyChunks
import Webshell.KittyConsumed
import Webshell.KittyGraphics
import Webshell.KittyStream
import Webshell.Layout
import Webshell.LayoutBrowser
import Webshell.LayoutNeighbour
import Webshell.LayoutNormal
import Webshell.LayoutSound
import Webshell.LogSecrets
import Webshell.LogWriter
import Webshell.Logs
import Webshell.Machine
import Webshell.ManagedRun
import Webshell.MobileShortcuts
import Webshell.OneConnection
import Webshell.OrderedMap
import Webshell.Osc52
import Webshell.Osc52Chunks
import Webshell.OutputPieces
import Webshell.OutputQueue
import Webshell.OutputQueueRuns
import Webshell.OutputTurns
import Webshell.Pane
import Webshell.PaneAnswers
import Webshell.PaneEcho
import Webshell.PaneEpoch
import Webshell.PaneInput
import Webshell.PaneOwner
import Webshell.PaneQueries
import Webshell.PaneQueryCuts
import Webshell.PaneReplay
import Webshell.PaneResize
import Webshell.PaneSizes
import Webshell.PaneSnapshots
import Webshell.PrivateControl
import Webshell.ProcScan
import Webshell.ProgramStatus
import Webshell.ProgramStatusMoves
import Webshell.ProgramStatusStrings
import Webshell.Provider
import Webshell.ProviderRecovery
import Webshell.ProviderRestores
import Webshell.QueryConserved
import Webshell.QueueAgree
import Webshell.QueueBroker
import Webshell.QueueBuffer
import Webshell.QueueCredit
import Webshell.QueueDelivered
import Webshell.QueueFlow
import Webshell.QueueFrame
import Webshell.QueuePresented
import Webshell.QueueReceiver
import Webshell.QueueStream
import Webshell.QueueSubscriptions
import Webshell.QueueTurns
import Webshell.QueueWire
import Webshell.QueueWriter
import Webshell.ReconcileSafe
import Webshell.Recovery
import Webshell.RecoveryAccept
import Webshell.RecoveryBuild
import Webshell.RecoveryFresh
import Webshell.RecoveryLayout
import Webshell.RecoveryPaths
import Webshell.RecoveryRoundTrip
import Webshell.RemoteTerminal
import Webshell.ReplayAccepted
import Webshell.ReplayController
import Webshell.ReplayCursor
import Webshell.ReplayFeed
import Webshell.ResizeDemand
import Webshell.ResizeScheduler
import Webshell.RetainedOutput
import Webshell.RetainedTable
import Webshell.SSHRevocation
import Webshell.SSHServer
import Webshell.SSHSessions
import Webshell.Scanner
import Webshell.ScpReceive
import Webshell.ScpUpload
import Webshell.Search
import Webshell.ServerLog
import Webshell.SessionHealth
import Webshell.Settling
import Webshell.ShellSessions
import Webshell.ShellsSettle
import Webshell.ShortcutsAlike
import Webshell.ShownOutput
import Webshell.Slice
import Webshell.StateApplied
import Webshell.StateApply
import Webshell.SubscribedView
import Webshell.Subscriber
import Webshell.SubscriberQueue
import Webshell.SubscribingConnection
import Webshell.SubscriptionsInStep
import Webshell.SubscriptionsReplaced
import Webshell.TabOrder
import Webshell.Text
import Webshell.TextQueries
import Webshell.Throwing
import Webshell.TransportRecovers
import Webshell.TunnelTickets
import Webshell.TypedInput
import Webshell.UnifiedTransport
import Webshell.Utf16
import Webshell.WindowAcks
import Webshell.WorkScheduler
import Webshell.WorkSchedulerRuns
import Webshell.Workspace
import Webshell.WorkspaceErrors
import Webshell.WorkspaceIds
import Webshell.WorkspaceInv
import Webshell.WorkspaceRequests
import Webshell.WorkspaceRun
import Webshell.WorkspaceRunning
import Webshell.WorkspaceSound
