import Webshell.History
import Webshell.Recovery
import Webshell.WorkspaceRun

/-!
# The agent daemon

Requests of a daemon: the part under its lock, which validates the request and
fetches the workspace, and the work on that workspace, which runs later. A
workspace pointer is a number, and the daemon remembers every workspace it has
made, so that a request can still work on one that has been replaced.
-/

namespace Webshell

open GoText

/-- `terminalWorkspace` as the daemon holds it: the tabs and panes, and the history its panes keep. -/
structure AgentWorkspace extends Workspace where
  historyLimitBytes : Int

inductive AgentRequestType
  | ping
  | state
  | inspect
  | action
  | activity
  | attach
  | unknown (name : String)
  deriving DecidableEq

inductive AgentAction
  | restoreWorkspace (recovery : Option WorkspaceRecoveryDocument)
  | apply (request : WorkspaceActionRequest)

structure AgentRequest where
  RequestType : AgentRequestType
  Selector : String := ""
  AccountID : String := ""
  Username : String := ""
  PaneID : String := ""
  Cols : Int := 0
  Rows : Int := 0
  TerminalScrollback : Int := 0
  WorkspaceGeneration : String := ""
  Action : Option AgentAction := none

/-- The random part of a generation. -/
abbrev GenerationBytes := { data : List (Fin 256) // data.length = 16 }

/-- What the platform answers while a request is served. -/
structure AgentPlatform where
  random : Except String GenerationBytes
  /-- Starting the process of a pane, by the pane's id. -/
  spawn : String → SpawnResult
  /-- `ScanActivities`: the directory and the command of some panes. -/
  activities : Except String (List (String × String × String))

def AgentPlatform.NewHistoryGeneration (platform : AgentPlatform) : Except String String :=
  platform.random.map fun data => encodeToString data.val

/-- Why a request is turned away before anything is done for it. -/
inductive AgentRejection
  | accessDisabled
  | selectorMismatch (daemon request : String)
  | workspaceSelectorMismatch (workspace request : String)
  | accountRequired
  | accountMismatch (daemon request : String)
  | actionRequired
  | recoveryRequired
  | unknownType
  deriving DecidableEq

inductive AgentResponse
  | rejected (reason : AgentRejection)
  | failed (err : String)
  | pong
  | state (state : Workspace.WorkspaceState)
  /-- The panes in the order of the tabs, and the error of the scan. -/
  | activity (selector : String) (panes : List WorkspacePane) (err : Option String)
  /-- The pane that is attached, with the tab and the workspace it is replayed for. -/
  | attached (selector workspaceGeneration tabID : String) (pane : WorkspacePane)
  | refreshRequired (selector reason : String)

/-- The work left for a request when the daemon's lock is released. -/
inductive RequestWork
  | state
  | inspect
  | action (request : WorkspaceActionRequest)
  | activity
  | attach (paneID workspaceGeneration : String)

structure AgentDaemon where
  selector : String
  accountID : String
  username : String
  closed : Bool
  /-- Every workspace made so far, the replaced ones too: those below `made` are in use. -/
  workspaces : Nat → AgentWorkspace
  made : Nat
  workspace : Option Nat

namespace AgentWorkspace

def setHistoryLimitBytes (w : AgentWorkspace) (limit : Int) : AgentWorkspace :=
  { w with historyLimitBytes :=
      if limit ≤ 0 then historyLimitBytesForTerminalScrollback defaultTerminalScrollback else limit }

/-- The id the next new pane gets. -/
def freshPaneID (w : AgentWorkspace) : String := taggedID "pane-" w.nextPaneID

/-- The first tab of a workspace that has none. -/
def createFirstTab (w : AgentWorkspace) (request : AgentRequest) (platform : AgentPlatform) : AgentWorkspace × Option String :=
  let (v, err) := w.createTabLocked "" "" (NormalizeCols request.Cols) (NormalizeRows request.Rows)
    (platform.spawn w.freshPaneID)
  ({ w with toWorkspace := v.wrapCounters }, err)

/-- What `ensureWorkspaceLocked` does to the workspace there is. -/
def ensure (w : AgentWorkspace) (selector username : String) (request : AgentRequest) (platform : AgentPlatform) :
    AgentWorkspace × Option String :=
  let w := { w with selector := if w.selector = "" then selector else w.selector }
  match if w.workspaceGeneration = "" then platform.NewHistoryGeneration else .ok w.workspaceGeneration with
  | .error err => (w, some ("create workspace generation: " ++ err))
  | .ok workspaceGeneration =>
    let w := { w with
      workspaceGeneration := workspaceGeneration
      username := if w.username = "" ∨ trimSpace request.Username ≠ "" then username else w.username }
    let w := w.setHistoryLimitBytes (historyLimitBytesForTerminalScrollback request.TerminalScrollback)
    if w.tabs = [] then w.createFirstTab request platform else (w, none)

def refreshActivity (w : AgentWorkspace) (platform : AgentPlatform) : AgentWorkspace × Option String :=
  match platform.activities with
  | .error err => (w, some err)
  | .ok reports => ({ w with toWorkspace := w.toWorkspace.refreshActivity reports }, none)

def snapshotPaneSummaries (w : AgentWorkspace) : List WorkspacePane :=
  w.tabs.flatMap fun tab => tab.PaneIDs.filterMap fun paneID => w.panes.lookup paneID

def answerState (w : AgentWorkspace) : AgentWorkspace × AgentResponse :=
  let (v, state) := w.toWorkspace.snapshot
  ({ w with toWorkspace := v }, .state state)

def applyAction (w : AgentWorkspace) (request : WorkspaceActionRequest) (platform : AgentPlatform) :
    AgentWorkspace × AgentResponse :=
  let w := if request.Action = .createTab ∨ request.Action = .splitPane then (w.refreshActivity platform).1 else w
  match w.toWorkspace.applyAction request (platform.spawn w.freshPaneID) with
  | (v, some err) => ({ w with toWorkspace := v.wrapCounters }, .failed err)
  | (v, none) => { w with toWorkspace := v.wrapCounters }.answerState

def paneForAttach (w : AgentWorkspace) (paneID workspaceGeneration : String) : AgentResponse :=
  if trimSpace workspaceGeneration ≠ "" ∧ trimSpace workspaceGeneration ≠ w.workspaceGeneration then
    .refreshRequired w.selector "workspace generation mismatch"
  else
    match w.panes.lookup paneID with
    | none => .refreshRequired w.selector "pane not found"
    | some pane =>
      match w.tabs.find? (·.hasPane paneID) with
      | none => .failed "pane tab not found"
      | some tab => .attached w.selector w.workspaceGeneration tab.ID pane

def work (w : AgentWorkspace) (platform : AgentPlatform) : RequestWork → AgentWorkspace × AgentResponse
  | .state => w.answerState
  | .inspect => (w.refreshActivity platform).1.answerState
  | .action request => w.applyAction request platform
  | .activity =>
    let (w, err) := w.refreshActivity platform
    (w, .activity w.selector w.snapshotPaneSummaries err)
  | .attach paneID workspaceGeneration => (w, w.paneForAttach paneID workspaceGeneration)

end AgentWorkspace

namespace AgentDaemon

def current (d : AgentDaemon) : Option AgentWorkspace := d.workspace.map d.workspaces

def setWorkspace (d : AgentDaemon) (p : Nat) (w : AgentWorkspace) : AgentDaemon :=
  { d with workspaces := Function.update d.workspaces p w }

/-- A new workspace takes the next pointer and becomes the daemon's. -/
def adopt (d : AgentDaemon) (w : AgentWorkspace) : AgentDaemon :=
  { d.setWorkspace d.made w with made := d.made + 1, workspace := some d.made }

/-- Empty, too, when there is no workspace. -/
def workspaceSelector (d : AgentDaemon) : String :=
  match d.current with
  | none => ""
  | some w => w.selector

def validateRequestSelectorLocked (d : AgentDaemon) (selector : String) : Except AgentRejection AgentDaemon :=
  let selector := trimSpace selector
  if selector = "" then .ok d
  else if d.selector ≠ "" ∧ d.selector ≠ selector then .error (.selectorMismatch d.selector selector)
  else if d.workspaceSelector ≠ "" ∧ d.workspaceSelector ≠ selector then
    .error (.workspaceSelectorMismatch d.workspaceSelector selector)
  else .ok { d with selector := selector }

def validateRequestAccountLocked (d : AgentDaemon) (accountID : String) : Except AgentRejection AgentDaemon :=
  let accountID := trimSpace accountID
  if accountID = "" then if d.accountID ≠ "" then .error .accountRequired else .ok d
  else if d.accountID ≠ "" ∧ d.accountID ≠ accountID then .error (.accountMismatch d.accountID accountID)
  else .ok { d with accountID := accountID }

/-- Both validators in turn. What the first has bound stays when the second refuses. -/
def validate (d : AgentDaemon) (request : AgentRequest) : AgentDaemon × Option AgentRejection :=
  match d.validateRequestSelectorLocked request.Selector with
  | .error reason => (d, some reason)
  | .ok d =>
    match d.validateRequestAccountLocked request.AccountID with
    | .error reason => (d, some reason)
    | .ok d => (d, none)

def rememberUsername (d : AgentDaemon) (username : String) : AgentDaemon :=
  { d with username := if trimSpace username ≠ "" ∨ d.username = "" then trimSpace username else d.username }

/-- The workspace `ensureWorkspaceLocked` makes when there is none. -/
def createWorkspace (d : AgentDaemon) (request : AgentRequest) (platform : AgentPlatform) :
    AgentDaemon × Option String :=
  match platform.NewHistoryGeneration with
  | .error err => (d, some ("create workspace generation: " ++ err))
  | .ok workspaceGeneration =>
    let w : AgentWorkspace := {
      Workspace.empty d.selector workspaceGeneration d.username with
      historyLimitBytes := historyLimitBytesForTerminalScrollback request.TerminalScrollback }
    match w.createFirstTab request platform with
    | (_, some err) => (d, some err)
    | (w, none) => (d.adopt w, none)

/-- The last part of `ensureWorkspaceLocked`, on the workspace there is by now. -/
def prepareWorkspace (d : AgentDaemon) (request : AgentRequest) (platform : AgentPlatform) :
    AgentDaemon × Except AgentResponse Nat :=
  match d.workspace with
  | none => (d, .error (.failed ""))
  | some p =>
    match (d.workspaces p).ensure d.selector d.username request platform with
    | (w, some err) => (d.setWorkspace p w, .error (.failed err))
    | (w, none) => (d.setWorkspace p w, .ok p)

def ensureWorkspaceLocked (d : AgentDaemon) (request : AgentRequest) (platform : AgentPlatform) :
    AgentDaemon × Except AgentResponse Nat :=
  if d.closed then (d, .error (.rejected .accessDisabled))
  else
    match d.validate request with
    | (d, some reason) => (d, .error (.rejected reason))
    | (d, none) =>
      let d := d.rememberUsername request.Username
      match if d.workspace = none then d.createWorkspace request platform else (d, none) with
      | (d, some err) => (d, .error (.failed err))
      | (d, none) => d.prepareWorkspace request platform

/-- What the locked part of a request comes to: its response, or work on a workspace. -/
abbrev Begun := Except AgentResponse (Nat × RequestWork)

def withWork (ensured : AgentDaemon × Except AgentResponse Nat) (work : RequestWork) : AgentDaemon × Begun :=
  match ensured with
  | (d, .error response) => (d, .error response)
  | (d, .ok p) => (d, .ok (p, work))

def ensureFor (d : AgentDaemon) (request : AgentRequest) (platform : AgentPlatform) (work : RequestWork) :
    AgentDaemon × Begun := withWork (d.ensureWorkspaceLocked request platform) work

def beginPing (d : AgentDaemon) (request : AgentRequest) : AgentDaemon × Begun :=
  match d.validate request with
  | (d, some reason) => (d, .error (.rejected reason))
  | (d, none) => (d, .error .pong)

def inspectWorkspace (d : AgentDaemon) (request : AgentRequest) : AgentDaemon × Begun :=
  if d.closed then (d, .error (.rejected .accessDisabled))
  else
    match d.validate request with
    | (d, some reason) => (d, .error (.rejected reason))
    | (d, none) =>
      match d.workspace with
      | none =>
        (d, .error (.state {
          Selector := d.selector, WorkspaceGeneration := "", ActiveTabID := "", RecentTabIDs := [], Tabs := [] }))
      | some p => (d, .ok (p, .inspect))

/-- `restoreWorkspace` keeps the lock to its end. -/
def restoreWorkspace (d : AgentDaemon) (request : AgentRequest) (recovery : Option WorkspaceRecoveryDocument)
    (platform : AgentPlatform) : AgentDaemon × AgentResponse :=
  match recovery with
  | none => (d, .rejected .recoveryRequired)
  | some document =>
    if d.closed then (d, .rejected .accessDisabled)
    else
      match d.validate request with
      | (d, some reason) => (d, .rejected reason)
      | (d, none) =>
        let d := d.rememberUsername request.Username
        match Workspace.newRecoveredTerminalWorkspace document d.selector d.username (NormalizeCols request.Cols)
            (NormalizeRows request.Rows) platform.NewHistoryGeneration platform.spawn with
        | (none, err) => (d, .failed (err.getD ""))
        | (some _, some err) => (d, .failed err)
        | (some v, none) =>
          let restored : AgentWorkspace := {
            v.wrapCounters with historyLimitBytes := historyLimitBytesForTerminalScrollback request.TerminalScrollback }
          let (restored, response) := restored.answerState
          match d.workspace with
          | none => (d.adopt restored, response)
          | some p =>
            let previous := d.workspaces p
            ((d.setWorkspace p { previous with toWorkspace := previous.closeAllPanes }).adopt restored, response)

def beginAction (d : AgentDaemon) (request : AgentRequest) (platform : AgentPlatform) : AgentDaemon × Begun :=
  match request.Action with
  | none => (d, .error (.rejected .actionRequired))
  | some (.restoreWorkspace recovery) =>
    let (d, response) := d.restoreWorkspace request recovery platform
    (d, .error response)
  | some (.apply action) => d.ensureFor request platform (.action action)

/-- The part of `handleConn` that runs under the daemon's lock. -/
def begin (d : AgentDaemon) (request : AgentRequest) (platform : AgentPlatform) : AgentDaemon × Begun :=
  match request.RequestType with
  | .ping => d.beginPing request
  | .state => d.ensureFor request platform .state
  | .inspect => d.inspectWorkspace request
  | .action => d.beginAction request platform
  | .activity => d.ensureFor request platform .activity
  | .attach => d.ensureFor request platform (.attach request.PaneID request.WorkspaceGeneration)
  | .unknown _ => (d, .error (.rejected .unknownType))

/-- The rest of the request, on the workspace it was given. -/
def finish (d : AgentDaemon) (p : Nat) (work : RequestWork) (platform : AgentPlatform) : AgentDaemon × AgentResponse :=
  let (w, response) := (d.workspaces p).work platform work
  (d.setWorkspace p w, response)

def complete (begun : AgentDaemon × Begun) (platform : AgentPlatform) : AgentDaemon × AgentResponse :=
  match begun with
  | (d, .error response) => (d, response)
  | (d, .ok (p, work)) => d.finish p work platform

/-- A request that nothing comes between. -/
def serve (d : AgentDaemon) (request : AgentRequest) (platform : AgentPlatform) : AgentDaemon × AgentResponse :=
  complete (d.begin request platform) platform

/-- The daemon `runAgentDaemon` starts. -/
def start (selector accountID username : String) : AgentDaemon where
  selector := trimSpace selector
  accountID := trimSpace accountID
  username := trimSpace username
  closed := false
  workspaces := fun _ => { Workspace.empty "" "" "" with historyLimitBytes := 0 }
  made := 0
  workspace := none

end AgentDaemon

/-! ## Interleaved requests -/

inductive AgentEvent
  /-- A request reaches the daemon and takes its lock. -/
  | request (request : AgentRequest) (platform : AgentPlatform)
  /-- The work of the pending request at an index. -/
  | work (index : Nat) (platform : AgentPlatform)
  /-- A pane's process exits, by the parts that `WorkspaceEvent` names. -/
  | pane (workspace : Nat) (event : WorkspaceEvent)
  /-- `Local.Close`. -/
  | close

structure AgentState where
  daemon : AgentDaemon
  /-- The requests whose work is still to be done, in the order they came. -/
  pending : List (Nat × RequestWork)

namespace AgentState

/-- The events of a pane that come from its process, not from a request. -/
def applyPaneEvent (w : AgentWorkspace) : WorkspaceEvent → AgentWorkspace
  | .exited paneID => { w with toWorkspace := w.markExited paneID }
  | .retain paneID exitCode => { w with toWorkspace := (w.retainFailedFinalPane paneID exitCode).1 }
  | .removePaneAfterExit paneID => { w with toWorkspace := w.removePaneAfterExit paneID }
  | _ => w

/-- The state an event leaves, and the response it sends, if it does. -/
def answer (s : AgentState) : AgentEvent → AgentState × Option AgentResponse
  | .request request platform =>
    match s.daemon.begin request platform with
    | (d, .error response) => ({ s with daemon := d }, some response)
    | (d, .ok pending) => ({ daemon := d, pending := s.pending ++ [pending] }, none)
  | .work index platform =>
    match s.pending[index]? with
    | none => (s, none)
    | some (p, work) =>
      let (d, response) := s.daemon.finish p work platform
      ({ daemon := d, pending := s.pending.eraseIdx index }, some response)
  | .pane p event => ({ s with daemon := s.daemon.setWorkspace p (applyPaneEvent (s.daemon.workspaces p) event) }, none)
  | .close =>
    let d := { s.daemon with closed := true }
    match d.workspace with
    | none => ({ s with daemon := d }, none)
    | some p =>
      let w := d.workspaces p
      ({ s with daemon := d.setWorkspace p { w with toWorkspace := w.closeAllPanes } }, none)

end AgentState

def agentMachine : Machine AgentState AgentEvent where
  step s e := some (s.answer e).1

end Webshell
