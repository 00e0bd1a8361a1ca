import Webshell.Daemon

/-!
# Workspace requests with recovery

The provider asks the agent for its workspace or for an action, compares the
generation it is answered with the stored document's, and restores that document
into an agent that has another workspace. A request that is answered by an error
is sent once more.
-/

namespace Webshell

open GoText

/-! ## One request to the agent -/

def AgentProtocolVersion : String := "lcmd-webshell-agent-v50"

def agentVersions (low high : Nat) : List String :=
  (List.range' low (high + 1 - low)).map fun n : Nat => taggedID "lcmd-webshell-agent-v" n

def supportsWorkspaceRecovery (version : String) : Bool := (agentVersions 27 50).contains (trimSpace version)

def isAttachCompatibleAgentProtocolVersion (version : String) : Bool := (agentVersions 9 50).contains (trimSpace version)

structure AgentScope where
  Selector : String
  AccountID : String
  /-- The user that `ensurePersistentAgent` finds. -/
  username : String
  /-- The version the agent answers with. -/
  version : String

structure RequestSize where
  cols : Int
  rows : Int
  terminalScrollback : Int

inductive ProviderError
  | unsupportedProtocol (version : String)
  | rejected (reason : AgentRejection)
  | agent (err : String)
  | emptyState
  deriving DecidableEq

/-- The platform's answers while the agent serves a request, and while it serves the same request again. -/
structure AgentAttempts where
  first : AgentPlatform
  second : AgentPlatform

def agentError (err : String) : ProviderError := .agent (if err = "" then "agent request failed" else err)

def parsePersistentAgentResponse (version : String) (response : AgentResponse) : Except ProviderError AgentResponse :=
  if !isAttachCompatibleAgentProtocolVersion version then .error (.unsupportedProtocol version)
  else
    match response with
    | .rejected reason => .error (.rejected reason)
    | .failed err => .error (agentError err)
    | .activity _ _ (some err) => .error (agentError err)
    | response => .ok response

namespace AgentScope

def request (scope : AgentScope) (size : RequestSize) (requestType : AgentRequestType) (action : Option AgentAction) :
    AgentRequest where
  RequestType := requestType
  Selector := trimSpace scope.Selector
  AccountID := trimSpace scope.AccountID
  Username := scope.username
  Cols := size.cols
  Rows := size.rows
  TerminalScrollback := size.terminalScrollback
  Action := action

def requestPersistentAgent (scope : AgentScope) (d : AgentDaemon) (request : AgentRequest) (attempts : AgentAttempts) :
    AgentDaemon × Except ProviderError AgentResponse :=
  let (d, response) := d.serve request attempts.first
  match parsePersistentAgentResponse scope.version response with
  | .ok response => (d, .ok response)
  | .error _ =>
    let (d, response) := d.serve request attempts.second
    (d, parsePersistentAgentResponse scope.version response)

/-- A request that has to be answered with a state. -/
def requestAgentState (scope : AgentScope) (d : AgentDaemon) (request : AgentRequest) (attempts : AgentAttempts) :
    AgentDaemon × Except ProviderError Workspace.WorkspaceState :=
  match scope.requestPersistentAgent d request attempts with
  | (d, .ok (.state state)) => (d, .ok state)
  | (d, .ok _) => (d, .error .emptyState)
  | (d, .error err) => (d, .error err)

def stateRequest (scope : AgentScope) (size : RequestSize) : AgentRequest := scope.request size .state none

def actionRequest (scope : AgentScope) (size : RequestSize) (action : WorkspaceActionRequest) : AgentRequest :=
  scope.request size .action (some (.apply action))

def restoreRequest (scope : AgentScope) (size : RequestSize) (document : WorkspaceRecoveryDocument) : AgentRequest :=
  scope.request size .action (some (.restoreWorkspace (some document)))

def requestAgentWorkspaceState (scope : AgentScope) (size : RequestSize) (d : AgentDaemon) (attempts : AgentAttempts) :
    AgentDaemon × Except ProviderError Workspace.WorkspaceState :=
  scope.requestAgentState d (scope.stateRequest size) attempts

def requestAgentWorkspaceAction (scope : AgentScope) (size : RequestSize) (action : WorkspaceActionRequest)
    (d : AgentDaemon) (attempts : AgentAttempts) : AgentDaemon × Except ProviderError Workspace.WorkspaceState :=
  scope.requestAgentState d (scope.actionRequest size action) attempts

def requestAgentWorkspaceRestore (scope : AgentScope) (size : RequestSize) (document : WorkspaceRecoveryDocument)
    (d : AgentDaemon) (attempts : AgentAttempts) : AgentDaemon × Except ProviderError Workspace.WorkspaceState :=
  match scope.requestAgentState d (scope.restoreRequest size document) attempts with
  | (d, .ok state) =>
    if supportsWorkspaceRecovery scope.version then (d, .ok state)
    else (d, .error (.unsupportedProtocol scope.version))
  | (d, .error err) => (d, .error err)

end AgentScope

/-! ## The store -/

/-- The stored document of a scope. -/
abbrev RecoveryStore := Option WorkspaceRecoveryDocument

/-- `loadLocked`, when the file can be read; a file that cannot be is no document to the callers. -/
def RecoveryStore.load (stored : RecoveryStore) (epoch : String) (readable : Bool) : Option WorkspaceRecoveryDocument :=
  if trimSpace epoch = "" ∨ readable = false then none
  else
    stored.filter fun document =>
      trimSpace document.Epoch = trimSpace epoch ∧ ValidateWorkspaceRecoveryDocument document = none

/-- `saveLocked`, when the file can be written and the text is not too large. -/
def RecoveryStore.save (stored : RecoveryStore) (document : WorkspaceRecoveryDocument) (written : Bool) : RecoveryStore :=
  if trimSpace document.Epoch = "" ∨ ValidateWorkspaceRecoveryDocument document ≠ none ∨ written = false then stored
  else some document

/-! ## Requests with recovery -/

/-- What the environment answers during a request: the agent's platform for each of the requests
that may be sent to it, and the store. -/
structure RecoveryEnv where
  request : AgentAttempts
  restore : AgentAttempts
  again : AgentAttempts
  readable : Bool
  written : Bool

inductive ProviderRequest
  | state
  | action (action : WorkspaceActionRequest)

structure Provider where
  daemon : AgentDaemon
  stored : RecoveryStore

/-- What a request leaves and returns, the document it restored on the way, if it did, and whether
it came as far as saving. -/
structure Recovered where
  provider : Provider
  result : Except ProviderError Workspace.WorkspaceState
  restored : Option WorkspaceRecoveryDocument
  saved : Bool

namespace Provider

/-- The document is restored, and then the action is applied: what recovery is for. -/
def restoreThenApply (scope : AgentScope) (size : RequestSize) (document : WorkspaceRecoveryDocument)
    (action : WorkspaceActionRequest) (d : AgentDaemon) (env : RecoveryEnv) :
    AgentDaemon × Except ProviderError Workspace.WorkspaceState :=
  match scope.requestAgentWorkspaceRestore size document d env.restore with
  | (d, .error err) => (d, .error err)
  | (d, .ok _) => scope.requestAgentWorkspaceAction size action d env.again

/-- `saveWorkspaceRecovery`, and the return that follows it. -/
def saveAndReturn (stored : RecoveryStore) (epoch : String) (env : RecoveryEnv) (d : AgentDaemon)
    (state : Workspace.WorkspaceState) (restored : Option WorkspaceRecoveryDocument) : Recovered where
  provider := {
    daemon := d
    stored := stored.save (Workspace.WorkspaceRecoveryDocumentFromState epoch state) env.written }
  result := .ok state
  restored := restored
  saved := true

/-- What follows the agent's answer: an agent with another workspace than the stored one is recovered. -/
def reconcile (p : Provider) (scope : AgentScope) (epoch : String) (env : RecoveryEnv) (d : AgentDaemon)
    (state : Workspace.WorkspaceState) (recover : WorkspaceRecoveryDocument → Recovered) : Recovered :=
  if trimSpace epoch = "" then ⟨{ p with daemon := d }, .ok state, none, false⟩
  else
    match p.stored.load epoch env.readable with
    | none => saveAndReturn p.stored epoch env d state none
    | some document =>
      if document.WorkspaceGeneration = state.WorkspaceGeneration then saveAndReturn p.stored epoch env d state none
      else if !supportsWorkspaceRecovery scope.version then
        ⟨{ p with daemon := d }, .error (.unsupportedProtocol scope.version), none, false⟩
      else recover document

def requestWorkspaceStateWithRecovery (p : Provider) (scope : AgentScope) (size : RequestSize) (epoch : String)
    (env : RecoveryEnv) : Recovered :=
  match scope.requestAgentWorkspaceState size p.daemon env.request with
  | (d, .error err) => ⟨{ p with daemon := d }, .error err, none, false⟩
  | (d, .ok state) =>
    p.reconcile scope epoch env d state fun document =>
      match scope.requestAgentWorkspaceRestore size document d env.restore with
      | (d, .error err) => ⟨{ p with daemon := d }, .error err, none, false⟩
      | (d, .ok state) => saveAndReturn p.stored epoch env d state (some document)

/-- The document is loaded before the action, which does not touch the store. -/
def requestWorkspaceActionWithRecovery (p : Provider) (scope : AgentScope) (size : RequestSize) (epoch : String)
    (action : WorkspaceActionRequest) (env : RecoveryEnv) : Recovered :=
  match scope.requestAgentWorkspaceAction size action p.daemon env.request with
  | (d, .error err) => ⟨{ p with daemon := d }, .error err, none, false⟩
  | (d, .ok state) =>
    p.reconcile scope epoch env d state fun document =>
      match scope.requestAgentWorkspaceRestore size document d env.restore with
      | (d, .error err) => ⟨{ p with daemon := d }, .error err, none, false⟩
      | (d, .ok _) =>
        match scope.requestAgentWorkspaceAction size action d env.again with
        | (d, .error err) => ⟨{ p with daemon := d }, .error err, some document, false⟩
        | (d, .ok state) => saveAndReturn p.stored epoch env d state (some document)

def requestWithRecovery (p : Provider) (scope : AgentScope) (size : RequestSize) (epoch : String) (env : RecoveryEnv) :
    ProviderRequest → Recovered
  | .state => p.requestWorkspaceStateWithRecovery scope size epoch env
  | .action action => p.requestWorkspaceActionWithRecovery scope size epoch action env

end Provider

end Webshell
