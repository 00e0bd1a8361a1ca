import Webshell.ProcScan
import Webshell.Provider
import Webshell.Throwing

/-!
# Reconciling the agent's daemons

Daemons that were started for a scope are found by their command lines, the one
that has the socket by its peer credentials. Those that are not wanted any more
are told to end, and killed if they do not. Processes come and go meanwhile, and
a number may be another process's the next time it is looked at.
-/

namespace Webshell

open GoBytes

/-! ## Command lines -/

structure DaemonScope where
  socketPath : Str
  selector : Str
  accountID : Str
  deriving DecidableEq

def DaemonScope.trim (scope : DaemonScope) : DaemonScope :=
  { socketPath := trimSpace scope.socketPath, selector := trimSpace scope.selector, accountID := trimSpace scope.accountID }

def agentDaemonArgValue (name : Str) : List Str → Option Str
  | [] => none
  | arg :: args =>
    if arg = name then args.head?
    else if (name ++ bytesOf "=").isPrefixOf arg then some (arg.drop (name.length + 1))
    else agentDaemonArgValue name args

def agentDaemonArgsMatch (args : List Str) (scope : DaemonScope) : Bool :=
  match args with
  | _ :: command :: sub :: rest =>
    command = bytesOf "agent" && sub = bytesOf "daemon" &&
      (match agentDaemonArgValue (bytesOf "--socket") rest, agentDaemonArgValue (bytesOf "--selector") rest,
          agentDaemonArgValue (bytesOf "--account") rest with
        | some socket, some selector, some account =>
          DaemonScope.trim { socketPath := socket, selector := selector, accountID := account } = scope
        | _, _, _ => false)
  | _ => false

/-- The arguments in what `/proc` says of a process. -/
def cmdlineArgs (data : Str) : List Str := (data.rdropWhile (· = 0)).splitOn 0

def cmdlineMatches (data : Option Str) (scope : DaemonScope) : Bool :=
  match data with
  | none => false
  | some data => data.rdropWhile (· = 0) ≠ [] && agentDaemonArgsMatch (cmdlineArgs data) scope

/-- How a daemon is started, and what `/proc` says of it. -/
def daemonArgs (agent socket ready selector account username : Str) : List Str :=
  [agent, bytesOf "agent", bytesOf "daemon", bytesOf "--socket", socket, bytesOf "--ready-file", ready, bytesOf "--selector", selector,
    bytesOf "--account", account, bytesOf "--username"] ++ [username]

def procCmdline (args : List Str) : Str := args.flatMap (· ++ [0])

theorem splitOn_terminated {c : UInt8} {args : List Str} (h : ∀ arg ∈ args, c ∉ arg) {last : Str} (hlast : c ∉ last) :
    (args.flatMap (· ++ [c]) ++ last).splitOn c = args ++ [last] := by
  induction args with
  | nil => simpa using List.splitOn_eq_singleton hlast
  | cons arg args ih =>
    have hrest := ih fun other hm => h other (by simp [hm])
    rw [List.flatMap_cons, List.append_assoc, List.append_assoc, List.singleton_append,
      List.splitOn_append_cons_self_of_not_mem (h arg (by simp)), hrest, List.cons_append]

/-- Arguments that are empty, at the end, are not seen. -/
theorem rdropWhile_procCmdline (args : List Str) {last : Str} (hlast : 0 ∉ last) (hne : last ≠ []) (empties : Nat) :
    (procCmdline (args ++ [last]) ++ List.replicate empties 0).rdropWhile (· = 0) = args.flatMap (· ++ [0]) ++ last := by
  induction empties with
  | zero =>
    have hself : (args.flatMap (· ++ [0]) ++ last).rdropWhile (· = 0) = args.flatMap (· ++ [0]) ++ last := by
      rw [List.rdropWhile_eq_self_iff]
      intro hnil hzero
      rw [List.getLast_append_of_ne_nil hnil hne] at hzero
      exact hlast (by simpa using (of_decide_eq_true hzero) ▸ List.getLast_mem hne)
    have hsplit : procCmdline (args ++ [last]) ++ List.replicate 0 0 = args.flatMap (· ++ [0]) ++ last ++ [0] := by
      simp [procCmdline]
    rw [hsplit, List.rdropWhile_concat_pos _ _ _ (by simp), hself]
  | succ empties ih => rw [List.replicate_succ', ← List.append_assoc, List.rdropWhile_concat_pos _ _ _ (by simp), ih]

theorem cmdlineMatches_procCmdline (args : List Str) {last : Str} (h : ∀ arg ∈ args ++ [last], 0 ∉ arg) (hne : last ≠ [])
    (empties : Nat) (scope : DaemonScope) :
    cmdlineMatches (some (procCmdline (args ++ [last]) ++ List.replicate empties 0)) scope =
      agentDaemonArgsMatch (args ++ [last]) scope := by
  have hlast := h last (by simp)
  have hargs : cmdlineArgs (procCmdline (args ++ [last]) ++ List.replicate empties 0) = args ++ [last] := by
    unfold cmdlineArgs
    rw [rdropWhile_procCmdline args hlast hne, splitOn_terminated (fun arg hm => h arg (by simp [hm])) hlast]
  unfold cmdlineMatches
  simp only [hargs, rdropWhile_procCmdline args hlast hne]
  simp [hne]

theorem agentDaemonArgValue_skip {name value : Str} (hname : bytesOf "--" <+: name) (hvalue : ¬bytesOf "--" <+: value) (rest : List Str) :
    agentDaemonArgValue name (value :: rest) = agentDaemonArgValue name rest := by
  have hne : value ≠ name := fun he => hvalue (he ▸ hname)
  have hstarts : (name ++ bytesOf "=").isPrefixOf value = false := by
    by_contra hp
    exact hvalue ((hname.trans (List.prefix_append ..)).trans (List.isPrefixOf_iff_prefix.mp (by simpa using hp)))
  rw [agentDaemonArgValue, if_neg hne, hstarts]
  rfl

theorem agentDaemonArgValue_other {name option : Str} (hne : option ≠ name) (hstarts : (name ++ bytesOf "=").isPrefixOf option = false)
    (rest : List Str) : agentDaemonArgValue name (option :: rest) = agentDaemonArgValue name rest := by
  rw [agentDaemonArgValue, if_neg hne, hstarts]
  rfl

theorem agentDaemonArgValue_found (name value : Str) (rest : List Str) :
    agentDaemonArgValue name (name :: value :: rest) = some value := by
  rw [agentDaemonArgValue, if_pos rfl]
  rfl

/-- A daemon is found for the scope that it was started for, and for no other. -/
theorem launched_daemon_found {agent socket ready selector account username : Str}
    (h : ∀ arg ∈ daemonArgs agent socket ready selector account username, 0 ∉ arg)
    (hplain : ∀ value ∈ [socket, ready, selector], ¬bytesOf "--" <+: value) (scope : DaemonScope) :
    cmdlineMatches (some (procCmdline (daemonArgs agent socket ready selector account username))) scope = true ↔
      DaemonScope.trim { socketPath := socket, selector := selector, accountID := account } = scope := by
  have hsocket := hplain socket (by simp)
  have hready := hplain ready (by simp)
  have hselector := hplain selector (by simp)
  have hmatch (rest : List Str) : agentDaemonArgsMatch ([agent, bytesOf "agent", bytesOf "daemon", bytesOf "--socket", socket,
      bytesOf "--ready-file", ready, bytesOf "--selector", selector, bytesOf "--account", account, bytesOf "--username"] ++ rest)
        scope = true ↔ DaemonScope.trim { socketPath := socket, selector := selector, accountID := account } = scope := by
    have hs : bytesOf "--" <+: bytesOf "--selector" := by decide
    have ha : bytesOf "--" <+: bytesOf "--account" := by decide
    simp only [agentDaemonArgsMatch, List.cons_append, List.nil_append, agentDaemonArgValue_found]
    rw [agentDaemonArgValue_other (by decide) (by decide), agentDaemonArgValue_skip hs hsocket,
      agentDaemonArgValue_other (by decide) (by decide), agentDaemonArgValue_skip hs hready, agentDaemonArgValue_found,
      agentDaemonArgValue_other (by decide) (by decide), agentDaemonArgValue_skip ha hsocket,
      agentDaemonArgValue_other (by decide) (by decide), agentDaemonArgValue_skip ha hready,
      agentDaemonArgValue_other (by decide) (by decide), agentDaemonArgValue_skip ha hselector, agentDaemonArgValue_found]
    simp
  by_cases hu : username = []
  · have hargs : daemonArgs agent socket ready selector account username = [agent, bytesOf "agent", bytesOf "daemon",
        bytesOf "--socket", socket, bytesOf "--ready-file", ready, bytesOf "--selector", selector, bytesOf "--account", account] ++
          [bytesOf "--username"] ++ [[]] := by simp [daemonArgs, hu]
    rw [hargs] at h ⊢
    have hline : ∀ args : List Str, procCmdline (args ++ [[]]) = procCmdline args ++ List.replicate 1 0 := by simp [procCmdline]
    rw [hline, cmdlineMatches_procCmdline _ (fun arg hm => h arg (List.mem_append_left _ hm)) (by decide)]
    simpa using hmatch []
  · have := cmdlineMatches_procCmdline [agent, bytesOf "agent", bytesOf "daemon", bytesOf "--socket", socket,
      bytesOf "--ready-file", ready, bytesOf "--selector", selector, bytesOf "--account", account, bytesOf "--username"] h hu 0 scope
    rw [List.replicate_zero, List.append_nil] at this
    unfold daemonArgs
    rw [this]
    exact hmatch [username]

theorem launched_daemon_found_unnamed :
    cmdlineMatches (some (procCmdline (daemonArgs (bytesOf "a") (bytesOf "/run/a") (bytesOf "/r") (bytesOf " s") (bytesOf "u") [])))
        { socketPath := bytesOf "/run/a", selector := bytesOf "s", accountID := bytesOf "u" } = true ↔
      DaemonScope.trim { socketPath := bytesOf "/run/a", selector := bytesOf " s", accountID := bytesOf "u" } =
        { socketPath := bytesOf "/run/a", selector := bytesOf "s", accountID := bytesOf "u" } :=
  launched_daemon_found (by decide +kernel) (by decide +kernel) _

/-! ## What is called -/

inductive SocketStat
  | notExist
  | failed (text : Str)
  | other
  | socket

/-- What comes of connecting to the socket and asking whose it is. -/
inductive SocketPeer
  /-- Refused, or gone meanwhile. -/
  | absent
  | failed (text : Str)
  | pid (pid : Int)

/-- The answer to a `ping`. -/
structure PingAnswer where
  OK : Bool
  Error : Str
  Version : Str

inductive DaemonSignal
  | term
  | kill
  deriving DecidableEq

def DaemonSignal.verb : DaemonSignal → String
  | .term => "terminate"
  | .kill => "kill"

inductive KillAnswer
  | delivered
  /-- `ESRCH`. -/
  | noProcess
  | failed (text : Str)

structure ReconcileHost (σ : Type) where
  getpid : Int
  lstat : Str → σ → SocketStat × σ
  peer : Str → σ → SocketPeer × σ
  ping : DaemonScope → σ → Except Str PingAnswer × σ
  /-- The processes with a command line: names that start with a digit. -/
  glob : σ → List Str × σ
  cmdline : Int → σ → Option Str × σ
  kill : Int → DaemonSignal → σ → KillAnswer × σ
  /-- Milliseconds. -/
  now : σ → Nat × σ
  sleep : Nat → σ → σ

/-- What is kept of a run. -/
inductive ReconcileOp
  | owner (pid : Int)
  /-- What the process was seen to be started with. -/
  | looked (pid : Int) (data : Option Str)
  /-- The version that the owner of the socket names, if it names one. -/
  | version (version : Option Str)
  | signal (pid : Int) (sig : DaemonSignal)
  deriving DecidableEq

structure ReconcileRun (σ : Type) where
  world : σ
  ops : List ReconcileOp := []

inductive ReconcileError
  | failed (text : Str)
  | outOfFuel
  deriving DecidableEq

abbrev Reconcile (σ : Type) := EStateM ReconcileError (ReconcileRun σ)

section

variable {σ α : Type}

def reconcileFail (text : String) : Reconcile σ α := throw (.failed (bytesOf text))

def reconcileCall (call : σ → α × σ) : Reconcile σ α := fun s => .ok (call s.world).1 { s with world := (call s.world).2 }

def reconcileNote (op : ReconcileOp) : Reconcile σ Unit := modify fun s => { s with ops := s.ops ++ [op] }

/-! ## The functions -/

variable (host : ReconcileHost σ)

def activeAgentSocketPID (socketPath : Str) : Reconcile σ Int := do
  match ← reconcileCall (host.lstat socketPath) with
  | .notExist => pure 0
  | .failed text => throw (.failed (bytesOf "stat agent socket for reconciliation failed: " ++ text))
  | .other => throw (.failed (bytesOf "agent socket path is occupied by a non-socket file: " ++ socketPath))
  | .socket =>
    match ← reconcileCall (host.peer socketPath) with
    | .absent => pure 0
    | .failed text => throw (.failed text)
    | .pid pid => if pid ≤ 0 then reconcileFail "agent socket peer pid is unavailable" else pure pid

def agentDaemonPIDMatches (scope : DaemonScope) (pid : Int) : Reconcile σ Bool := do
  let data ← reconcileCall (host.cmdline pid)
  reconcileNote (.looked pid data)
  pure (cmdlineMatches data scope)

/-- The processes of `names` that are daemons of the scope. -/
def matchingPIDs (scope : DaemonScope) : List Str → Reconcile σ (List Int)
  | [] => pure []
  | name :: names =>
    match (parseInt64 name).filter (0 < ·) with
    | none => matchingPIDs scope names
    | some pid => do
      let found ← agentDaemonPIDMatches host scope pid
      let pids ← matchingPIDs scope names
      pure (if found then pid :: pids else pids)

def matchingAgentDaemonPIDs (scope : DaemonScope) : Reconcile σ (List Int) := do
  matchingPIDs host scope (← reconcileCall host.glob)

def activeAgentSocketProtocolVersion (scope : DaemonScope) : Reconcile σ (Except Str Str) := do
  let answer ← reconcileCall (host.ping scope)
  pure (match answer with
    | .error text => .error text
    | .ok response =>
      if response.OK = false then .error (bytesOf "active agent protocol verification failed: " ++ trimSpace response.Error)
      else if trimSpace response.Version = [] then
        .error (bytesOf "active agent protocol verification returned an empty version")
      else .ok (trimSpace response.Version))

/-- Whether the owner of the socket is to stay, having the protocol of this program. -/
def verifyProtocol (scope : DaemonScope) (forceProtocolReplacement : Bool) : Reconcile σ Bool := do
  match ← activeAgentSocketProtocolVersion host scope with
  | .ok version =>
    reconcileNote (.version (some version))
    pure (version = bytesOf AgentProtocolVersion)
  | .error text =>
    reconcileNote (.version none)
    if forceProtocolReplacement then pure false else throw (.failed text)

/-- `syscall.Kill`; that there is no such process does not matter. -/
def signalDaemon (sig : DaemonSignal) (pid : Int) : Reconcile σ Unit := do
  reconcileNote (.signal pid sig)
  match ← reconcileCall (host.kill pid sig) with
  | .failed text => throw (.failed (bytesOf (sig.verb ++ " agent daemon " ++ toString pid ++ " failed: ") ++ text))
  | _ => pure ()

/-- How many of the processes are still daemons of the scope. -/
def countRemaining (scope : DaemonScope) : List Int → Reconcile σ Nat
  | [] => pure 0
  | pid :: pids => do
    let found ← agentDaemonPIDMatches host scope pid
    let remaining ← countRemaining scope pids
    pure (if found then remaining + 1 else remaining)

/-- One round after the other, to the deadline; the number that did not exit. -/
def waitRounds (scope : DaemonScope) (pids : List Int) (deadline : Nat) : Nat → Reconcile σ Nat
  | 0 => throw .outOfFuel
  | fuel + 1 => do
    let remaining ← countRemaining host scope pids
    if remaining = 0 then pure 0
    else
      let now ← reconcileCall host.now
      if deadline < now then pure remaining
      else
        reconcileCall fun w => ((), host.sleep 25 w)
        waitRounds scope pids deadline fuel

def waitForAgentDaemonExit (fuel : Nat) (scope : DaemonScope) (pids : List Int) : Reconcile σ Nat := do
  let now ← reconcileCall host.now
  waitRounds host scope pids (now + 750) fuel

def terminateAll : List Int → Reconcile σ Unit
  | [] => pure ()
  | pid :: pids => do
    signalDaemon host .term pid
    terminateAll pids

/-- What is no daemon of the scope any more is not killed. -/
def killDaemon (scope : DaemonScope) (pid : Int) : Reconcile σ Unit := do
  if ← agentDaemonPIDMatches host scope pid then signalDaemon host .kill pid else pure ()

def killAll (scope : DaemonScope) : List Int → Reconcile σ Unit
  | [] => pure ()
  | pid :: pids => do
    killDaemon host scope pid
    killAll scope pids

def removeDaemons (fuel : Nat) (scope : DaemonScope) (victims : List Int) : Reconcile σ Nat := do
  terminateAll host victims
  if (← waitForAgentDaemonExit host fuel scope victims) = 0 then pure victims.length
  else
    killAll host scope victims
    let remaining ← waitForAgentDaemonExit host fuel scope victims
    if remaining = 0 then pure victims.length
    else reconcileFail (toString remaining ++ " agent daemon process(es) did not exit")

def reconcileAgentDaemonsWithOptions (fuel : Nat) (requested : DaemonScope) (replaceActive forceProtocolReplacement : Bool) :
    Reconcile σ Nat := do
  let scope := requested.trim
  if scope.socketPath = [] then reconcileFail "agent socket path is required"
  else
    let activePID ← activeAgentSocketPID host scope.socketPath
    reconcileNote (.owner activePID)
    let pids ← matchingAgentDaemonPIDs host scope
    if replaceActive then
      if activePID = 0 then removeDaemons host fuel scope []
      else if activePID ∉ pids then
        reconcileFail ("active agent socket owner pid " ++ toString activePID ++ " does not match selector/account scope")
      else if ← verifyProtocol host scope forceProtocolReplacement then pure 0
      else removeDaemons host fuel scope [activePID]
    else removeDaemons host fuel scope (pids.filter fun pid => pid ≠ host.getpid && pid ≠ activePID)

def reconcileAgentDaemons (fuel : Nat) (requested : DaemonScope) (replaceActive : Bool) : Reconcile σ Nat :=
  reconcileAgentDaemonsWithOptions host fuel requested replaceActive false

end

end Webshell
