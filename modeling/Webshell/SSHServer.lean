import Webshell.Machine
import Webshell.Text
import Webshell.Base64

/-!
# The SSH server

One configuration at a time. `Apply` publishes a newer one disabled, lets go of
its lock while the old connections and terminals end, and enables it then;
every step below is one holding of `s.mu`, or what a goroutine does without it.
A connection or a terminal keeps its place in its list after it left the map.
-/

namespace Webshell

open GoText

structure SSHBinding where
  BoxID : String
  AccountID : String
  DeviceID : String
  Epoch : String
  deriving DecidableEq

structure SSHAccess where
  Binding : SSHBinding
  Revision : Nat
  deriving DecidableEq

structure SSHConfig where
  Revision : Nat := 0
  Enabled : Bool := false
  PasswordHash : String := ""
  deriving DecidableEq

/-! ## Password verifiers -/

def passwordHashPrefix : String := "$pbkdf2-sha256$600000$"

/-- A text of the unpadded alphabet that is the encoding of so many bytes. -/
def rawEncoding (text : List Char) (size : Nat) : Bool :=
  match (text.mapM Base64.value).bind Base64.octets with
  | some data => data.length = size ∧ (Base64.sextets data).map Base64.digit = text
  | none => false

def parsePasswordHash (value : String) : Bool :=
  byteLength value = byteLength passwordHashPrefix + 22 + 1 + 43 &&
    let rest := value.toList.drop passwordHashPrefix.length
    rest.contains '$' && rawEncoding (rest.takeWhile (· ≠ '$')) 16 && rawEncoding ((rest.dropWhile (· ≠ '$')).drop 1) 32

/-- `bcryptCost` is the bcrypt package's reading of a verifier. -/
def validatePasswordHash (bcryptCost : String → Option Int) (hash : String) : Option String :=
  if passwordHashPrefix.toList.isPrefixOf hash.toList then
    if parsePasswordHash hash then none else some "invalid SSH password verifier"
  else if byteLength hash ≠ 60 then some "invalid SSH password verifier"
  else
    match bcryptCost hash with
    | some cost => if cost < 10 ∨ 14 < cost then some "unsupported SSH password verifier cost" else none
    | none => some "unsupported SSH password verifier cost"

/-! ## The state -/

structure SSHConnection where
  access : SSHAccess
  /-- It is in `s.connections`. -/
  listed : Bool := true
  cancelled : Bool := false
  /-- It has called `s.wg.Done`. -/
  finished : Bool := false
  attached : List Nat := []
  /-- The terminals whose `Close` its `killTerminal` is waiting for. -/
  killing : List Nat := []
  deriving DecidableEq

inductive ShellHome
  | retained
  /-- Left out of the map after its output had ended. -/
  | dropped
  /-- Taken out of the map to be closed. -/
  | taken
  deriving DecidableEq

inductive ShellClose
  | never
  | closing
  | closed
  deriving DecidableEq

structure RetainedShell where
  id : String
  revision : Nat
  workCtx : Nat
  home : ShellHome := .retained
  /-- Its process has not been waited for to the end. -/
  running : Bool := true
  close : ShellClose := .never
  attached : Bool := false
  ended : Bool := false
  endedAt : Nat := 0
  deriving DecidableEq

/-- The goroutine of `closeConnections`. -/
inductive Cleanup
  | starting
  | closing (items : List Nat)
  | waiting
  | done
  deriving DecidableEq

/-- Who holds `s.update`: `some next` is `Apply`, `none` is `Close`. -/
inductive UpdateCall
  | free
  | cancelling (call : Option SSHConfig) (items : List Nat)
  | cleaning (call : Option SSHConfig) (own : Cleanup)
  | enabling (next : SSHConfig)
  deriving DecidableEq

/-- `applied` and `admissions` are not in the source: the configurations that were applied, and
what each admission was given with. -/
structure SSHServer where
  binding : SSHBinding
  config : SSHConfig := {}
  closed : Bool := false
  /-- `s.lifetime` is over. -/
  expired : Bool := false
  workCtx : Nat := 0
  workLive : Bool := true
  update : UpdateCall := .free
  connections : List SSHConnection := []
  terminals : List RetainedShell := []
  /-- Cleanups that nobody waits for any more. -/
  abandoned : List Cleanup := []
  shellsFailure : Option String := none
  shellsClosed : Bool := false
  commandCleanup : Option String := none
  applied : List SSHConfig := []
  admissions : List SSHAccess := []
  deriving DecidableEq

/-- What a call of `Apply` returned. -/
structure ApplyReply where
  next : SSHConfig
  err : Option String
  deriving DecidableEq

abbrev Stepped := Option (SSHServer × Option ApplyReply)

def errorsJoin : Option String → Option String → Option String
  | some a, some b => some (a ++ "\n" ++ b)
  | some a, none => some a
  | none, b => b

def sessionName (name : String) : Bool :=
  1 ≤ name.length && name.length ≤ 64 && name.toList.all fun c => c.isAlphanum || c = '_' || c = '-'

namespace SSHServer

def quiet (s : SSHServer) : Stepped := some (s, none)

def replies (s : SSHServer) (next : SSHConfig) (err : Option String) : Stepped :=
  some (s, some { next := next, err := err })

def currentLocked (s : SSHServer) (access : SSHAccess) : Bool :=
  !s.closed && !s.expired && s.config.Enabled && access.Binding = s.binding && access.Revision = s.config.Revision

def connectionListLocked (s : SSHServer) : List Nat :=
  (List.range s.connections.length).filter fun i => s.connections[i]?.any (·.listed)

def listed (s : SSHServer) : Nat := s.connections.countP (·.listed)

/-! ## Configurations -/

/-- Up to the second release of `s.mu`. -/
def Apply (bcryptCost : String → Option Int) (s : SSHServer) (next : SSHConfig) : Stepped :=
  if next.Revision = 0 then s.replies next (some "SSH config revision is required")
  else
    match if next.Enabled then validatePasswordHash bcryptCost next.PasswordHash else none with
    | some err => s.replies next (some err)
    | none =>
      if s.update ≠ .free then none
      else if s.closed ∨ s.expired then s.replies next (some "SSH server closed")
      else if next.Revision < s.config.Revision then s.replies next (some "stale SSH config")
      else if next.Revision = s.config.Revision then
        s.replies next (if next = s.config then none else some "conflicting SSH config revision")
      else
        { s with
          config := { next with Enabled := false }, workLive := false
          update := .cancelling (some next) s.connectionListLocked }.quiet

def Close (s : SSHServer) : Stepped :=
  if s.update ≠ .free then none
  else
    { s with
      closed := true, config := { s.config with Enabled := false }, workLive := false
      update := .cancelling none s.connectionListLocked }.quiet

/-- The first loop of `closeConnections`, and the start of its goroutine. -/
def cancelItems (s : SSHServer) : Stepped :=
  match s.update with
  | .cancelling call items =>
    { s with
      connections := items.foldl (fun cs i => cs.modify i fun c => { c with cancelled := true }) s.connections
      update := .cleaning call .starting }.quiet
  | _ => none

def closeRetained (s : SSHServer) : SSHServer × List Nat :=
  ({ s with terminals := s.terminals.map fun t => if t.home = .retained then { t with home := .taken } else t },
    (List.range s.terminals.length).filter fun i => s.terminals[i]?.any (·.home = .retained))

/-- The goroutine's next step: `Close` of a terminal returns once the terminal is closed. -/
def cleanup (s : SSHServer) : Cleanup → Option (SSHServer × Cleanup)
  | .starting => some ((s.closeRetained).1, .closing (s.closeRetained).2)
  | .closing [] => some (s, .waiting)
  | .closing (i :: items) => if s.terminals[i]?.all (·.close = .closed) then some (s, .closing items) else none
  | .waiting => if s.connections.all (·.finished) then some (s, .done) else none
  | .done => none

def ownCleanup (s : SSHServer) : Stepped :=
  match s.update with
  | .cleaning call own =>
    match s.cleanup own with
    | some (s', own') => { s' with update := .cleaning call own' }.quiet
    | none => none
  | _ => none

def oldCleanup (s : SSHServer) (i : Nat) : Stepped :=
  match s.abandoned[i]? with
  | some k =>
    match s.cleanup k with
    | some (s', k') => { s' with abandoned := s'.abandoned.set i k' }.quiet
    | none => none
  | none => none

/-- `Close` closes the shells too, whatever its cleanup came to. -/
def timeout (s : SSHServer) : Stepped :=
  match s.update with
  | .cleaning (some next) own =>
    { s with abandoned := s.abandoned ++ [own], update := .free }.replies next
      (some "SSH cleanup incomplete; access remains disabled")
  | .cleaning none own => { s with abandoned := s.abandoned ++ [own], update := .free, shellsClosed := true }.quiet
  | _ => none

def finish (s : SSHServer) : Stepped :=
  match s.update with
  | .cleaning (some next) .done =>
    match errorsJoin s.shellsFailure s.commandCleanup with
    | some err => { s with update := .free }.replies next (some err)
    | none => { s with update := .enabling next }.quiet
  | .cleaning none .done => { s with update := .free, shellsClosed := true }.quiet
  | _ => none

/-- The last section of `Apply`. -/
def enable (s : SSHServer) : Stepped :=
  match s.update with
  | .enabling next =>
    if s.expired then { s with update := .free }.replies next (some "SSH authorization expired")
    else
      { s with
        workCtx := s.workCtx + 1, workLive := true, config := next, update := .free
        applied := s.applied ++ [next] }.replies next none
  | _ => none

/-! ## Connections -/

/-- `ctxLive`: the context of the call is not over. -/
def ServeConn (s : SSHServer) (access : SSHAccess) (ctxLive : Bool) : Stepped :=
  if !s.currentLocked access || 32 ≤ s.listed || !ctxLive then s.quiet
  else
    quiet { s with
      connections := s.connections ++ [{ access := access }]
      admissions := s.admissions ++ [access] }

def modifyConnection (s : SSHServer) (i : Nat) (f : SSHConnection → SSHConnection) : SSHServer :=
  { s with connections := s.connections.modify i f }

def modifyTerminal (s : SSHServer) (i : Nat) (f : RetainedShell → RetainedShell) : SSHServer :=
  { s with terminals := s.terminals.modify i f }

/-- A connection whose sessions run. -/
def session (s : SSHServer) (i : Nat) : Option SSHConnection := s.connections[i]?.filter (·.listed)

/-- A connection ends after its sessions have. -/
def unlist (s : SSHServer) (i : Nat) : Stepped :=
  match s.session i with
  | some c => if c.attached = [] ∧ c.killing = [] then (s.modifyConnection i fun c => { c with listed := false }).quiet else none
  | none => none

def wgDone (s : SSHServer) (i : Nat) : Stepped :=
  match s.connections[i]? with
  | some c => if !c.listed && !c.finished then (s.modifyConnection i fun c => { c with finished := true }).quiet else none
  | none => none

def recordCommandCleanup (s : SSHServer) (i : Nat) (err : String) : Stepped :=
  match s.session i with
  | some _ => { s with commandCleanup := errorsJoin s.commandCleanup (some err) }.quiet
  | none => none

/-! ## Terminals -/

def findRetained (s : SSHServer) (name : String) : Option Nat :=
  s.terminals.findIdx? fun t => t.home = .retained && t.id = name

def eligible (t : RetainedShell) : Bool := t.home = .retained && t.ended && !t.attached

/-- The terminal at `i` may be the one the loop over the map ends with. -/
def isOldest (s : SSHServer) (i : Nat) : Bool :=
  match s.terminals[i]? with
  | some t => eligible t && s.terminals.all fun t' => !eligible t' || t.endedAt ≤ t'.endedAt
  | none => false

/-- `opened`: the platform starts a shell, and there is room for it. -/
def openTerminal (s : SSHServer) (access : SSHAccess) (name : String) (opened : Bool) : Stepped :=
  if !opened || s.shellsClosed || s.shellsFailure.isSome || !s.workLive || s.expired then s.quiet
  else
    quiet { s with
      terminals := s.terminals ++ [{ id := name, revision := access.Revision, workCtx := s.workCtx }]
      admissions := s.admissions ++ [access] }

/-- `random` is the name of a terminal that is given none, `oldest` the one that makes room. -/
def newTerminal (s : SSHServer) (i : Nat) (name random : String) (opened : Bool) (oldest : Nat) : Stepped :=
  match s.session i with
  | none => none
  | some c =>
    let name := if name = "" then random else name
    if !sessionName name || !s.currentLocked c.access || (s.findRetained name).isSome then s.quiet
    else if s.terminals.countP (·.home = .retained) < 32 then s.openTerminal c.access name opened
    else if s.terminals.all (!eligible ·) then s.quiet
    else if s.isOldest oldest then
      (s.modifyTerminal oldest fun t => { t with home := .dropped }).openTerminal c.access name opened
    else none

def attachTerminal (s : SSHServer) (i : Nat) (name : String) : Stepped :=
  match s.session i with
  | none => none
  | some c =>
    if !s.currentLocked c.access then s.quiet
    else
      match s.findRetained name with
      | none => s.quiet
      | some j =>
        if s.terminals[j]?.any fun t => t.revision = c.access.Revision && !t.attached then
          { (s.modifyTerminal j fun t => { t with attached := true }).modifyConnection i
              fun c => { c with attached := j :: c.attached } with
            admissions := s.admissions ++ [c.access] }.quiet
        else s.quiet

def detachTerminal (s : SSHServer) (i j : Nat) : Stepped :=
  match s.session i with
  | none => none
  | some c =>
    if j ∈ c.attached then
      ((s.modifyTerminal j fun t =>
          { t with attached := false, home := if t.home = .retained ∧ t.ended then .dropped else t.home }).modifyConnection i
        fun c => { c with attached := c.attached.erase j }).quiet
    else none

/-- Up to `r.terminal.Close`, which is waited for. -/
def killTerminal (s : SSHServer) (i : Nat) (name : String) : Stepped :=
  match s.session i with
  | none => none
  | some c =>
    if !s.currentLocked c.access then s.quiet
    else
      match s.findRetained name with
      | none => s.quiet
      | some j =>
        ((s.modifyTerminal j fun t => { t with home := .taken }).modifyConnection i
          fun c => { c with killing := j :: c.killing }).quiet

def killed (s : SSHServer) (i j : Nat) : Stepped :=
  match s.session i with
  | none => none
  | some c =>
    if j ∈ c.killing ∧ s.terminals[j]?.all (·.close = .closed) then
      (s.modifyConnection i fun c => { c with killing := c.killing.filter (· ≠ j) }).quiet
    else none

/-- `readOutput` is at its end. -/
def outputEnds (s : SSHServer) (j at_ : Nat) : Stepped :=
  (s.modifyTerminal j fun t => { t with ended := true, endedAt := at_ }).quiet

def exits (s : SSHServer) (j : Nat) : Stepped := (s.modifyTerminal j fun t => { t with running := false }).quiet

/-- A terminal is closed when its context is over, when its process is, or by whoever took it out. -/
def beginClose (s : SSHServer) (j : Nat) : Stepped :=
  match s.terminals[j]? with
  | some t =>
    if t.close = .never ∧ (t.workCtx ≠ s.workCtx ∨ !s.workLive ∨ s.expired ∨ s.shellsClosed ∨ !t.running ∨
        t.home = .taken) then
      (s.modifyTerminal j fun t => { t with close := .closing }).quiet
    else none
  | none => none

/-- `Close` returns no error only when the process has been waited for. -/
def endClose (s : SSHServer) (j : Nat) (err : Option String) : Stepped :=
  match s.terminals[j]? with
  | some t =>
    if t.close = .closing ∧ (err = none → t.running = false) then
      { s.modifyTerminal j fun t => { t with close := .closed } with
        shellsFailure := match err with | some e => some e | none => s.shellsFailure }.quiet
    else none
  | none => none

end SSHServer

inductive SSHEvent
  | apply (next : SSHConfig)
  | close
  | cancelItems
  | ownCleanup
  | oldCleanup (i : Nat)
  | timeout
  | finish
  | enable
  | expire
  | serve (access : SSHAccess) (ctxLive : Bool)
  | unlist (i : Nat)
  | wgDone (i : Nat)
  | commandFailed (i : Nat) (err : String)
  | newTerminal (i : Nat) (name random : String) (opened : Bool) (oldest : Nat)
  | attach (i : Nat) (name : String)
  | detach (i j : Nat)
  | kill (i : Nat) (name : String)
  | killed (i j : Nat)
  | outputEnds (j time : Nat)
  | exits (j : Nat)
  | beginClose (j : Nat)
  | endClose (j : Nat) (err : Option String)
  deriving DecidableEq

def SSHServer.act (bcryptCost : String → Option Int) (s : SSHServer) : SSHEvent → Stepped
  | .apply next => s.Apply bcryptCost next
  | .close => s.Close
  | .cancelItems => s.cancelItems
  | .ownCleanup => s.ownCleanup
  | .oldCleanup i => s.oldCleanup i
  | .timeout => s.timeout
  | .finish => s.finish
  | .enable => s.enable
  | .expire => { s with expired := true }.quiet
  | .serve access ctxLive => s.ServeConn access ctxLive
  | .unlist i => s.unlist i
  | .wgDone i => s.wgDone i
  | .commandFailed i err => s.recordCommandCleanup i err
  | .newTerminal i name random opened oldest => s.newTerminal i name random opened oldest
  | .attach i name => s.attachTerminal i name
  | .detach i j => s.detachTerminal i j
  | .kill i name => s.killTerminal i name
  | .killed i j => s.killed i j
  | .outputEnds j time => s.outputEnds j time
  | .exits j => s.exits j
  | .beginClose j => s.beginClose j
  | .endClose j err => s.endClose j err

/-- The server, and what the last step returned to a caller of `Apply`. -/
def sshMachine (bcryptCost : String → Option Int) : Machine (SSHServer × Option ApplyReply) SSHEvent where
  step s e := s.1.act bcryptCost e

def newServer (binding : SSHBinding) : SSHServer × Option ApplyReply := ({ binding := binding }, none)

end Webshell
