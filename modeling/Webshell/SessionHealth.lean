import Mathlib.Logic.Function.Basic
import Webshell.Machine

/-!
# The health of the sessions

What a session owes is watched, not whether it is silent. An obligation that
does not advance from check to check makes the session fail, a failure is
answered by a recovery a while later, and after so many of them the session is
left alone until it is connected anew.
-/

namespace Webshell

/-! ## State -/

/-- What the controller is told of a session when it looks at it. -/
structure SessionView where
  closed : Bool := false
  exitExpected : Bool := false
  connectionEpoch : Nat := 0
  committed : Bool := true
  renderReady : Bool := true
  /-- A frame is shown, and it is of the replay that is current. -/
  presented : Bool := true
  /-- `term.wasmTerm.failed`. -/
  backendFailed : Bool := false
  recoveryProgress : String := ""
  /-- The progress of what is pending, if something is. -/
  output : Option String := none
  resize : Option String := none

def SessionView.recoveryIsPresented (v : SessionView) : Bool := v.committed && v.renderReady && v.presented

inductive ObligationKey
  | output
  | resize
  deriving DecidableEq

structure ObligationMark where
  progress : String
  since : Nat

structure HealthState where
  /-- Which object this is; a session that is disposed of gets another one. -/
  id : Nat
  epoch : Nat
  attempts : Nat := 0
  /-- The reason that the pending recovery has. -/
  timer : Option String := none
  stableAt : Nat
  marks : ObligationKey → Option ObligationMark := fun _ => none
  recovering : Bool := false
  recoveryProgress : String := ""
  recoveryProgressAt : Nat
  exhausted : Bool := false

/-- What is kept of a run. -/
inductive HealthEntry
  /-- The session's attempts are counted from here. -/
  | reset (session : Nat)
  /-- What was seen so far does not count any more. -/
  | cleared (session : Nat)
  | seen (session : Nat) (key : ObligationKey) (time : Nat) (progress : Option String)
  | stalled (session : Nat) (key : ObligationKey) (time : Nat)
  | report (session : Nat) (reason : String) (exhausted : Bool)
  | recover (session : Nat) (reason : String)
  deriving DecidableEq

structure HealthController where
  states : Nat → Option HealthState := fun _ => none
  nextID : Nat := 0
  disposed : Bool := false
  lastCheckAt : Nat := 0
  now : Nat := 0
  /-- The calls of `recover` that have not returned, the last one first. -/
  calls : List (Nat × Nat) := []
  log : List HealthEntry := []

structure HealthLimits where
  stalledMs : Nat := 12000
  retryLimit : Nat := 3

namespace HealthController

/-! ## The functions -/

def note (c : HealthController) (entry : HealthEntry) : HealthController := { c with log := c.log ++ [entry] }

def put (c : HealthController) (session : Nat) (state : HealthState) : HealthController :=
  { c with states := Function.update c.states session (some state) }

def stateFor (c : HealthController) (session : Nat) (v : SessionView) : HealthController × HealthState :=
  match c.states session with
  | some state => (c, state)
  | none =>
    let state : HealthState := { id := c.nextID, epoch := v.connectionEpoch, stableAt := c.now, recoveryProgressAt := c.now }
    (({ c with nextID := c.nextID + 1 }.put session state).note (.reset session), state)

variable (limits : HealthLimits)

/-- `fail`, for a session with a state. -/
def failState (c : HealthController) (session : Nat) (v : SessionView) (reason : String) (state : HealthState) : HealthController :=
  let state := { state with stableAt := c.now }
  if state.timer ≠ none ∨ state.exhausted = true then c.put session state
  else if state.recovering = true ∧ v.backendFailed = false then c.put session state
  else
    let state := { state with recovering := false, attempts := state.attempts + 1 }
    if limits.retryLimit < state.attempts then
      (c.put session { state with exhausted := true }).note (.report session reason true)
    else (c.put session { state with timer := some reason }).note (.report session reason false)

def fail (c : HealthController) (session : Nat) (v : SessionView) (reason : String) : HealthController :=
  if c.disposed = true ∨ v.closed = true ∨ v.exitExpected = true then c
  else
    let (c, state) := c.stateFor session v
    c.failState limits session v reason state

/-- The timer of a session goes off. -/
def timerFires (c : HealthController) (session : Nat) (v : SessionView) (reason : String) (state : HealthState) : HealthController :=
  let state := { state with timer := none }
  if c.disposed = true ∨ v.closed = true ∨ v.exitExpected = true then c.put session state
  else
    let state := { state with marks := fun _ => none, recovering := true, recoveryProgress := "", recoveryProgressAt := c.now }
    let c := { c.put session state with calls := (session, state.id) :: c.calls }
    (c.note (.cleared session)).note (.recover session reason)

/-- `recover` returns, having refused or thrown if there is a text. -/
def recoverReturns (c : HealthController) (session id : Nat) (v : SessionView) (failure : Option String) : HealthController :=
  match failure with
  | none => c
  | some reason =>
    let c := match c.states session with
      | some state => if state.id = id then c.put session { state with recovering := false } else c
      | none => c
    c.fail limits session v reason

def settled (state : HealthState) (time : Nat) : HealthState :=
  { state with marks := fun _ => none, stableAt := time }

def completeRecovery (c : HealthController) (session : Nat) (v : SessionView) : HealthController :=
  match c.states session with
  | none => c
  | some state =>
    if state.recovering = false ∨ v.recoveryIsPresented = false then c
    else (c.put session (settled { state with recovering := false } c.now)).note (.cleared session)

/-- `inspect`; whether the obligation has not advanced for too long. -/
def inspect (state : HealthState) (key : ObligationKey) (pending : Option String) (now : Nat) : HealthState × Bool :=
  match pending with
  | none => ({ state with marks := Function.update state.marks key none }, false)
  | some progress =>
    let state := { state with stableAt := now }
    let mark : ObligationMark := { progress := progress, since := now }
    match state.marks key with
    | none => ({ state with marks := Function.update state.marks key (some mark) }, false)
    | some held =>
      if held.progress ≠ progress then ({ state with marks := Function.update state.marks key (some mark) }, false)
      else (state, limits.stalledMs ≤ now - held.since)

/-- The obligations of a session that is neither recovering nor to be recovered. -/
def checkObligations (c : HealthController) (session : Nat) (v : SessionView) (state : HealthState) : HealthController :=
  if v.committed = false ∨ state.timer ≠ none ∨ state.exhausted = true then c.put session { state with stableAt := c.now }
  else
    let (state, outputStalled) := inspect limits state .output v.output c.now
    let c := c.note (.seen session .output c.now v.output)
    let (state, resizeStalled) := inspect limits state .resize v.resize c.now
    let c := (c.note (.seen session .resize c.now v.resize)).put session state
    if outputStalled = true then
      (c.note (.stalled session .output c.now)).fail limits session v "terminal output stopped advancing"
    else if resizeStalled = true then
      (c.note (.stalled session .resize c.now)).fail limits session v "terminal resize stopped advancing"
    else if (state.marks .output).isNone ∧ (state.marks .resize).isNone ∧ v.renderReady = true ∧ 30000 ≤ c.now - state.stableAt then
      (c.put session { state with attempts := 0 }).note (.reset session)
    else c

/-- A session that is recovering. -/
def checkRecovery (c : HealthController) (session : Nat) (v : SessionView) (state : HealthState) : HealthController :=
  if state.recovering = true ∧ state.timer = none ∧ state.exhausted = false then
    if v.recoveryIsPresented = true then
      (c.note (.cleared session)).checkObligations limits session v (settled { state with recovering := false } c.now)
    else if v.recoveryProgress ≠ state.recoveryProgress then
      c.put session { state with recoveryProgress := v.recoveryProgress, recoveryProgressAt := c.now }
    else if limits.stalledMs ≤ c.now - state.recoveryProgressAt then
      (c.put session { state with recovering := false }).fail limits session v "terminal recovery stopped advancing"
    else c.put session state
  else c.checkObligations limits session v state

def checkState (c : HealthController) (resumed online : Bool) (session : Nat) (v : SessionView) (state : HealthState) :
    HealthController :=
  if resumed = true ∨ online = false then
    (c.put session { settled state c.now with recoveryProgressAt := c.now }).note (.cleared session)
  else if state.epoch ≠ v.connectionEpoch then
    let c := c.note (.cleared session)
    let state := settled { state with epoch := v.connectionEpoch } c.now
    if state.exhausted = true then
      (c.note (.reset session)).checkRecovery limits session v { state with exhausted := false, attempts := 0 }
    else c.checkRecovery limits session v state
  else c.checkRecovery limits session v state

def checkSession (resumed online : Bool) (c : HealthController) (seen : Nat × SessionView) : HealthController :=
  if seen.2.closed = true ∨ seen.2.exitExpected = true then c
  else
    let (c, state) := c.stateFor seen.1 seen.2
    c.checkState limits resumed online seen.1 seen.2 state

def check (c : HealthController) (online : Bool) (sessions : List (Nat × SessionView)) : HealthController :=
  if c.disposed = true then c
  else
    let resumed : Bool := limits.stalledMs < c.now - c.lastCheckAt
    sessions.foldl (checkSession limits resumed online) { c with lastCheckAt := c.now }

def disposeSession (c : HealthController) (session : Nat) : HealthController :=
  { c with states := Function.update c.states session none }

def dispose (c : HealthController) : HealthController := { c with disposed := true, states := fun _ => none }

end HealthController

/-! ## Runs -/

inductive HealthEvent
  | tick (now : Nat)
  | fail (session : Nat) (v : SessionView) (reason : String)
  | timer (session : Nat) (v : SessionView)
  | recoverReturns (v : SessionView) (failure : Option String)
  | completeRecovery (session : Nat) (v : SessionView)
  | check (online : Bool) (sessions : List (Nat × SessionView))
  | disposeSession (session : Nat)
  | dispose

/-- What `recover` does before it returns, calls of the controller included, comes before its return. -/
def healthMachine (limits : HealthLimits) : Machine HealthController HealthEvent where
  step c
    | .tick now => if c.now ≤ now then some { c with now := now } else none
    | .fail session v reason => some (c.fail limits session v reason)
    | .timer session v =>
      match c.states session with
      | none => none
      | some state => state.timer.map fun reason => c.timerFires session v reason state
    | .recoverReturns v failure =>
      match c.calls with
      | [] => none
      | (session, id) :: calls => some ({ c with calls := calls }.recoverReturns limits session id v failure)
    | .completeRecovery session v => some (c.completeRecovery session v)
    | .check online sessions => some (c.check limits online sessions)
    | .disposeSession session => some (c.disposeSession session)
    | .dispose => some c.dispose

end Webshell
