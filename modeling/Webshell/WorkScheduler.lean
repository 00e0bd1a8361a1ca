import Webshell.Machine
import Webshell.OrderedMap
import Mathlib.Algebra.Order.Ring.Unbundled.Rat

/-!
# The page's work scheduler

One budget for the work of a whole page. A pump is called by a frame or by a
timer and gives every task that is due at most one turn; a task's callback may
call the scheduler again. What runs is split at every call a callback makes.
-/

namespace Webshell

/-- Each call of `schedule` makes a task of its own, told apart by its version. -/
structure WorkTask (ω κ : Type) where
  version : Nat
  owner : ω
  key : κ
  queuedAt : Rat
  sequence : Nat
  dueAt : Rat
  deriving DecidableEq

/-- A callback that runs, or `onError` after one has thrown. -/
inductive WorkCall
  /-- Run by `measure`, as a task's or by `runNow`; the outermost one is timed. -/
  | measured (task outer : Bool)
  | reporting
  deriving DecidableEq

/-- The maps of the owners are one map; an owner is in it as long as it has a task. -/
structure WorkScheduler (ω κ : Type) [DecidableEq ω] [DecidableEq κ] where
  owners : OrderedMap (ω × κ) (WorkTask ω κ) := ∅
  frame : Bool := false
  timer : Bool := false
  spent : Rat := 0
  running : Nat := 0
  runStartedAt : Rat := 0
  sequence : Nat := 0
  disposed : Bool := false
  versions : Nat := 0
  /-- The tasks a pump still walks over, while one is called. -/
  pump : Option (List (WorkTask ω κ)) := none
  /-- The callbacks that run, the innermost one first. -/
  calls : List WorkCall := []

namespace WorkScheduler

variable {ω κ : Type} [DecidableEq ω] [DecidableEq κ]

def budgetMs : Rat := 8

def clearWake (s : WorkScheduler ω κ) : WorkScheduler ω κ := { s with frame := false, timer := false }

def remainingMs (s : WorkScheduler ω κ) (now : Rat) : Rat :=
  max 0 (budgetMs - s.spent - (if 0 < s.running then now - s.runStartedAt else 0))

/-- `measure`, up to the call of the callback. -/
def measure (s : WorkScheduler ω κ) (task : Bool) (now : Rat) : WorkScheduler ω κ :=
  let outer := s.running = 0
  { s with
    running := s.running + 1
    runStartedAt := if outer then now else s.runStartedAt
    calls := .measured task outer :: s.calls }

/-- `measure`, when its callback has returned or thrown. -/
def measured (s : WorkScheduler ω κ) (outer : Bool) (now : Rat) : WorkScheduler ω κ :=
  { s with
    running := s.running - 1
    spent := if outer then s.spent + max 0 (now - s.runStartedAt) else s.spent }

def arm (s : WorkScheduler ω κ) : WorkScheduler ω κ :=
  if s.disposed = true ∨ s.frame = true ∨ s.timer = true then s else { s with frame := true, timer := true }

def cancel (s : WorkScheduler ω κ) (owner : ω) (key : κ) : Bool × WorkScheduler ω κ :=
  (s.owners.has (owner, key), { s with owners := s.owners.delete (owner, key) })

def cancelOwner (s : WorkScheduler ω κ) (owner : ω) : WorkScheduler ω κ :=
  { s with owners := s.owners.retain fun task => task.owner ≠ owner }

/-- No owner and no function are refused. `queued` and `due` are the readings of the clock. -/
def schedule (s : WorkScheduler ω κ) (owner : Option ω) (key : κ) (callback : Bool) (delayMs queued due : Rat) :
    Bool × WorkScheduler ω κ :=
  match owner with
  | none => (false, s)
  | some owner =>
    if s.disposed = true ∨ callback = false then (false, s)
    else
      let previous := s.owners.get (owner, key)
      let task : WorkTask ω κ := {
        version := s.versions, owner := owner, key := key
        queuedAt := (previous.map WorkTask.queuedAt).getD queued
        sequence := (previous.map WorkTask.sequence).getD s.sequence
        dueAt := due + max 0 delayMs }
      (true, arm { s with
        owners := s.owners.set (owner, key) task
        sequence := if previous.isSome then s.sequence else s.sequence + 1
        versions := s.versions + 1 })

def runNow (s : WorkScheduler ω κ) (remaining started : Rat) : WorkScheduler ω κ :=
  if s.disposed = true ∨ s.remainingMs remaining ≤ 0 then s.arm else s.arm.measure false started

def dispose (s : WorkScheduler ω κ) : WorkScheduler ω κ :=
  { s.clearWake with disposed := true, owners := ∅ }

def due (s : WorkScheduler ω κ) (now : Rat) : List (WorkTask ω κ) := s.owners.values.filter fun task => task.dueAt ≤ now

/-- A pump, up to its loop. The tasks are sorted by what their priority functions answer while they are
compared: `ready` is any order of the tasks that are due. -/
def startPump (s : WorkScheduler ω κ) (ready : List (WorkTask ω κ)) : WorkScheduler ω κ :=
  if s.disposed = true then s.clearWake else { s.clearWake with spent := 0, pump := some ready }

def endPump (s : WorkScheduler ω κ) : WorkScheduler ω κ :=
  let s := { s with pump := none }
  if s.owners.size ≠ 0 then s.arm else s

/-- The loop at the next task that is ready: whether it runs, or none when the loop ends. -/
def nextTask (s : WorkScheduler ω κ) (remaining started : Rat) : List (WorkTask ω κ) → Option Bool × WorkScheduler ω κ
  | [] => (none, s.endPump)
  | task :: ready =>
    if s.disposed = true ∨ s.remainingMs remaining ≤ 0 then (none, s.endPump)
    else if s.owners.get (task.owner, task.key) ≠ some task then (some false, { s with pump := some ready })
    else (some true, ({ (s.cancel task.owner task.key).2 with pump := some ready }).measure true started)

end WorkScheduler

/-! ## What arming leaves alone -/

namespace WorkScheduler

section Arm

variable {ω κ : Type} [DecidableEq ω] [DecidableEq κ] (s : WorkScheduler ω κ)

@[simp] theorem arm_owners : s.arm.owners = s.owners := by unfold arm; split <;> rfl
@[simp] theorem arm_versions : s.arm.versions = s.versions := by unfold arm; split <;> rfl
@[simp] theorem arm_running : s.arm.running = s.running := by unfold arm; split <;> rfl
@[simp] theorem arm_calls : s.arm.calls = s.calls := by unfold arm; split <;> rfl
@[simp] theorem arm_pump : s.arm.pump = s.pump := by unfold arm; split <;> rfl
@[simp] theorem arm_disposed : s.arm.disposed = s.disposed := by unfold arm; split <;> rfl

theorem arm_armed (h : s.disposed = false) : s.arm.frame = true ∨ s.arm.timer = true := by
  unfold arm
  split
  · rename_i harmed
    rcases harmed with hd | hf
    · rw [h] at hd
      cases hd
    · exact hf
  · exact .inl rfl

end Arm

end WorkScheduler

/-! ## All orders of calls -/

inductive WorkEvent (ω κ : Type)
  | schedule (owner : Option ω) (key : κ) (callback : Bool) (delayMs queued due : Rat)
  | cancel (owner : ω) (key : κ)
  | cancelOwner (owner : ω)
  | runNow (remaining started : Rat)
  | dispose
  /-- The innermost callback returns or throws; `onError` is called for a task's callback that throws. -/
  | returned (now : Rat) (reports : Bool)
  /-- The frame or the timer calls the pump. -/
  | frameFired (now : Rat) (ready : List (WorkTask ω κ))
  | timerFired (now : Rat) (ready : List (WorkTask ω κ))
  | next (remaining started : Rat)

namespace WorkScheduler

variable {ω κ : Type} [DecidableEq ω] [DecidableEq κ]

/-- Nothing runs. -/
def Idle (s : WorkScheduler ω κ) : Prop := s.pump = none ∧ s.calls = []

instance (s : WorkScheduler ω κ) : Decidable s.Idle := inferInstanceAs (Decidable (s.pump = none ∧ s.calls = []))

/-- Code that is not the scheduler's can run. -/
def Open (s : WorkScheduler ω κ) : Prop := s.pump = none ∨ s.calls ≠ []

instance (s : WorkScheduler ω κ) : Decidable s.Open := inferInstanceAs (Decidable (s.pump = none ∨ s.calls ≠ []))

def fire (s : WorkScheduler ω κ) (armed : Bool) (now : Rat) (ready : List (WorkTask ω κ)) : Option (WorkScheduler ω κ) :=
  if s.Idle ∧ armed = true ∧ ready.Perm (s.due now) then some (s.startPump ready) else none

def next (s : WorkScheduler ω κ) : WorkEvent ω κ → Option (WorkScheduler ω κ)
  | .schedule owner key callback delayMs queued due =>
    if s.Open then some (s.schedule owner key callback delayMs queued due).2 else none
  | .cancel owner key => if s.Open then some (s.cancel owner key).2 else none
  | .cancelOwner owner => if s.Open then some (s.cancelOwner owner) else none
  | .runNow remaining started => if s.Open then some (s.runNow remaining started) else none
  | .dispose => if s.Open then some s.dispose else none
  | .returned now reports =>
    match s.calls with
    | [] => none
    | .measured task outer :: calls =>
      some { s.measured outer now with calls := if task = true ∧ reports = true then .reporting :: calls else calls }
    | .reporting :: calls => some { s with calls := calls }
  | .frameFired now ready => s.fire s.frame now ready
  | .timerFired now ready => s.fire s.timer now ready
  | .next remaining started =>
    match s.pump with
    | some ready => if s.calls = [] then some (s.nextTask remaining started ready).2 else none
    | none => none

end WorkScheduler

end Webshell
