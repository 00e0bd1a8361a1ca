import Webshell.Machine

/-!
# The resize scheduler

Resize requests of one terminal are merged and applied: by a frame at once, and
by a timer when they have settled. `apply` may call the scheduler again.
-/

namespace Webshell

structure ResizeOptions where
  visibleOnly : Bool
  forceFullRender : Bool
  hideUntilRender : Bool
  forceSizeSync : Bool
  claimSize : Bool
  deriving DecidableEq

/-- Options as they are asked for. A field that is not a boolean is as one that is not there. -/
structure ResizeRequest where
  visibleOnly : Option Bool := none
  forceFullRender : Option Bool := none
  hideUntilRender : Option Bool := none
  forceSizeSync : Option Bool := none
  claimSize : Option Bool := none
  deriving DecidableEq

def normalizeResizeOptions (options : ResizeRequest) : ResizeOptions where
  visibleOnly := options.visibleOnly ≠ some false
  forceFullRender := options.forceFullRender = some true
  hideUntilRender := options.hideUntilRender = some true
  forceSizeSync := options.forceSizeSync = some true
  claimSize := options.claimSize = some true

def mergeResizeOptions (current : Option ResizeOptions) (next : ResizeRequest) : ResizeOptions :=
  let normalized := normalizeResizeOptions next
  match current with
  | none => normalized
  | some current => {
    visibleOnly := current.visibleOnly && normalized.visibleOnly
    forceFullRender := current.forceFullRender || normalized.forceFullRender
    hideUntilRender := current.hideUntilRender || normalized.hideUntilRender
    forceSizeSync := current.forceSizeSync || normalized.forceSizeSync
    claimSize := current.claimSize || normalized.claimSize }

namespace ResizeOptions

/-- Options that are merged into others. -/
def request (o : ResizeOptions) : ResizeRequest where
  visibleOnly := some o.visibleOnly
  forceFullRender := some o.forceFullRender
  hideUntilRender := some o.hideUntilRender
  forceSizeSync := some o.forceSizeSync
  claimSize := some o.claimSize

/-- What `r` asks for is in `o`. -/
structure Includes (o r : ResizeOptions) : Prop where
  visibleOnly : r.visibleOnly = false → o.visibleOnly = false
  forceFullRender : r.forceFullRender = true → o.forceFullRender = true
  hideUntilRender : r.hideUntilRender = true → o.hideUntilRender = true
  forceSizeSync : r.forceSizeSync = true → o.forceSizeSync = true
  claimSize : r.claimSize = true → o.claimSize = true

end ResizeOptions

structure ResizeState where
  pendingOptions : Option ResizeOptions := none
  settleOptions : Option ResizeOptions := none
  frame : Bool := false
  timer : Bool := false
  /-- None stands for minus infinity. -/
  lastAppliedAt : Option Rat := none
  applying : Bool := false
  deriving DecidableEq

namespace ResizeState

def clearScheduledHandles (state : ResizeState) : ResizeState := { state with frame := false, timer := false }

/-- What `run` applies. -/
def options (state : ResizeState) (settled : Bool) : Option ResizeOptions :=
  match settled, state.settleOptions with
  | true, some settle => some (mergeResizeOptions (some settle) ((state.pendingOptions.map ResizeOptions.request).getD {}))
  | _, _ => state.pendingOptions

/-- `run`, up to the call of `apply`. -/
def start (state : ResizeState) (settled : Bool) (options : ResizeOptions) (now : Rat) : ResizeState :=
  let state := if settled = true then state.clearScheduledHandles else { state with frame := false }
  { state with
    pendingOptions := none
    settleOptions := if settled = true then none else some (mergeResizeOptions state.settleOptions options.request)
    applying := true
    lastAppliedAt := some now }

end ResizeState

/-- One target. Its states are all that were ever made for it, as a call of `run` keeps the one it began with. -/
structure ResizeScheduler where
  throttleMs : Rat
  states : List ResizeState := []
  /-- The state in the map. -/
  current : Option Nat := none
  /-- The calls of `apply` that run, the innermost one first, by their states. -/
  calls : List Nat := []

namespace ResizeScheduler

def stateFor (s : ResizeScheduler) : Nat × ResizeScheduler :=
  match s.current with
  | some i => (i, s)
  | none => (s.states.length, { s with states := s.states ++ [{}], current := some s.states.length })

def put (s : ResizeScheduler) (i : Nat) (state : ResizeState) : ResizeScheduler := { s with states := s.states.set i state }

/-- With what `apply` is called, if it is. -/
def run (s : ResizeScheduler) (settled : Bool) (now : Rat) : Option ResizeOptions × ResizeScheduler :=
  match s.current with
  | none => (none, s)
  | some i =>
    match s.states[i]? with
    | none => (none, s)
    | some state =>
      if state.applying = true then (none, s)
      else match state.options settled with
        | none => (none, s)
        | some options => (some options, { s.put i (state.start settled options now) with calls := i :: s.calls })

/-- With what `apply` is called, if it is, as a settled one. -/
def schedule (s : ResizeScheduler) (options : ResizeRequest) (immediate : Bool) (now : Rat) :
    Option ResizeOptions × ResizeScheduler :=
  let i := s.stateFor.1
  let s := s.stateFor.2
  match s.states[i]? with
  | none => (none, s)
  | some state =>
    let state := { state with pendingOptions := some (mergeResizeOptions state.pendingOptions options) }
    if immediate = true ∧ state.applying = false then (s.put i state).run true now
    else
      let elapsed := ∀ last, state.lastAppliedAt = some last → s.throttleMs ≤ now - last
      let frame := state.frame || (!state.applying && decide elapsed)
      (none, s.put i { state with frame := frame, timer := true })

/-- The end of `run`: `apply` has returned, or thrown. -/
def applied (s : ResizeScheduler) (i : Nat) (calls : List Nat) (state : ResizeState) : ResizeScheduler :=
  { s.put i { state with applying := false } with calls := calls }

def cancel (s : ResizeScheduler) : ResizeScheduler :=
  match s.current with
  | none => s
  | some i =>
    match s.states[i]? with
    | none => s
    | some state =>
      { s.put i { state.clearScheduledHandles with pendingOptions := none, settleOptions := none } with current := none }

end ResizeScheduler

/-! ## All orders of calls -/

inductive ResizeEvent
  | schedule (options : ResizeRequest) (immediate : Bool) (now : Rat)
  | flush (now : Rat)
  | cancel
  | frameFired (i : Nat) (now : Rat)
  | timerFired (i : Nat) (now : Rat)
  /-- The innermost `apply` returns, or throws. -/
  | returned (now : Rat)
  | threw

/-- What is asked for, and what is done about it. -/
inductive ResizeMark
  | requested (options : ResizeRequest)
  | applied (options : ResizeOptions) (settled : Bool)
  | cancelled
  deriving DecidableEq

namespace ResizeScheduler

def next (s : ResizeScheduler) : ResizeEvent → Option (List ResizeMark × ResizeScheduler)
  | .schedule options immediate now =>
    let r := s.schedule options immediate now
    some (.requested options :: r.1.toList.map (.applied · true), r.2)
  | .flush now => some ((s.run true now).1.toList.map (.applied · true), (s.run true now).2)
  | .cancel => some ([.cancelled], s.cancel)
  | .frameFired i now =>
    match s.states[i]? with
    | none => none
    | some state =>
      if s.calls = [] ∧ state.frame = true then
        let r := (s.put i { state with frame := false }).run false now
        some (r.1.toList.map (.applied · false), r.2)
      else none
  | .timerFired i now =>
    match s.states[i]? with
    | none => none
    | some state =>
      if s.calls = [] ∧ state.timer = true then
        let r := (s.put i { state with timer := false }).run true now
        some (r.1.toList.map (.applied · true), r.2)
      else none
  | .returned now =>
    match s.calls with
    | [] => none
    | i :: calls =>
      match s.states[i]? with
      | none => none
      | some state =>
        let s := s.applied i calls state
        some ([], if state.pendingOptions.isSome then (s.schedule {} false now).2 else s)
  | .threw =>
    match s.calls with
    | [] => none
    | i :: calls => (s.states[i]?).map fun state => ([], s.applied i calls state)

end ResizeScheduler

structure ResizeRun where
  state : ResizeScheduler
  log : List ResizeMark := []

def resizeMachine : Machine ResizeRun ResizeEvent where
  step r e := (r.state.next e).map fun n => ⟨n.2, r.log ++ n.1⟩

/-- What has been asked for since the last settled `apply` and the last cancel, merged. -/
def ResizeMark.demand (before : Option ResizeOptions) : ResizeMark → Option ResizeOptions
  | .requested options => some (mergeResizeOptions before options)
  | .applied _ true => none
  | .applied _ false => before
  | .cancelled => none

def resizeDemand (log : List ResizeMark) : Option ResizeOptions := log.foldl ResizeMark.demand none

/-- Neither a settled `apply` nor a cancel. -/
def ResizeMark.Leaves : ResizeMark → Prop
  | .requested _ => True
  | .applied _ settled => settled = false
  | .cancelled => False

/-! ## Merging -/

theorem normalize_request (o : ResizeOptions) : normalizeResizeOptions o.request = o := by
  obtain ⟨v, f, d, z, c⟩ := o
  simp [normalizeResizeOptions, ResizeOptions.request]

theorem merge_none (r : ResizeRequest) : mergeResizeOptions none r = normalizeResizeOptions r := rfl

theorem merge_nothing (o : ResizeOptions) : mergeResizeOptions (some o) {} = o := by
  obtain ⟨v, f, d, z, c⟩ := o
  simp [mergeResizeOptions, normalizeResizeOptions]

theorem merge_merge (o : ResizeOptions) (before : Option ResizeOptions) (r : ResizeRequest) :
    mergeResizeOptions (some o) (mergeResizeOptions before r).request =
      mergeResizeOptions (some (mergeResizeOptions (some o) ((before.map ResizeOptions.request).getD {}))) r := by
  cases before with
  | none =>
    rw [merge_none, Option.map_none, Option.getD_none, merge_nothing]
    simp only [mergeResizeOptions, normalize_request]
  | some before =>
    simp only [mergeResizeOptions, normalize_request, Option.map_some, Option.getD_some, Bool.and_assoc, Bool.or_assoc]

namespace ResizeOptions.Includes

theorem refl (o : ResizeOptions) : o.Includes o := ⟨id, id, id, id, id⟩

theorem trans {o p q : ResizeOptions} (h : o.Includes p) (h' : p.Includes q) : o.Includes q where
  visibleOnly := h.visibleOnly ∘ h'.visibleOnly
  forceFullRender := h.forceFullRender ∘ h'.forceFullRender
  hideUntilRender := h.hideUntilRender ∘ h'.hideUntilRender
  forceSizeSync := h.forceSizeSync ∘ h'.forceSizeSync
  claimSize := h.claimSize ∘ h'.claimSize

theorem merge_left (o : ResizeOptions) (r : ResizeRequest) : (mergeResizeOptions (some o) r).Includes o := by
  constructor <;> simp +contextual [mergeResizeOptions]

theorem merge_right (before : Option ResizeOptions) (r : ResizeRequest) :
    (mergeResizeOptions before r).Includes (normalizeResizeOptions r) := by
  cases before with
  | none => exact refl _
  | some o => constructor <;> simp +contextual [mergeResizeOptions]

end ResizeOptions.Includes

/-! ## Demand -/

theorem resizeDemand_append (log marks : List ResizeMark) :
    resizeDemand (log ++ marks) = marks.foldl ResizeMark.demand (resizeDemand log) := List.foldl_append

/-- Nothing that is asked for gets lost before a settled `apply` or a cancel. -/
theorem foldl_demand {marks : List ResizeMark} (hm : ∀ mark ∈ marks, mark.Leaves) {q : ResizeOptions} :
    ∀ {before : Option ResizeOptions}, (∃ o, before = some o ∧ o.Includes q) →
      ∃ o, marks.foldl ResizeMark.demand before = some o ∧ o.Includes q := by
  induction marks with
  | nil => exact id
  | cons mark marks ih =>
    intro before hb
    rw [List.foldl_cons]
    apply ih (fun m hmem => hm m (List.mem_cons_of_mem _ hmem))
    have hmark := hm mark (List.mem_cons_self ..)
    cases mark with
    | requested options =>
      obtain ⟨o, rfl, ho⟩ := hb
      exact ⟨_, rfl, (ResizeOptions.Includes.merge_left o options).trans ho⟩
    | applied options settled =>
      cases settled with
      | false => exact hb
      | true => cases hmark
    | cancelled => exact hmark.elim

theorem resizeDemand_includes (log : List ResizeMark) (request : ResizeRequest) {marks : List ResizeMark}
    (hm : ∀ mark ∈ marks, mark.Leaves) :
    ∃ o, resizeDemand (log ++ .requested request :: marks) = some o ∧ o.Includes (normalizeResizeOptions request) := by
  rw [resizeDemand_append, List.foldl_cons]
  exact foldl_demand hm ⟨_, rfl, ResizeOptions.Includes.merge_right _ request⟩

end Webshell
