import Webshell.Logs
import Webshell.ResizeScheduler

/-!
# No resize is lost

What has been asked for and not been settled is what the state in the map still
holds, and as long as it holds something its timer is armed.
-/

namespace Webshell

/-! ## One state -/

namespace ResizeState

/-- All that a settled `apply` would be called with. -/
def demand (state : ResizeState) : Option ResizeOptions := state.options true

def Armed (state : ResizeState) : Prop :=
  state.pendingOptions ≠ none ∨ state.settleOptions ≠ none → state.timer = true

/-- A state that has been taken out of the map. -/
structure Left (state : ResizeState) : Prop where
  pending : state.pendingOptions = none
  frame : state.frame = false
  timer : state.timer = false

theorem demand_eq_none {state : ResizeState} :
    state.demand = none ↔ state.pendingOptions = none ∧ state.settleOptions = none := by
  unfold demand options
  cases hs : state.settleOptions with
  | none => exact ⟨fun h => ⟨h, rfl⟩, fun h => h.1⟩
  | some settle => exact ⟨fun h => (by cases h), fun h => (by cases h.2)⟩

theorem demand_pending (state : ResizeState) (request : ResizeRequest) :
    { state with pendingOptions := some (mergeResizeOptions state.pendingOptions request) }.demand =
      some (mergeResizeOptions state.demand request) := by
  unfold demand options
  cases state.settleOptions with
  | none => rfl
  | some settle => exact congrArg some (merge_merge settle state.pendingOptions request)

theorem demand_start_settled (state : ResizeState) (options : ResizeOptions) (now : Rat) :
    (state.start true options now).demand = none := rfl

/-- An `apply` that is not settled hands over, and keeps what is still to settle. -/
theorem demand_start {state : ResizeState} {options : ResizeOptions} (h : state.options false = some options) (now : Rat) :
    (state.start false options now).demand = state.demand := by
  have hpending : state.pendingOptions = some options := h
  change some (mergeResizeOptions (some (mergeResizeOptions state.settleOptions options.request)) {}) = _
  rw [merge_nothing]
  unfold demand ResizeState.options
  cases state.settleOptions with
  | none => rw [hpending, merge_none, normalize_request]
  | some settle => rw [hpending, Option.map_some, Option.getD_some]

end ResizeState

/-! ## The invariant -/

structure ResizeInv (s : ResizeScheduler) (demand : Option ResizeOptions) : Prop where
  held : ∀ i, s.current = some i → ∃ state, s.states[i]? = some state ∧ state.demand = demand
  nothing : s.current = none → demand = none
  left : ∀ i state, s.states[i]? = some state → s.current ≠ some i → state.Left
  applying : ∀ i state, s.states[i]? = some state → state.applying = true → i ∈ s.calls

/-- The state in the map wakes up if there is something to do. -/
def ResizeArmed (s : ResizeScheduler) : Prop :=
  ∀ i state, s.current = some i → s.states[i]? = some state → state.Armed

section Put

variable {s : ResizeScheduler} {demand demand' : Option ResizeOptions} {i : Nat} {state state' : ResizeState}
  {calls : List Nat}

theorem getElem?_set_cases {states : List ResizeState} {j : Nat} (h : (states.set i state')[j]? = some state) :
    i = j ∧ state = state' ∨ i ≠ j ∧ states[j]? = some state := by
  rw [List.getElem?_set] at h
  split at h
  · rename_i heq
    split at h
    · exact .inl ⟨heq, (Option.some.inj h).symm⟩
    · cases h
  · rename_i hne
    exact .inr ⟨hne, h⟩

/-- The state in the map is changed. -/
theorem ResizeInv.put (h : ResizeInv s demand) (hc : s.current = some i) (hs : s.states[i]? = some state)
    (hd : state'.demand = demand') (ha : state'.applying = true → i ∈ calls) (hcalls : s.calls ⊆ calls) :
    ResizeInv { s.put i state' with calls := calls } demand' where
  held := by
    intro j hj
    cases hc.symm.trans hj
    refine ⟨state', ?_, hd⟩
    exact List.getElem?_set_self (List.getElem?_eq_some_iff.mp hs).1
  nothing hnone := by cases hc.symm.trans hnone
  left := by
    intro j other hj hne
    rcases getElem?_set_cases hj with ⟨rfl, -⟩ | ⟨-, hj⟩
    · exact absurd hc hne
    · exact h.left j other hj hne
  applying := by
    intro j other hj happlying
    rcases getElem?_set_cases hj with ⟨rfl, rfl⟩ | ⟨-, hj⟩
    · exact ha happlying
    · exact hcalls (h.applying j other hj happlying)

theorem ResizeArmed.put (hc : s.current = some i) (ha : state'.Armed) : ResizeArmed { s.put i state' with calls := calls } := by
  intro j other hj hs
  cases hc.symm.trans hj
  rcases getElem?_set_cases hs with ⟨-, rfl⟩ | ⟨hne, -⟩
  · exact ha
  · exact absurd rfl hne

/-- The innermost `apply` has ended. -/
theorem ResizeInv.applied (h : ResizeInv s demand) (hcalls : s.calls = i :: calls) (hs : s.states[i]? = some state) :
    ResizeInv (s.applied i calls state) demand where
  held := by
    intro j hj
    obtain ⟨other, hother, hd⟩ := h.held j hj
    by_cases he : i = j
    · subst he
      cases hs.symm.trans hother
      exact ⟨_, List.getElem?_set_self (List.getElem?_eq_some_iff.mp hs).1, hd⟩
    · exact ⟨other, (List.getElem?_set_ne he).trans hother, hd⟩
  nothing := h.nothing
  left := by
    intro j other hj hne
    rcases getElem?_set_cases hj with ⟨rfl, rfl⟩ | ⟨-, hj⟩
    · obtain ⟨hp, hf, ht⟩ := h.left _ _ hs hne
      exact ⟨hp, hf, ht⟩
    · exact h.left j other hj hne
  applying := by
    intro j other hj happlying
    rcases getElem?_set_cases hj with ⟨rfl, rfl⟩ | ⟨hne, hj⟩
    · cases happlying
    · have hmem := h.applying j other hj happlying
      rw [hcalls] at hmem
      exact (List.mem_cons.mp hmem).resolve_left fun he => hne he.symm

theorem ResizeArmed.applied (h : ResizeArmed s) (hs : s.states[i]? = some state) : ResizeArmed (s.applied i calls state) := by
  intro j other hj hother
  rcases getElem?_set_cases hother with ⟨rfl, rfl⟩ | ⟨-, hother⟩
  · exact fun hd => h i state hj hs hd
  · exact h j other hj hother

end Put

/-! ## Running -/

section Run

variable {s : ResizeScheduler} {demand : Option ResizeOptions} {settled : Bool} {now : Rat}

theorem run_cases (s : ResizeScheduler) (settled : Bool) (now : Rat) :
    (s.run settled now = (none, s) ∧ ∀ i state, s.current = some i → s.states[i]? = some state →
      state.applying = true ∨ state.options settled = none) ∨
    ∃ i state options, s.current = some i ∧ s.states[i]? = some state ∧ state.options settled = some options ∧
      s.run settled now = (some options, { s.put i (state.start settled options now) with calls := i :: s.calls }) := by
  unfold ResizeScheduler.run
  cases hc : s.current with
  | none => exact .inl ⟨rfl, fun i state hi => (by cases hi)⟩
  | some i =>
    cases hs : s.states[i]? with
    | none =>
      refine .inl ⟨by simp only [hs], fun j state hj hstate => ?_⟩
      cases hj
      cases hs.symm.trans hstate
    | some state =>
      simp only [hs]
      by_cases ha : state.applying = true
      · refine .inl ⟨if_pos ha, fun j other hj hother => ?_⟩
        cases hj
        cases hs.symm.trans hother
        exact .inl ha
      · rw [if_neg ha]
        cases ho : state.options settled with
        | none =>
          refine .inl ⟨rfl, fun j other hj hother => ?_⟩
          cases hj
          cases hs.symm.trans hother
          exact .inr ho
        | some options => exact .inr ⟨i, state, options, rfl, hs, ho, rfl⟩

/-- What is left to settle, once `run` has called `apply`. -/
def demandAfter (settled : Bool) (before applied : Option ResizeOptions) : Option ResizeOptions :=
  if settled = true ∧ applied.isSome then none else before

theorem ResizeInv.run (h : ResizeInv s demand) :
    ResizeInv (s.run settled now).2 (demandAfter settled demand (s.run settled now).1) := by
  rcases run_cases s settled now with ⟨heq, -⟩ | ⟨i, state, options, hc, hs, ho, heq⟩
  · rw [heq, demandAfter, if_neg (by simp)]
    exact h
  · rw [heq]
    obtain ⟨held, hheld, hd⟩ := h.held i hc
    cases hs.symm.trans hheld
    apply h.put hc hs
    · cases settled with
      | true => exact state.demand_start_settled options now
      | false => exact (ResizeState.demand_start ho now).trans hd
    · exact fun _ => List.mem_cons_self ..
    · exact List.subset_cons_self ..

/-- A settled `apply` is called with all that has been asked for. -/
theorem ResizeInv.run_settled (h : ResizeInv s demand) {options : ResizeOptions} (hr : (s.run true now).1 = some options) :
    demand = some options := by
  rcases run_cases s true now with ⟨heq, -⟩ | ⟨i, state, options', hc, hs, ho, heq⟩
  · rw [heq] at hr
    cases hr
  · rw [heq] at hr
    cases hr
    obtain ⟨held, hheld, hd⟩ := h.held i hc
    cases hs.symm.trans hheld
    exact hd.symm.trans ho

theorem ResizeArmed.run (h : ResizeArmed s) : ResizeArmed (s.run settled now).2 := by
  rcases run_cases s settled now with ⟨heq, -⟩ | ⟨i, state, options, hc, hs, ho, heq⟩
  · rw [heq]
    exact h
  · rw [heq]
    apply ResizeArmed.put hc
    cases settled with
    | true => exact fun hdemand => (hdemand.elim (absurd rfl) (absurd rfl))
    | false =>
      intro _
      have hpending : state.pendingOptions = some options := ho
      exact h i state hc hs (.inl (by rw [hpending]; exact Option.some_ne_none _))

/-- The timer may have been cleared, if the state in the map is not being applied. -/
theorem resizeArmed_run_settled (h : ∀ i state, s.current = some i → s.states[i]? = some state → state.applying = false) :
    ResizeArmed (s.run true now).2 := by
  rcases run_cases s true now with ⟨heq, hnone⟩ | ⟨i, state, options, hc, hs, -, heq⟩
  · rw [heq]
    intro i state hi hs hdemand
    rcases hnone i state hi hs with ha | hn
    · cases (h i state hi hs).symm.trans ha
    · obtain ⟨hpending, hsettle⟩ := ResizeState.demand_eq_none.mp hn
      rcases hdemand with hd | hd
      · exact absurd hpending hd
      · exact absurd hsettle hd
  · rw [heq]
    apply ResizeArmed.put hc
    exact fun hdemand => (hdemand.elim (absurd rfl) (absurd rfl))

end Run

/-! ## Scheduling -/

section Schedule

variable {s : ResizeScheduler} {demand : Option ResizeOptions} {now : Rat}

theorem ResizeInv.stateFor (h : ResizeInv s demand) (harmed : ResizeArmed s) :
    ResizeInv s.stateFor.2 demand ∧ ResizeArmed s.stateFor.2 ∧ s.stateFor.2.current = some s.stateFor.1 ∧
      s.stateFor.2.calls = s.calls := by
  unfold ResizeScheduler.stateFor
  cases hc : s.current with
  | some i => exact ⟨h, harmed, hc, rfl⟩
  | none =>
    have hnew {j : Nat} {state : ResizeState} (hs : (s.states ++ [({} : ResizeState)])[j]? = some state) :
        s.states[j]? = some state ∨ j = s.states.length ∧ state = ({} : ResizeState) := by
      rw [List.getElem?_append] at hs
      split at hs
      · exact .inl hs
      · rename_i hlt
        rcases List.getElem?_eq_some_iff.mp hs with ⟨hone, hval⟩
        rw [List.length_singleton] at hone
        refine .inr ⟨by omega, ?_⟩
        rw [← hval]
        exact List.getElem_singleton ..
    refine ⟨⟨fun j hj => ?_, fun hnone => (by cases hnone), fun j state hs hne => ?_, fun j state hs ha => ?_⟩, ?_, rfl, rfl⟩
    · cases hj
      refine ⟨{}, ?_, (h.nothing hc).symm⟩
      simp
    · rcases hnew hs with hs | ⟨rfl, -⟩
      · exact h.left j state hs (by rw [hc]; exact nofun)
      · exact absurd rfl hne
    · rcases hnew hs with hs | ⟨-, rfl⟩
      · exact h.applying j state hs ha
      · cases ha
    · intro j state hj hs hdemand
      rcases hnew hs with hs | ⟨-, rfl⟩
      · cases hj
        have hlt := (List.getElem?_eq_some_iff.mp hs).1
        omega
      · exact hdemand.elim (absurd rfl) (absurd rfl)

/-- A call of `schedule`, with what is asked for merged into the demand. -/
theorem ResizeInv.schedule (h : ResizeInv s demand) (harmed : ResizeArmed s) (request : ResizeRequest) (immediate : Bool)
    (now : Rat) : ResizeInv (s.schedule request immediate now).2
        (demandAfter true (some (mergeResizeOptions demand request)) (s.schedule request immediate now).1) ∧
      ResizeArmed (s.schedule request immediate now).2 ∧
      ∀ options, (s.schedule request immediate now).1 = some options →
        some (mergeResizeOptions demand request) = some options := by
  obtain ⟨hfor, hforArmed, hc, -⟩ := h.stateFor harmed
  obtain ⟨state, hs, hd⟩ := hfor.held _ hc
  have hpending : { state with pendingOptions := some (mergeResizeOptions state.pendingOptions request) }.demand =
      some (mergeResizeOptions demand request) := by
    rw [state.demand_pending request, hd]
  unfold ResizeScheduler.schedule
  simp only [hs]
  split
  · rename_i himmediate
    have hput := hfor.put hc hs hpending
      (fun ha => (by cases himmediate.2.symm.trans ha)) (List.Subset.refl _)
    refine ⟨hput.run, resizeArmed_run_settled fun j other hj hother => ?_, fun options => hput.run_settled⟩
    rcases getElem?_set_cases hother with ⟨-, rfl⟩ | ⟨hne, -⟩
    · exact himmediate.2
    · exact absurd (Option.some.inj (hc.symm.trans hj)) hne
  · refine ⟨?_, ResizeArmed.put hc fun _ => rfl, fun options ho => (by cases ho)⟩
    rw [demandAfter, if_neg (by simp)]
    exact hfor.put hc hs hpending (fun ha => hfor.applying _ state hs ha) (List.Subset.refl _)

theorem schedule_later (s : ResizeScheduler) (request : ResizeRequest) (now : Rat) : (s.schedule request false now).1 = none := by
  unfold ResizeScheduler.schedule
  cases hs : s.stateFor.2.states[s.stateFor.1]? with
  | none => simp only [hs]
  | some state => simp [hs]

/-- Only the state in the map has anything pending. -/
theorem ResizeInv.demand_of_pending (h : ResizeInv s demand) {i : Nat} {state : ResizeState} (hs : s.states[i]? = some state)
    (hp : state.pendingOptions.isSome = true) : ∃ o, demand = some o := by
  by_cases hc : s.current = some i
  · obtain ⟨held, hheld, rfl⟩ := h.held i hc
    cases hs.symm.trans hheld
    cases hd : state.demand with
    | none =>
      rw [(ResizeState.demand_eq_none.mp hd).1] at hp
      cases hp
    | some o => exact ⟨o, rfl⟩
  · rw [(h.left i state hs hc).pending] at hp
    cases hp

theorem ResizeInv.cancel (h : ResizeInv s demand) : ResizeInv s.cancel none ∧ ResizeArmed s.cancel := by
  unfold ResizeScheduler.cancel
  cases hc : s.current with
  | none =>
    refine ⟨⟨fun i hi => ?_, fun _ => rfl, h.left, h.applying⟩, fun i state hi => ?_⟩
    · cases hc.symm.trans hi
    · cases hc.symm.trans hi
  | some i =>
    obtain ⟨state, hs, -⟩ := h.held i hc
    simp only [hs]
    refine ⟨⟨fun j hj => (by cases hj), fun _ => rfl, fun j other hj _ => ?_, fun j other hj ha => ?_⟩,
      fun j other hj => (by cases hj)⟩
    · rcases getElem?_set_cases hj with ⟨-, rfl⟩ | ⟨hne, hj⟩
      · exact ⟨rfl, rfl, rfl⟩
      · exact h.left j other hj fun hj' => hne (Option.some.inj (hc.symm.trans hj'))
    · rcases getElem?_set_cases hj with ⟨rfl, rfl⟩ | ⟨-, hj⟩
      · exact h.applying _ _ hs ha
      · exact h.applying j other hj ha

/-- The state of a frame or a timer that fires is the one in the map, and it is not being applied. -/
theorem ResizeInv.fired (h : ResizeInv s demand) {i : Nat} {state : ResizeState} (hs : s.states[i]? = some state)
    (hf : state.frame = true ∨ state.timer = true) : s.current = some i := by
  apply Classical.byContradiction
  intro hne
  obtain ⟨-, hframe, htimer⟩ := h.left i state hs hne
  rcases hf with hf | hf
  · cases hframe.symm.trans hf
  · cases htimer.symm.trans hf

end Schedule

/-! ## All runs -/

theorem demandAfter_applied (settled : Bool) (before applied : Option ResizeOptions) :
    (applied.toList.map (ResizeMark.applied · settled)).foldl ResizeMark.demand before = demandAfter settled before applied := by
  cases applied with
  | none => cases settled <;> rfl
  | some options => cases settled <;> rfl

/-- A settled `apply` is called with what was asked for before it. -/
def ResizeMark.Meets (before : List ResizeMark) : ResizeMark → Prop
  | .applied options true => resizeDemand before = some options
  | _ => True

structure ResizeRun.Inv (r : ResizeRun) : Prop where
  inv : ResizeInv r.state (resizeDemand r.log)
  armed : ResizeArmed r.state
  marks : ∀ before mark after, r.log = before ++ mark :: after → mark.Meets before


theorem ResizeRun.Inv.silent {r : ResizeRun} (h : r.Inv) {s : ResizeScheduler} (hi : ResizeInv s (resizeDemand r.log))
    (harmed : ResizeArmed s) : (⟨s, r.log ++ []⟩ : ResizeRun).Inv := by
  rw [List.append_nil]
  exact ⟨hi, harmed, h.marks⟩

/-- `run` has called `apply`, or not. -/
theorem ResizeRun.Inv.ran {log : List ResizeMark} {s : ResizeScheduler} {applied : Option ResizeOptions} {settled : Bool}
    (hi : ResizeInv s (demandAfter settled (resizeDemand log) applied)) (harmed : ResizeArmed s)
    (hmarks : ∀ before mark after, log = before ++ mark :: after → mark.Meets before)
    (happlied : settled = true → ∀ options, applied = some options → resizeDemand log = some options) :
    (⟨s, log ++ applied.toList.map (.applied · settled)⟩ : ResizeRun).Inv where
  inv := by
    rw [resizeDemand_append, demandAfter_applied]
    exact hi
  armed := harmed
  marks := by
    cases applied with
    | none =>
      rw [Option.toList_none, List.map_nil, List.append_nil]
      exact hmarks
    | some options =>
      apply Log.concat hmarks
      cases settled with
      | true => exact happlied rfl options rfl
      | false => trivial

theorem resizeMachine_step {r r' : ResizeRun} {e : ResizeEvent} (h : r.Inv) (hs : resizeMachine.step r e = some r') :
    r'.Inv := by
  obtain ⟨⟨marks, s⟩, hn, rfl⟩ := Option.map_eq_some_iff.mp hs
  cases e with
  | schedule options immediate now =>
    cases hn
    obtain ⟨hi, harmed, happlied⟩ := h.inv.schedule h.armed options immediate now
    have hdemand : resizeDemand (r.log ++ [.requested options]) = some (mergeResizeOptions (resizeDemand r.log) options) :=
      resizeDemand_append ..
    rw [← hdemand] at hi happlied
    rw [List.append_cons]
    exact ResizeRun.Inv.ran hi harmed (Log.concat h.marks trivial) fun _ => happlied
  | flush now =>
    cases hn
    exact ResizeRun.Inv.ran h.inv.run h.armed.run h.marks fun _ _ => h.inv.run_settled
  | cancel =>
    cases hn
    obtain ⟨hi, harmed⟩ := h.inv.cancel
    refine ⟨?_, harmed, Log.concat h.marks trivial⟩
    rw [resizeDemand_append]
    exact hi
  | frameFired i now =>
    rw [ResizeScheduler.next] at hn
    cases hstate : r.state.states[i]? with
    | none =>
      rw [hstate] at hn
      cases hn
    | some state =>
      simp only [hstate] at hn
      split at hn
      · rename_i hfires
        cases hn
        have hc := h.inv.fired hstate (.inl hfires.2)
        obtain ⟨held, hheld, hd⟩ := h.inv.held i hc
        cases hstate.symm.trans hheld
        have hput : ResizeInv (r.state.put i { state with frame := false }) (resizeDemand r.log) :=
          h.inv.put hc hstate hd (fun ha => h.inv.applying _ state hstate ha) (List.Subset.refl _)
        have harmed : ResizeArmed (r.state.put i { state with frame := false }) :=
          ResizeArmed.put hc fun hdemand => h.armed i state hc hstate hdemand
        exact ResizeRun.Inv.ran hput.run harmed.run h.marks fun hsettled => by cases hsettled
      · cases hn
  | timerFired i now =>
    rw [ResizeScheduler.next] at hn
    cases hstate : r.state.states[i]? with
    | none =>
      rw [hstate] at hn
      cases hn
    | some state =>
      simp only [hstate] at hn
      split at hn
      · rename_i hfires
        cases hn
        have hc := h.inv.fired hstate (.inr hfires.2)
        obtain ⟨held, hheld, hd⟩ := h.inv.held i hc
        cases hstate.symm.trans hheld
        have hput : ResizeInv (r.state.put i { state with timer := false }) (resizeDemand r.log) :=
          h.inv.put hc hstate hd (fun ha => h.inv.applying _ state hstate ha) (List.Subset.refl _)
        apply ResizeRun.Inv.ran hput.run (resizeArmed_run_settled fun j other hj hother => ?_) h.marks
          fun _ _ => hput.run_settled
        -- Nothing is being applied when a timer fires.
        apply Bool.eq_false_iff.mpr
        intro ha
        have hmem := hput.applying j other hother ha
        rw [show (r.state.put i { state with timer := false }).calls = [] from hfires.1] at hmem
        exact absurd hmem List.not_mem_nil
      · cases hn
  | returned now =>
    rw [ResizeScheduler.next] at hn
    cases hcalls : r.state.calls with
    | nil =>
      rw [hcalls] at hn
      cases hn
    | cons i calls =>
      simp only [hcalls] at hn
      cases hstate : r.state.states[i]? with
      | none =>
        rw [hstate] at hn
        cases hn
      | some state =>
        simp only [hstate] at hn
        have hi := h.inv.applied hcalls hstate
        have harmed : ResizeArmed (r.state.applied i calls state) := h.armed.applied hstate
        split at hn
        · rename_i hpending
          cases hn
          obtain ⟨hi', harmed', -⟩ := hi.schedule harmed {} false now
          apply h.silent _ harmed'
          obtain ⟨o, ho⟩ := h.inv.demand_of_pending hstate hpending
          rw [schedule_later, ho, merge_nothing] at hi'
          rw [ho]
          exact hi'
        · cases hn
          exact h.silent hi harmed
  | threw =>
    rw [ResizeScheduler.next] at hn
    cases hcalls : r.state.calls with
    | nil =>
      rw [hcalls] at hn
      cases hn
    | cons i calls =>
      simp only [hcalls] at hn
      obtain ⟨state, hstate, heq⟩ := Option.map_eq_some_iff.mp hn
      cases heq
      exact h.silent (h.inv.applied hcalls hstate) (h.armed.applied hstate)

theorem ResizeRun.start_inv (throttleMs : Rat) : (⟨{ throttleMs := throttleMs }, []⟩ : ResizeRun).Inv where
  inv := by
    refine ⟨fun i hi => ?_, fun _ => rfl, fun i state hs => ?_, fun i state hs => ?_⟩
    · cases hi
    · cases hs
    · cases hs
  armed := fun i state hi => by cases hi
  marks before mark after heq := absurd heq.symm (List.append_ne_nil_of_right_ne_nil _ (List.cons_ne_nil _ _))

/-- **No resize is lost.** While anything is to be applied or to settle, the timer is armed; what has been asked for
since the last settled `apply` and the last cancel is still held, and is in what the next settled `apply` gets. -/
theorem resize_scheduler {throttleMs : Rat} {events : List ResizeEvent} {r : ResizeRun}
    (h : resizeMachine.run ⟨{ throttleMs := throttleMs }, []⟩ events = some r) :
    (∀ i state, r.state.current = some i → r.state.states[i]? = some state → state.Armed) ∧
      (∀ before request marks, r.log = before ++ .requested request :: marks → (∀ mark ∈ marks, mark.Leaves) →
        ∃ i state o, r.state.current = some i ∧ r.state.states[i]? = some state ∧ state.timer = true ∧
          state.demand = some o ∧ o.Includes (normalizeResizeOptions request)) ∧
      ∀ before request marks options after,
        r.log = before ++ .requested request :: (marks ++ .applied options true :: after) →
        (∀ mark ∈ marks, mark.Leaves) → options.Includes (normalizeResizeOptions request) := by
  obtain ⟨hinv, harmed, hmarks⟩ := resizeMachine.run_inv (I := ResizeRun.Inv) (fun _ _ _ => resizeMachine_step) h
    (ResizeRun.start_inv throttleMs)
  refine ⟨harmed, fun before request marks hlog hleaves => ?_, fun before request marks options after hlog hleaves => ?_⟩
  · obtain ⟨o, ho, hincludes⟩ := resizeDemand_includes before request hleaves
    rw [← hlog] at ho
    cases hc : r.state.current with
    | none => cases (hinv.nothing hc).symm.trans ho
    | some i =>
      obtain ⟨state, hs, hd⟩ := hinv.held i hc
      rw [ho] at hd
      refine ⟨i, state, o, rfl, hs, harmed i state hc hs ?_, hd, hincludes⟩
      apply Classical.byContradiction
      intro hnone
      obtain ⟨hp, hsettle⟩ := not_or.mp hnone
      cases (ResizeState.demand_eq_none.mpr ⟨not_not.mp hp, not_not.mp hsettle⟩).symm.trans hd
  · have hmeets := hmarks (before ++ .requested request :: marks) (.applied options true) after (by rw [hlog]; simp)
    obtain ⟨o, ho, hincludes⟩ := resizeDemand_includes before request hleaves
    cases ho.symm.trans hmeets
    exact hincludes

/-- A cancel and a new request while `apply` runs, a throw, and a frame before the timer. -/
theorem resize_scheduler_reentered :
    ∃ r, resizeMachine.run ⟨{ throttleMs := 80 }, []⟩ [.schedule { forceSizeSync := some true } false 0, .frameFired 0 1,
        .schedule { claimSize := some true } true 2, .cancel, .schedule { visibleOnly := some false } true 3, .threw,
        .returned 4, .schedule { hideUntilRender := some true } false 90, .frameFired 1 100,
        .schedule { forceFullRender := some true } false 101, .returned 102, .timerFired 1 300] = some r ∧
      ResizeOptions.Includes ⟨true, true, true, false, false⟩ (normalizeResizeOptions { hideUntilRender := some true }) := by
  have hrun : (resizeMachine.run ⟨{ throttleMs := 80 }, []⟩ [.schedule { forceSizeSync := some true } false 0,
      .frameFired 0 1, .schedule { claimSize := some true } true 2, .cancel,
      .schedule { visibleOnly := some false } true 3, .threw, .returned 4,
      .schedule { hideUntilRender := some true } false 90, .frameFired 1 100,
      .schedule { forceFullRender := some true } false 101, .returned 102, .timerFired 1 300]).map ResizeRun.log =
      some ([.requested { forceSizeSync := some true }, .applied ⟨true, false, false, true, false⟩ false,
        .requested { claimSize := some true }, .cancelled, .requested { visibleOnly := some false },
        .applied ⟨false, false, false, false, false⟩ true] ++ .requested { hideUntilRender := some true } ::
        ([.applied ⟨true, false, true, false, false⟩ false, .requested { forceFullRender := some true }] ++
          .applied ⟨true, true, true, false, false⟩ true :: [])) := by
    decide +kernel
  obtain ⟨r, hr, hlog⟩ := Option.map_eq_some_iff.mp hrun
  refine ⟨r, hr, (resize_scheduler hr).2.2 _ _ _ _ [] hlog fun mark hm => ?_⟩
  rcases List.mem_cons.mp hm with rfl | hm
  · exact rfl
  · cases List.mem_singleton.mp hm
    trivial

end Webshell
