import Webshell.Logs
import Webshell.WorkScheduler

/-!
# What the scheduler runs

A log of what is scheduled, cancelled and run. Which version of a task is the
latest one is read off the log; the scheduler's map is compared with it.
-/

namespace Webshell

variable {ω κ : Type} [DecidableEq ω] [DecidableEq κ]

inductive WorkMark (ω κ : Type)
  | scheduled (version : Nat) (owner : ω) (key : κ)
  | cancelled (owner : ω) (key : κ)
  | cancelledOwner (owner : ω)
  | disposed
  /-- A pump has found these tasks due. -/
  | began (due : List (WorkTask ω κ))
  | ran (task : WorkTask ω κ)
  | ended

structure WorkRun (ω κ : Type) [DecidableEq ω] [DecidableEq κ] where
  state : WorkScheduler ω κ := {}
  log : List (WorkMark ω κ) := []

/-- What an event does to the state before it. -/
def workMarks (s : WorkScheduler ω κ) : WorkEvent ω κ → List (WorkMark ω κ)
  | .schedule owner key callback delayMs queued due =>
    if (s.schedule owner key callback delayMs queued due).1 = true then
      owner.toList.map fun owner => .scheduled s.versions owner key
    else []
  | .cancel owner key => [.cancelled owner key]
  | .cancelOwner owner => [.cancelledOwner owner]
  | .dispose => [.disposed]
  | .frameFired now _ | .timerFired now _ => if s.disposed = true then [] else [.began (s.due now)]
  | .next remaining started =>
    match s.pump with
    | none => []
    | some ready =>
      match (s.nextTask remaining started ready).1 with
      | none => [.ended]
      | some true => ready.head?.toList.map .ran
      | some false => []
  | .runNow .. | .returned .. => []

def workMachine : Machine (WorkRun ω κ) (WorkEvent ω κ) where
  step r e := (r.state.next e).map fun s => ⟨s, r.log ++ workMarks r.state e⟩

namespace WorkMark

/-- The latest version of a task, after a mark. -/
def latest (owner : ω) (key : κ) (before : Option Nat) : WorkMark ω κ → Option Nat
  | .scheduled version o k => if o = owner ∧ k = key then some version else before
  | .cancelled o k => if o = owner ∧ k = key then none else before
  | .cancelledOwner o => if o = owner then none else before
  | .disposed => none
  | .ran task => if task.owner = owner ∧ task.key = key then none else before
  | _ => before

def scheduledVersion : WorkMark ω κ → Option Nat
  | .scheduled version _ _ => some version
  | _ => none

def ranVersion : WorkMark ω κ → Option Nat
  | .ran task => some task.version
  | _ => none

def isBegan : WorkMark ω κ → Bool
  | .began _ => true
  | _ => false

end WorkMark

/-- The version that is scheduled and neither cancelled nor run, if there is one. -/
def latestVersion (log : List (WorkMark ω κ)) (owner : ω) (key : κ) : Option Nat :=
  log.foldl (WorkMark.latest owner key) none

def scheduledVersions (log : List (WorkMark ω κ)) : List Nat := log.filterMap WorkMark.scheduledVersion

def ranVersions (log : List (WorkMark ω κ)) : List Nat := log.filterMap WorkMark.ranVersion

/-- The log since the last pump began. -/
structure SincePump (log before : List (WorkMark ω κ)) (due : List (WorkTask ω κ)) (since : List (WorkMark ω κ)) : Prop where
  log : log = before ++ .began due :: since
  last : ∀ mark ∈ since, mark.isBegan = false

/-- What may stand in the log behind `before`. -/
def WorkMark.Allowed (before : List (WorkMark ω κ)) : WorkMark ω κ → Prop
  | .ran task => latestVersion before task.owner task.key = some task.version ∧ task.version ∉ ranVersions before ∧
      ∃ earlier due since, SincePump before earlier due since ∧ task.version ∈ scheduledVersions earlier
  | .ended => ∃ earlier due since, SincePump before earlier due since ∧ (due ≠ [] → ∃ task, .ran task ∈ since)
  | _ => True

/-! ## Logs -/

section Logs

variable {log before since : List (WorkMark ω κ)} {due : List (WorkTask ω κ)} {mark : WorkMark ω κ}

theorem latestVersion_concat (log : List (WorkMark ω κ)) (mark : WorkMark ω κ) (owner : ω) (key : κ) :
    latestVersion (log ++ [mark]) owner key = mark.latest owner key (latestVersion log owner key) := by
  unfold latestVersion
  rw [List.foldl_append]
  rfl

omit [DecidableEq ω] [DecidableEq κ] in
theorem scheduledVersions_concat (log : List (WorkMark ω κ)) (mark : WorkMark ω κ) :
    scheduledVersions (log ++ [mark]) = scheduledVersions log ++ mark.scheduledVersion.toList := by
  unfold scheduledVersions
  rw [List.filterMap_append]
  cases h : mark.scheduledVersion <;> simp [h]

omit [DecidableEq ω] [DecidableEq κ] in
theorem ranVersions_concat (log : List (WorkMark ω κ)) (mark : WorkMark ω κ) :
    ranVersions (log ++ [mark]) = ranVersions log ++ mark.ranVersion.toList := by
  unfold ranVersions
  rw [List.filterMap_append]
  cases h : mark.ranVersion <;> simp [h]

omit [DecidableEq ω] [DecidableEq κ] in
theorem SincePump.concat (h : SincePump log before due since) (hm : mark.isBegan = false) :
    SincePump (log ++ [mark]) before due (since ++ [mark]) where
  log := by rw [h.log, List.append_assoc]; rfl
  last := by
    intro m hmem
    rcases List.mem_append.mp hmem with hmem | hmem
    · exact h.last m hmem
    · cases List.mem_singleton.mp hmem
      exact hm

end Logs

/-! ## The invariant -/

/-- A pump under way: its tasks were scheduled before it began, and one has run if one was due. -/
def PumpRan (log : List (WorkMark ω κ)) (ready : List (WorkTask ω κ)) : Prop :=
  ∃ before due since, SincePump log before due since ∧ (∀ task ∈ ready, task.version ∈ scheduledVersions before) ∧
    (due ≠ [] → ∃ task, .ran task ∈ since)

/-- A pump that has just begun: everything that is due is there, and nothing of the budget is spent. -/
structure PumpFresh (s : WorkScheduler ω κ) (log : List (WorkMark ω κ)) (ready : List (WorkTask ω κ)) : Prop where
  calls : s.calls = []
  spent : s.spent = 0
  alive : s.disposed = false
  there : ∀ task ∈ ready, s.owners.get (task.owner, task.key) = some task
  began : ∃ before due, SincePump log before due [] ∧ ready.Perm due ∧ ∀ task ∈ ready, task.version ∈ scheduledVersions before

def WorkCall.isMeasured : WorkCall → Bool
  | .measured .. => true
  | .reporting => false

/-- A task in the map. -/
structure TaskKept (log : List (WorkMark ω κ)) (owner : ω) (key : κ) (task : WorkTask ω κ) : Prop where
  owner : task.owner = owner
  key : task.key = key
  scheduled : task.version ∈ scheduledVersions log
  waits : task.version ∉ ranVersions log

/-- The map holds the latest versions of the log. -/
structure OwnersInv (owners : OrderedMap (ω × κ) (WorkTask ω κ)) (versions : Nat) (log : List (WorkMark ω κ)) : Prop where
  latest : ∀ owner key, (owners.get (owner, key)).map WorkTask.version = latestVersion log owner key
  kept : ∀ owner key task, owners.get (owner, key) = some task → TaskKept log owner key task
  scheduled : ∀ version ∈ scheduledVersions log, version < versions
  ran : ∀ version ∈ ranVersions log, version < versions
  distinct : ∀ owner key task owner' key' task', owners.get (owner, key) = some task →
    owners.get (owner', key') = some task' → task.version = task'.version → task = task'

structure WorkInv (s : WorkScheduler ω κ) (log : List (WorkMark ω κ)) : Prop where
  owners : OwnersInv s.owners s.versions log
  running : s.running = s.calls.countP WorkCall.isMeasured
  armed : s.owners.size ≠ 0 → s.disposed = false → s.pump = none → s.frame = true ∨ s.timer = true
  pump : ∀ ready, s.pump = some ready → PumpRan log ready ∨ PumpFresh s log ready
  marks : ∀ before mark after, log = before ++ mark :: after → mark.Allowed before

/-! ## The map -/

section Owners

variable {owners owners' : OrderedMap (ω × κ) (WorkTask ω κ)} {versions : Nat} {log : List (WorkMark ω κ)}
  {mark : WorkMark ω κ}

theorem OwnersInv.set (h : OwnersInv owners versions log) {owner : ω} {key : κ} {task : WorkTask ω κ}
    (ho : task.owner = owner) (hk : task.key = key) (hv : task.version = versions) :
    OwnersInv (owners.set (owner, key) task) (versions + 1) (log ++ [.scheduled versions owner key]) := by
  have hscheduled : scheduledVersions (log ++ [.scheduled versions owner key]) = scheduledVersions log ++ [versions] :=
    scheduledVersions_concat ..
  have hran : ranVersions (log ++ [.scheduled versions owner key]) = ranVersions log :=
    (ranVersions_concat ..).trans (List.append_nil _)
  have hnew {o : ω} {k : κ} {t : WorkTask ω κ} (hg : owners.get (o, k) = some t) : t.version < versions :=
    h.scheduled _ (h.kept o k t hg).scheduled
  have hget (o : ω) (k : κ) : (owners.set (owner, key) task).get (o, k) =
      if owner = o ∧ key = k then some task else owners.get (o, k) := by
    split
    · rename_i heq
      rw [heq.1, heq.2, OrderedMap.get_set]
    · rename_i hne
      apply OrderedMap.get_set_of_ne
      intro heq
      exact hne ⟨(congrArg Prod.fst heq).symm, (congrArg Prod.snd heq).symm⟩
  refine ⟨fun o k => ?_, fun o k t hg => ?_, fun v hv' => ?_, fun v hv' => ?_, fun o k t o' k' t' hg hg' heq => ?_⟩
  · rw [hget, latestVersion_concat, ← h.latest]
    change _ = if owner = o ∧ key = k then some versions else _
    by_cases hsame : owner = o ∧ key = k
    · rw [if_pos hsame, if_pos hsame, Option.map_some, hv]
    · rw [if_neg hsame, if_neg hsame]
  · rw [hget] at hg
    split at hg
    · rename_i heq
      cases hg
      refine ⟨ho.trans heq.1, hk.trans heq.2, by rw [hscheduled, hv]; simp, ?_⟩
      rw [hran, hv]
      exact fun hm => Nat.lt_irrefl _ (h.ran _ hm)
    · obtain ⟨hto, htk, hts, htw⟩ := h.kept o k t hg
      exact ⟨hto, htk, by rw [hscheduled]; exact List.mem_append_left _ hts, by rw [hran]; exact htw⟩
  · rw [hscheduled] at hv'
    rcases List.mem_append.mp hv' with hm | hm
    · exact Nat.lt_succ_of_lt (h.scheduled v hm)
    · cases List.mem_singleton.mp hm
      exact Nat.lt_succ_self _
  · rw [hran] at hv'
    exact Nat.lt_succ_of_lt (h.ran v hv')
  · rw [hget] at hg hg'
    split at hg
    · cases hg
      split at hg'
      · exact Option.some.inj hg'
      · have := hnew hg'
        omega
    · split at hg'
      · cases hg'
        have := hnew hg
        omega
      · exact h.distinct o k t o' k' t' hg hg' heq

/-- Tasks are taken out, and the mark says which. -/
theorem OwnersInv.remove (h : OwnersInv owners versions log)
    (hget : ∀ o k, owners'.get (o, k) = none ∧ (∀ before, mark.latest o k before = none) ∨
      owners'.get (o, k) = owners.get (o, k) ∧ ∀ before, mark.latest o k before = before)
    (hs : mark.scheduledVersion = none)
    (hr : ∀ v, mark.ranVersion = some v → v < versions ∧ ∀ o k t, owners'.get (o, k) = some t → t.version ≠ v) :
    OwnersInv owners' versions (log ++ [mark]) := by
  have hscheduled : scheduledVersions (log ++ [mark]) = scheduledVersions log := by
    rw [scheduledVersions_concat, hs]
    exact List.append_nil _
  have hsub {o : ω} {k : κ} {t : WorkTask ω κ} (hg : owners'.get (o, k) = some t) : owners.get (o, k) = some t := by
    rcases hget o k with ⟨hnone, -⟩ | ⟨hsame, -⟩
    · cases hnone.symm.trans hg
    · exact hsame ▸ hg
  have hran {v : Nat} (hv : v ∈ ranVersions (log ++ [mark])) : v ∈ ranVersions log ∨ mark.ranVersion = some v := by
    rw [ranVersions_concat] at hv
    exact (List.mem_append.mp hv).imp_right Option.mem_toList.mp
  refine ⟨fun o k => ?_, fun o k t hg => ?_, fun v hv => ?_, fun v hv => ?_, fun o k t o' k' t' hg hg' heq => ?_⟩
  · rw [latestVersion_concat, ← h.latest]
    rcases hget o k with ⟨hnone, hlatest⟩ | ⟨hsame, hlatest⟩
    · rw [hnone, hlatest]
      rfl
    · rw [hsame, hlatest]
  · obtain ⟨hto, htk, hts, htw⟩ := h.kept o k t (hsub hg)
    refine ⟨hto, htk, by rw [hscheduled]; exact hts, fun hm => ?_⟩
    rcases hran hm with hm | hm
    · exact htw hm
    · exact (hr _ hm).2 o k t hg rfl
  · rw [hscheduled] at hv
    exact h.scheduled v hv
  · rcases hran hv with hm | hm
    · exact h.ran v hm
    · exact (hr v hm).1
  · exact h.distinct o k t o' k' t' (hsub hg) (hsub hg') heq

end Owners

/-! ## The steps -/

section Steps

variable {s s' : WorkScheduler ω κ} {log : List (WorkMark ω κ)} {mark : WorkMark ω κ} {ready : List (WorkTask ω κ)}

omit [DecidableEq ω] [DecidableEq κ] in
theorem PumpRan.concat (h : PumpRan log ready) (hm : mark.isBegan = false) : PumpRan (log ++ [mark]) ready := by
  obtain ⟨before, due, since, hs, hready, hran⟩ := h
  refine ⟨before, due, since ++ [mark], hs.concat hm, hready, fun hd => ?_⟩
  obtain ⟨task, hmem⟩ := hran hd
  exact ⟨task, List.mem_append_left _ hmem⟩

/-- What is not the scheduler's runs during a pump only once a task has. -/
theorem WorkInv.pumpRan (h : WorkInv s log) (ho : s.Open) (hp : s.pump = some ready) : PumpRan log ready := by
  rcases h.pump ready hp with hran | hfresh
  · exact hran
  · rcases ho with hnone | hcalls
    · cases hnone.symm.trans hp
    · exact absurd hfresh.calls hcalls

/-- A call that changes neither the log nor the map. -/
theorem WorkInv.quiet (h : WorkInv s log) (ho : s.Open) (howners : s'.owners = s.owners)
    (hversions : s'.versions = s.versions) (hrunning : s'.running = s'.calls.countP WorkCall.isMeasured)
    (hpump : s'.pump = s.pump)
    (harmed : s.owners.size ≠ 0 → s'.disposed = false → s.pump = none → s'.frame = true ∨ s'.timer = true) :
    WorkInv s' log where
  owners := by
    rw [howners, hversions]
    exact h.owners
  running := hrunning
  armed := by
    rw [howners, hpump]
    exact harmed
  pump := by
    intro ready hp
    rw [hpump] at hp
    exact .inl (h.pumpRan ho hp)
  marks := h.marks

/-- A call that leaves a mark. -/
theorem WorkInv.marked (h : WorkInv s log) (ho : s.Open) (howners : OwnersInv s'.owners s'.versions (log ++ [mark]))
    (hrunning : s'.running = s.running) (hcalls : s'.calls = s.calls) (hpump : s'.pump = s.pump)
    (harmed : s'.owners.size ≠ 0 → s'.disposed = false → s.pump = none → s'.frame = true ∨ s'.timer = true)
    (hm : mark.isBegan = false) (hallowed : mark.Allowed log) : WorkInv s' (log ++ [mark]) where
  owners := howners
  running := by
    rw [hrunning, hcalls]
    exact h.running
  armed := by
    rw [hpump]
    exact harmed
  pump := by
    intro ready hp
    rw [hpump] at hp
    exact .inl ((h.pumpRan ho hp).concat hm)
  marks := Log.concat h.marks hallowed

theorem WorkInv.schedule (h : WorkInv s log) (ho : s.Open) (owner : Option ω) (key : κ) (callback : Bool)
    (delayMs queued due : Rat) :
    WorkInv (s.schedule owner key callback delayMs queued due).2
      (log ++ workMarks s (.schedule owner key callback delayMs queued due)) := by
  cases owner with
  | none =>
    change WorkInv s (log ++ [])
    rw [List.append_nil]
    exact h
  | some owner =>
    by_cases hrefused : s.disposed = true ∨ callback = false
    · have heq : s.schedule (some owner) key callback delayMs queued due = (false, s) := by
        rw [WorkScheduler.schedule, if_pos hrefused]
      simp only [workMarks, heq, Bool.false_eq_true, if_false, List.append_nil]
      exact h
    · simp only [workMarks, WorkScheduler.schedule, if_neg hrefused, if_true, Option.toList_some, List.map_cons, List.map_nil]
      apply h.marked ho
      · simp only [WorkScheduler.arm_owners, WorkScheduler.arm_versions]
        exact h.owners.set rfl rfl rfl
      · exact WorkScheduler.arm_running _
      · exact WorkScheduler.arm_calls _
      · exact WorkScheduler.arm_pump _
      · intro _ hdisposed _
        exact WorkScheduler.arm_armed _ ((WorkScheduler.arm_disposed _).symm.trans hdisposed)
      · rfl
      · trivial

theorem OwnersInv.delete {owners : OrderedMap (ω × κ) (WorkTask ω κ)} {versions : Nat} {owner : ω} {key : κ}
    (h : OwnersInv owners versions log)
    (hlatest : ∀ o k before, mark.latest o k before = if owner = o ∧ key = k then none else before)
    (hs : mark.scheduledVersion = none)
    (hr : ∀ v, mark.ranVersion = some v → ∃ task, owners.get (owner, key) = some task ∧ task.version = v) :
    OwnersInv (owners.delete (owner, key)) versions (log ++ [mark]) := by
  have hpair (o : ω) (k : κ) : (o, k) = (owner, key) ↔ owner = o ∧ key = k := by
    rw [Prod.mk.injEq]
    exact ⟨fun he => ⟨he.1.symm, he.2.symm⟩, fun he => ⟨he.1.symm, he.2.symm⟩⟩
  apply h.remove
  · intro o k
    by_cases hsame : owner = o ∧ key = k
    · refine .inl ⟨?_, fun before => ?_⟩
      · rw [OrderedMap.get_delete, if_pos ((hpair o k).mpr hsame)]
      · rw [hlatest, if_pos hsame]
    · refine .inr ⟨?_, fun before => ?_⟩
      · rw [OrderedMap.get_delete, if_neg (mt (hpair o k).mp hsame)]
      · rw [hlatest, if_neg hsame]
  · exact hs
  · intro v hv
    obtain ⟨task, hg, rfl⟩ := hr v hv
    refine ⟨h.scheduled _ (h.kept _ _ _ hg).scheduled, fun o k t ht heq => ?_⟩
    rw [OrderedMap.get_delete] at ht
    split at ht
    · cases ht
    · rename_i hne
      have hkept := h.kept _ _ _ ht
      cases h.distinct _ _ _ _ _ _ ht hg heq
      have hold := h.kept _ _ _ hg
      apply hne
      rw [← hkept.owner, ← hkept.key, hold.owner, hold.key]

theorem WorkInv.cancel (h : WorkInv s log) (ho : s.Open) (owner : ω) (key : κ) :
    WorkInv (s.cancel owner key).2 (log ++ [.cancelled owner key]) := by
  apply h.marked ho
  · apply h.owners.delete (fun _ _ _ => rfl) rfl
    intro v hv
    cases hv
  · rfl
  · rfl
  · rfl
  · intro hsize hdisposed
    refine h.armed (fun hzero => hsize ?_) hdisposed
    have hle := s.owners.size_delete_le (owner, key)
    change (s.owners.delete (owner, key)).size = 0
    omega
  · rfl
  · trivial

theorem WorkInv.cancelOwner (h : WorkInv s log) (ho : s.Open) (owner : ω) :
    WorkInv (s.cancelOwner owner) (log ++ [.cancelledOwner owner]) := by
  apply h.marked ho
  · apply h.owners.remove
    · intro o k
      unfold WorkScheduler.cancelOwner
      rw [OrderedMap.get_retain]
      cases hg : s.owners.get (o, k) with
      | none =>
        by_cases hsame : owner = o
        · exact .inl ⟨rfl, fun before => if_pos hsame⟩
        · exact .inr ⟨rfl, fun before => if_neg hsame⟩
      | some task =>
        have hto := (h.owners.kept o k task hg).owner
        by_cases hsame : owner = o
        · exact .inl ⟨by simp [hto, hsame], fun before => if_pos hsame⟩
        · exact .inr ⟨by simp [hto, Ne.symm hsame], fun before => if_neg hsame⟩
    · rfl
    · intro v hv
      cases hv
  · rfl
  · rfl
  · rfl
  · intro hsize hdisposed
    refine h.armed (fun hzero => hsize ?_) hdisposed
    have hle := s.owners.size_retain_le fun task => task.owner ≠ owner
    change (s.owners.retain fun task => task.owner ≠ owner).size = 0
    omega
  · rfl
  · trivial

theorem WorkInv.dispose (h : WorkInv s log) (ho : s.Open) : WorkInv s.dispose (log ++ [.disposed]) := by
  apply h.marked ho
  · apply h.owners.remove
    · intro o k
      exact .inl ⟨rfl, fun _ => rfl⟩
    · rfl
    · intro v hv
      cases hv
  · rfl
  · rfl
  · rfl
  · intro hsize
    exact absurd rfl hsize
  · rfl
  · trivial

theorem WorkInv.arm (h : WorkInv s log) (ho : s.Open) : WorkInv s.arm log := by
  apply h.quiet ho
  · exact s.arm_owners
  · exact s.arm_versions
  · rw [s.arm_running, s.arm_calls]
    exact h.running
  · exact s.arm_pump
  · intro _ hdisposed _
    exact s.arm_armed (s.arm_disposed.symm.trans hdisposed)

theorem WorkInv.runNow (h : WorkInv s log) (ho : s.Open) (remaining started : Rat) :
    WorkInv (s.runNow remaining started) log := by
  have harm := h.arm ho
  have hopen : s.arm.Open := by
    unfold WorkScheduler.Open
    rw [s.arm_pump, s.arm_calls]
    exact ho
  unfold WorkScheduler.runNow
  split
  · exact harm
  · apply harm.quiet hopen
    · rfl
    · rfl
    · change s.arm.running + 1 = _
      rw [harm.running]
      exact (List.countP_cons_of_pos rfl).symm
    · rfl
    · exact harm.armed

theorem WorkInv.returned (h : WorkInv s log) {now : Rat} {reports : Bool}
    (hn : s.next (.returned now reports) = some s') : WorkInv s' log := by
  have hrunning := h.running
  rw [WorkScheduler.next] at hn
  cases hcalls : s.calls with
  | nil =>
    rw [hcalls] at hn
    cases hn
  | cons call calls =>
    have hopen : s.Open := .inr (by rw [hcalls]; exact List.cons_ne_nil _ _)
    rw [hcalls] at hn hrunning
    cases call with
    | measured task outer =>
      cases hn
      apply h.quiet hopen
      · rfl
      · rfl
      · rw [List.countP_cons_of_pos rfl] at hrunning
        change s.running - 1 = _
        rw [hrunning, Nat.add_sub_cancel]
        split
        · exact (List.countP_cons_of_neg (by decide)).symm
        · rfl
      · rfl
      · exact h.armed
    | reporting =>
      cases hn
      apply h.quiet hopen
      · rfl
      · rfl
      · rw [List.countP_cons_of_neg (by decide)] at hrunning
        exact hrunning
      · rfl
      · exact h.armed

/-! ## The pump -/

theorem WorkInv.startPump (h : WorkInv s log) (hi : s.Idle) {now : Rat} (hr : ready.Perm (s.due now)) :
    WorkInv (s.startPump ready) (log ++ if s.disposed = true then [] else [.began (s.due now)]) := by
  unfold WorkScheduler.startPump
  by_cases hdisposed : s.disposed = true
  · rw [if_pos hdisposed, if_pos hdisposed, List.append_nil]
    apply h.quiet (.inl hi.1)
    · rfl
    · rfl
    · exact h.running
    · rfl
    · intro _ halive
      cases hdisposed.symm.trans halive
  · rw [if_neg hdisposed, if_neg hdisposed]
    have hthere {task : WorkTask ω κ} (hm : task ∈ ready) : s.owners.get (task.owner, task.key) = some task := by
      obtain ⟨⟨⟨owner, key⟩, _⟩, he, rfl⟩ := List.mem_map.mp (List.mem_filter.mp (hr.mem_iff.mp hm)).1
      have hg := s.owners.get_of_mem he
      have hkept := h.owners.kept _ _ _ hg
      rw [hkept.owner, hkept.key]
      exact hg
    refine ⟨?_, h.running, fun _ _ hp => (by cases hp), fun tasks hp => .inr ?_, Log.concat h.marks trivial⟩
    · apply h.owners.remove
      · exact fun o k => .inr ⟨rfl, fun _ => rfl⟩
      · rfl
      · intro v hv
        cases hv
    · cases hp
      refine ⟨hi.2, rfl, Bool.eq_false_iff.mpr hdisposed, fun _ => hthere, log, s.due now, ⟨rfl, ?_⟩, hr, ?_⟩
      · exact fun _ hm => absurd hm List.not_mem_nil
      · intro task hm
        exact (h.owners.kept _ _ _ (hthere hm)).scheduled

theorem WorkInv.fire (h : WorkInv s log) {armed : Bool} {now : Rat} (hf : s.fire armed now ready = some s') :
    WorkInv s' (log ++ if s.disposed = true then [] else [.began (s.due now)]) := by
  unfold WorkScheduler.fire at hf
  split at hf
  · rename_i hc
    cases hf
    exact h.startPump hc.1 hc.2.2
  · cases hf

/-- A pump ends when it has run what it could. -/
theorem WorkInv.endPump (h : WorkInv s log)
    (hran : ∃ before due since, SincePump log before due since ∧ (due ≠ [] → ∃ task, .ran task ∈ since)) :
    WorkInv s.endPump (log ++ [.ended]) := by
  have howners : OwnersInv s.owners s.versions (log ++ [.ended]) := by
    apply h.owners.remove
    · exact fun o k => .inr ⟨rfl, fun _ => rfl⟩
    · rfl
    · intro v hv
      cases hv
  unfold WorkScheduler.endPump
  simp only
  split
  · refine ⟨?_, ?_, fun _ hdisposed _ => ?_, fun tasks hnone => ?_, Log.concat h.marks hran⟩
    · simp only [WorkScheduler.arm_owners, WorkScheduler.arm_versions]
      exact howners
    · simp only [WorkScheduler.arm_running, WorkScheduler.arm_calls]
      exact h.running
    · exact WorkScheduler.arm_armed _ ((WorkScheduler.arm_disposed _).symm.trans hdisposed)
    · rw [WorkScheduler.arm_pump] at hnone
      cases hnone
  · rename_i hzero
    exact ⟨howners, h.running, fun hsize => absurd hsize hzero, fun tasks hnone => (by cases hnone), Log.concat h.marks hran⟩

/-- A pump that has just begun has the whole budget. -/
theorem WorkInv.remaining_of_fresh (h : WorkInv s log) (hf : PumpFresh s log ready) (now : Rat) :
    ¬(s.disposed = true ∨ s.remainingMs now ≤ 0) := by
  have hrunning : s.running = 0 := by
    rw [h.running, hf.calls]
    rfl
  intro hstop
  rcases hstop with hdisposed | hspent
  · cases hf.alive.symm.trans hdisposed
  · unfold WorkScheduler.remainingMs at hspent
    rw [hf.spent, hrunning, if_neg (Nat.lt_irrefl 0)] at hspent
    exact absurd hspent (by decide +kernel)

theorem WorkInv.nextTask (h : WorkInv s log) (hp : s.pump = some ready) (remaining started : Rat) :
    WorkInv (s.nextTask remaining started ready).2 (log ++ workMarks s (.next remaining started)) := by
  simp only [workMarks, hp]
  cases ready with
  | nil =>
    apply h.endPump
    rcases h.pump [] hp with ⟨before, due, since, hs, -, hran⟩ | hfresh
    · exact ⟨before, due, since, hs, hran⟩
    · obtain ⟨before, due, hs, hperm, -⟩ := hfresh.began
      exact ⟨before, due, [], hs, fun hd => absurd hperm.nil_eq.symm hd⟩
  | cons task ready =>
    rw [WorkScheduler.nextTask]
    by_cases hstop : s.disposed = true ∨ s.remainingMs remaining ≤ 0
    · rw [if_pos hstop]
      apply h.endPump
      rcases h.pump _ hp with ⟨before, due, since, hs, -, hran⟩ | hfresh
      · exact ⟨before, due, since, hs, hran⟩
      · exact absurd hstop (h.remaining_of_fresh hfresh remaining)
    rw [if_neg hstop]
    have hscheduled : ∃ before due since, SincePump log before due since ∧
        ∀ t ∈ task :: ready, t.version ∈ scheduledVersions before := by
      rcases h.pump _ hp with ⟨before, due, since, hs, hready, -⟩ | hfresh
      · exact ⟨before, due, since, hs, hready⟩
      · obtain ⟨before, due, hs, -, hready⟩ := hfresh.began
        exact ⟨before, due, [], hs, hready⟩
    by_cases hgone : s.owners.get (task.owner, task.key) ≠ some task
    · rw [if_pos hgone, List.append_nil]
      refine ⟨h.owners, h.running, fun _ _ hnone => (by cases hnone), fun tasks hsome => .inl ?_, h.marks⟩
      cases hsome
      rcases h.pump _ hp with ⟨before, due, since, hs, hready, hran⟩ | hfresh
      · exact ⟨before, due, since, hs, fun t ht => hready t (List.mem_cons_of_mem _ ht), hran⟩
      · exact absurd (hfresh.there task (List.mem_cons_self ..)) hgone
    · rw [if_neg hgone]
      have hg := not_not.mp hgone
      have hkept := h.owners.kept _ _ _ hg
      obtain ⟨before, due, since, hs, hready⟩ := hscheduled
      change WorkInv _ (log ++ [.ran task])
      refine ⟨?_, ?_, fun _ _ hnone => (by cases hnone), fun tasks hsome => .inl ?_, ?_⟩
      · apply h.owners.delete (fun _ _ _ => rfl) rfl
        intro v hv
        exact ⟨task, hg, Option.some.inj hv⟩
      · change s.running + 1 = _
        rw [h.running]
        exact (List.countP_cons_of_pos rfl).symm
      · cases hsome
        exact ⟨before, due, since ++ [.ran task], hs.concat rfl, fun t ht => hready t (List.mem_cons_of_mem _ ht),
          fun _ => ⟨task, List.mem_append_right _ (List.mem_singleton.mpr rfl)⟩⟩
      · apply Log.concat h.marks
        refine ⟨?_, hkept.waits, before, due, since, hs, hready task (List.mem_cons_self ..)⟩
        rw [← h.owners.latest, hg]
        rfl

end Steps

/-! ## All runs -/

theorem workMachine_step {r r' : WorkRun ω κ} {e : WorkEvent ω κ} (h : WorkInv r.state r.log)
    (hs : workMachine.step r e = some r') : WorkInv r'.state r'.log := by
  obtain ⟨s', hn, rfl⟩ := Option.map_eq_some_iff.mp hs
  change WorkInv s' (r.log ++ workMarks r.state e)
  have hopen {s : WorkScheduler ω κ} (hif : (if r.state.Open then some s else none) = some s') : r.state.Open ∧ s = s' := by
    split at hif
    · rename_i ho
      exact ⟨ho, Option.some.inj hif⟩
    · cases hif
  cases e with
  | schedule owner key callback delayMs queued due =>
    obtain ⟨ho, rfl⟩ := hopen hn
    exact h.schedule ho owner key callback delayMs queued due
  | cancel owner key =>
    obtain ⟨ho, rfl⟩ := hopen hn
    exact h.cancel ho owner key
  | cancelOwner owner =>
    obtain ⟨ho, rfl⟩ := hopen hn
    exact h.cancelOwner ho owner
  | runNow remaining started =>
    obtain ⟨ho, rfl⟩ := hopen hn
    change WorkInv _ (r.log ++ [])
    rw [List.append_nil]
    exact h.runNow ho remaining started
  | dispose =>
    obtain ⟨ho, rfl⟩ := hopen hn
    exact h.dispose ho
  | returned now reports =>
    change WorkInv _ (r.log ++ [])
    rw [List.append_nil]
    exact h.returned hn
  | frameFired now ready => exact h.fire hn
  | timerFired now ready => exact h.fire hn
  | next remaining started =>
    rw [WorkScheduler.next] at hn
    cases hp : r.state.pump with
    | none =>
      rw [hp] at hn
      cases hn
    | some ready =>
      rw [hp] at hn
      change (if r.state.calls = [] then some _ else none) = some s' at hn
      by_cases hc : r.state.calls = []
      · rw [if_pos hc] at hn
        cases hn
        exact h.nextTask hp remaining started
      · rw [if_neg hc] at hn
        cases hn

theorem workInv_start : WorkInv ({} : WorkScheduler ω κ) [] where
  owners := by
    refine ⟨fun _ _ => rfl, fun o k t hg => ?_, fun _ hv => ?_, fun _ hv => ?_, fun o k t o' k' t' hg => ?_⟩
    · cases hg
    · cases hv
    · cases hv
    · cases hg
  running := rfl
  armed hsize := absurd rfl hsize
  pump ready hp := by cases hp
  marks before mark after heq := absurd heq.symm (List.append_ne_nil_of_right_ne_nil _ (List.cons_ne_nil _ _))

/-- **Nothing is left asleep**, and every mark is allowed where it stands: a task runs only as the latest version of
its owner and key, once, in a pump that began after it was scheduled; a pump that finds a due task runs one. -/
theorem work_scheduler {events : List (WorkEvent ω κ)} {r : WorkRun ω κ} (h : workMachine.run {} events = some r) :
    (r.state.Idle → r.state.owners.size ≠ 0 → r.state.disposed = false → r.state.frame = true ∨ r.state.timer = true) ∧
      ∀ before mark after, r.log = before ++ mark :: after → mark.Allowed before := by
  have hinv := workMachine.run_inv (I := fun r => WorkInv r.state r.log) (fun _ _ _ => workMachine_step) h workInv_start
  exact ⟨fun hi hsize hdisposed => hinv.armed hsize hdisposed hi.1, hinv.marks⟩

/-- A task's callback schedules the other task once more, and then throws. -/
theorem work_scheduler_reentered :
    let first : WorkTask Nat Nat := { version := 0, owner := 0, key := 0, queuedAt := 0, sequence := 0, dueAt := 0 }
    let second : WorkTask Nat Nat := { version := 1, owner := 0, key := 1, queuedAt := 0, sequence := 1, dueAt := 0 }
    ∃ r : WorkRun Nat Nat, workMachine.run {} [.schedule (some 0) 0 true 0 0 0, .schedule (some 0) 1 true 0 0 0,
      .timerFired 1 [second, first], .next 1 1, .schedule (some 0) 0 true 0 2 2, .returned 3 true, .returned 3 false,
      .next 3 3, .next 3 3] = some r ∧ ranVersions r.log = [1] ∧ (r.state.frame = true ∨ r.state.timer = true) := by
  intro first second
  have hrun : (workMachine.run ({} : WorkRun Nat Nat) [.schedule (some 0) 0 true 0 0 0, .schedule (some 0) 1 true 0 0 0,
      .timerFired 1 [second, first], .next 1 1, .schedule (some 0) 0 true 0 2 2, .returned 3 true, .returned 3 false,
      .next 3 3, .next 3 3]).map (fun r => (ranVersions r.log, decide r.state.Idle, r.state.owners.size,
        r.state.disposed)) = some ([1], true, 1, false) := by
    decide +kernel
  obtain ⟨r, hr, hv⟩ := Option.map_eq_some_iff.mp hrun
  simp only [Prod.mk.injEq] at hv
  obtain ⟨hran, hidle, hsize, hdisposed⟩ := hv
  refine ⟨r, hr, hran, (work_scheduler hr).1 (of_decide_eq_true hidle) ?_ hdisposed⟩
  rw [hsize]
  exact Nat.one_ne_zero

end Webshell
