import Webshell.AgentReconcile
import Mathlib.Data.List.Forall2

/-!
# Who is signalled

Whatever the other processes do meanwhile, a signal goes only to a process that
was seen to be a daemon of the scope, and a second one only to a process that
still is.
-/

namespace Webshell

open GoBytes Throwing

/-! ## What licenses a signal -/

/-- What must have been seen before a signal is sent. -/
structure SignalLicensed (scope : DaemonScope) (own : Int) (replaceActive force : Bool) (before : List ReconcileOp) (pid : Int)
    (sig : DaemonSignal) : Prop where
  daemon : ∃ data, .looked pid data ∈ before ∧ cmdlineMatches data scope = true
  again : sig = .kill → .signal pid .term ∈ before ∧
    ∃ data, before.getLast? = some (.looked pid data) ∧ cmdlineMatches data scope = true
  other : replaceActive = false → pid ≠ own ∧ ∃ owner, before.head? = some (.owner owner) ∧ pid ≠ owner
  owner : replaceActive = true → before.head? = some (.owner pid) ∧
    ∃ version, .version version ∈ before ∧ version ≠ some (bytesOf AgentProtocolVersion) ∧ (version = none → force = true)

def SignalsLicensed (scope : DaemonScope) (own : Int) (replaceActive force : Bool) (ops : List ReconcileOp) : Prop :=
  ∀ before pid sig after, ops = before ++ .signal pid sig :: after →
    SignalLicensed scope own replaceActive force before pid sig

def NoSignal (ops : List ReconcileOp) : Prop := ∀ pid sig, ReconcileOp.signal pid sig ∉ ops

def SignalsWithin (victims : List Int) (ops : List ReconcileOp) : Prop := ∀ pid sig, .signal pid sig ∈ ops → pid ∈ victims

/-- The last round found none of them. -/
def SeenGone (scope : DaemonScope) (pids : List Int) (ops : List ReconcileOp) : Prop :=
  ∃ before looks, ops = before ++ looks ∧
    List.Forall₂ (fun pid op => ∃ data, op = ReconcileOp.looked pid data ∧ cmdlineMatches data scope = false) pids looks

section

variable {σ α : Type} {host : ReconcileHost σ} {scope : DaemonScope} {own : Int} {replaceActive force : Bool}
variable {log ops : List ReconcileOp} {victims pids : List Int}

theorem NoSignal.append {more : List ReconcileOp} (h : NoSignal log) (h' : NoSignal more) : NoSignal (log ++ more) := by
  intro pid sig hm
  rcases List.mem_append.mp hm with hm | hm
  · exact h pid sig hm
  · exact h' pid sig hm

theorem NoSignal.licensed (h : NoSignal log) : SignalsLicensed scope own replaceActive force log := by
  rintro before pid sig after rfl
  exact absurd (by simp) (h pid sig)

theorem NoSignal.within (h : NoSignal log) : SignalsWithin victims log := fun pid sig hm => absurd hm (h pid sig)

theorem SignalsWithin.append {more : List ReconcileOp} (h : SignalsWithin victims log) (h' : SignalsWithin victims more) :
    SignalsWithin victims (log ++ more) := by
  intro pid sig hm
  rcases List.mem_append.mp hm with hm | hm
  · exact h pid sig hm
  · exact h' pid sig hm

/-- The last of a list with one more behind it is that one, or is further ahead. -/
theorem SignalsLicensed.concat (h : SignalsLicensed scope own replaceActive force log) {op : ReconcileOp}
    (hop : ∀ pid sig, op = .signal pid sig → SignalLicensed scope own replaceActive force log pid sig) :
    SignalsLicensed scope own replaceActive force (log ++ [op]) := by
  intro before pid sig after he
  rcases List.eq_nil_or_concat' after with rfl | ⟨after, last, rfl⟩
  · obtain ⟨hlog, hlast⟩ := List.append_inj' he rfl
    exact hlog ▸ hop pid sig (List.singleton_inj.mp hlast)
  · rw [← List.cons_append, ← List.append_assoc] at he
    obtain ⟨hlog, -⟩ := List.append_inj' he rfl
    exact h before pid sig after hlog

theorem SignalsLicensed.append_noSignal (h : SignalsLicensed scope own replaceActive force log) {more : List ReconcileOp}
    (hm : NoSignal more) : SignalsLicensed scope own replaceActive force (log ++ more) := by
  induction more using List.reverseRecOn with
  | nil => simpa using h
  | append_singleton more op ih =>
    rw [← List.append_assoc]
    refine (ih fun pid sig hmem => hm pid sig (List.mem_append_left _ hmem)).concat ?_
    rintro pid sig rfl
    exact absurd (by simp) (hm pid sig)

/-! ## The run -/

def RunAt (log : List ReconcileOp) (s : ReconcileRun σ) : Prop := s.ops = log

/-- However it ends, no signal has been sent that was not licensed. -/
def EndsLicensed (scope : DaemonScope) (own : Int) (replaceActive force : Bool) (_ : ReconcileError) (s : ReconcileRun σ) : Prop :=
  SignalsLicensed scope own replaceActive force s.ops

theorem reconcileCall_at {E : ReconcileError → ReconcileRun σ → Prop} (call : σ → α × σ) :
    Triple (RunAt log) (reconcileCall call) (fun _ => RunAt log) E := fun _ hs => hs

theorem reconcileNote_at {E : ReconcileError → ReconcileRun σ → Prop} (op : ReconcileOp) :
    Triple (RunAt (σ := σ) log) (reconcileNote op) (fun _ => RunAt (log ++ [op])) E := by
  apply Triple.modify
  intro s hs
  simpa [RunAt] using hs

theorem agentDaemonPIDMatches_at {E : ReconcileError → ReconcileRun σ → Prop} (pid : Int) :
    Triple (RunAt log) (agentDaemonPIDMatches host scope pid)
      (fun found s => ∃ data, cmdlineMatches data scope = found ∧ RunAt (log ++ [.looked pid data]) s) E := by
  apply Triple.bind (reconcileCall_at _)
  intro data
  apply Triple.bind (reconcileNote_at _)
  intro _
  exact Triple.pure fun s hs => ⟨data, rfl, hs⟩

theorem noSignal_looked (pid : Int) (data : Option Str) : NoSignal [.looked pid data] := by
  intro other sig hm
  simp at hm

theorem matchingPIDs_at {E : ReconcileError → ReconcileRun σ → Prop} (names : List Str) :
    Triple (RunAt log) (matchingPIDs host scope names) (fun pids s => ∃ looks, (NoSignal looks ∧
      ∀ pid ∈ pids, ∃ data, .looked pid data ∈ looks ∧ cmdlineMatches data scope = true) ∧ RunAt (log ++ looks) s) E := by
  induction names generalizing log with
  | nil => exact Triple.pure fun s hs => ⟨[], ⟨nofun, by simp⟩, by simpa using hs⟩
  | cons name names ih =>
    unfold matchingPIDs
    split
    · exact ih
    · rename_i pid _
      apply Triple.bind (agentDaemonPIDMatches_at pid)
      intro found
      apply Triple.of_exists
      intro data
      apply Triple.of_fact
      intro hdata
      apply Triple.bind ih
      intro pids
      apply Triple.of_exists
      intro looks
      apply Triple.of_fact
      rintro ⟨hquiet, hpids⟩
      refine Triple.pure fun s hs => ⟨.looked pid data :: looks, ⟨?_, ?_⟩, by simpa using hs⟩
      · exact (noSignal_looked pid data).append hquiet
      · intro other hm
        have htail (hm : other ∈ pids) : ∃ data', .looked other data' ∈ ReconcileOp.looked pid data :: looks ∧
            cmdlineMatches data' scope = true := by
          obtain ⟨data', hin, hmatch⟩ := hpids other hm
          exact ⟨data', List.mem_cons_of_mem _ hin, hmatch⟩
        cases found with
        | false => exact htail hm
        | true =>
          rcases List.mem_cons.mp hm with rfl | hm
          · exact ⟨data, by simp, hdata⟩
          · exact htail hm

theorem countRemaining_at {E : ReconcileError → ReconcileRun σ → Prop} (pids : List Int) :
    Triple (RunAt log) (countRemaining host scope pids) (fun remaining s => ∃ looks, (NoSignal looks ∧ (remaining = 0 →
      List.Forall₂ (fun pid op => ∃ data, op = ReconcileOp.looked pid data ∧ cmdlineMatches data scope = false) pids looks)) ∧
        RunAt (log ++ looks) s) E := by
  induction pids generalizing log with
  | nil => exact Triple.pure fun s hs => ⟨[], ⟨nofun, fun _ => .nil⟩, by simpa using hs⟩
  | cons pid pids ih =>
    apply Triple.bind (agentDaemonPIDMatches_at pid)
    intro found
    apply Triple.of_exists
    intro data
    apply Triple.of_fact
    intro hdata
    apply Triple.bind ih
    intro remaining
    apply Triple.of_exists
    intro looks
    apply Triple.of_fact
    rintro ⟨hquiet, hgone⟩
    refine Triple.pure fun s hs => ⟨.looked pid data :: looks, ⟨(noSignal_looked pid data).append hquiet, fun hzero => ?_⟩,
      by simpa using hs⟩
    cases found with
    | false => exact .cons ⟨data, rfl, hdata⟩ (hgone hzero)
    | true => exact absurd hzero (by simp)

/-! ## Signals -/

theorem SignalLicensed.later (h : SignalLicensed scope own replaceActive force log pid .term) (more : List ReconcileOp) :
    SignalLicensed scope own replaceActive force (log ++ more) pid .term where
  daemon := by
    obtain ⟨data, hm, hd⟩ := h.daemon
    exact ⟨data, List.mem_append_left _ hm, hd⟩
  again := nofun
  other ha := by
    obtain ⟨hown, owner, ho, hne⟩ := h.other ha
    exact ⟨hown, owner, by simp [List.head?_append, ho], hne⟩
  owner ha := by
    obtain ⟨ho, version, hm, hv⟩ := h.owner ha
    exact ⟨by simp [List.head?_append, ho], version, List.mem_append_left _ hm, hv⟩

/-- A process that was told to end and is still there may be killed. -/
theorem SignalLicensed.kill (h : SignalLicensed scope own replaceActive force log pid .term) (ht : .signal pid .term ∈ log)
    {data : Option Str} (hd : cmdlineMatches data scope = true) :
    SignalLicensed scope own replaceActive force (log ++ [.looked pid data]) pid .kill :=
  have hlater := h.later [.looked pid data]
  ⟨hlater.daemon, fun _ => ⟨List.mem_append_left _ ht, data, by simp, hd⟩, hlater.other, hlater.owner⟩

namespace SignalsLicensed

theorem throws (h : SignalsLicensed scope own replaceActive force log) {Q : α → ReconcileRun σ → Prop} (err : ReconcileError) :
    Triple (RunAt log) (MonadExcept.throw err) Q (EndsLicensed scope own replaceActive force) := by
  apply Triple.throw
  rintro s rfl
  exact h

theorem signal (h : SignalsLicensed scope own replaceActive force log) {sig : DaemonSignal}
    (hl : SignalLicensed scope own replaceActive force log pid sig) :
    Triple (RunAt log) (signalDaemon host sig pid) (fun _ => RunAt (log ++ [.signal pid sig]))
      (EndsLicensed scope own replaceActive force) := by
  apply Triple.bind (reconcileNote_at _)
  intro _
  apply Triple.bind (reconcileCall_at _)
  intro answer
  cases answer with
  | failed text =>
    refine (h.concat ?_).throws _
    rintro _ _ ⟨⟩
    exact hl
  | delivered | noProcess => exact Triple.pure fun s hs => hs

theorem signalled (h : SignalsLicensed scope own replaceActive force log) {sig : DaemonSignal}
    (hl : SignalLicensed scope own replaceActive force log pid sig) :
    SignalsLicensed scope own replaceActive force (log ++ [.signal pid sig]) := by
  refine h.concat ?_
  rintro _ _ ⟨⟩
  exact hl

theorem terminateAll (h : SignalsLicensed scope own replaceActive force log)
    (hv : ∀ pid ∈ victims, SignalLicensed scope own replaceActive force log pid .term) :
    Triple (RunAt log) (terminateAll host victims) (fun _ s =>
      SignalsLicensed scope own replaceActive force (log ++ victims.map fun pid => .signal pid .term) ∧
        RunAt (log ++ victims.map fun pid => .signal pid .term) s) (EndsLicensed scope own replaceActive force) := by
  induction victims generalizing log with
  | nil => exact Triple.pure fun s hs => by simpa using ⟨h, hs⟩
  | cons pid victims ih =>
    have hl := hv pid (by simp)
    apply Triple.bind (h.signal hl)
    intro _
    have hrest := ih (h.signalled hl) fun other hm => (hv other (by simp [hm])).later _
    simpa using hrest

theorem waitRounds (h : SignalsLicensed scope own replaceActive force log) (pids : List Int) (deadline fuel : Nat) :
    Triple (RunAt log) (waitRounds host scope pids deadline fuel) (fun remaining s => ∃ looks, (NoSignal looks ∧
      (remaining = 0 → SeenGone scope pids looks)) ∧ RunAt (log ++ looks) s) (EndsLicensed scope own replaceActive force) := by
  induction fuel generalizing log with
  | zero => exact h.throws _
  | succ fuel ih =>
    apply Triple.bind (countRemaining_at pids)
    intro remaining
    apply Triple.of_exists
    intro looks
    apply Triple.of_fact
    rintro ⟨hquiet, hgone⟩
    by_cases hzero : remaining = 0
    · rw [if_pos hzero]
      exact Triple.pure fun s hs => ⟨looks, ⟨hquiet, fun _ => ⟨[], looks, rfl, hgone hzero⟩⟩, hs⟩
    · rw [if_neg hzero]
      apply Triple.bind (reconcileCall_at _)
      intro now
      split
      · exact Triple.pure fun s hs => ⟨looks, ⟨hquiet, fun hz => absurd hz hzero⟩, hs⟩
      · apply Triple.bind (reconcileCall_at _)
        intro _
        refine (ih (h.append_noSignal hquiet)).weaken (fun _ hs => hs) ?_ fun _ _ hs => hs
        rintro rest s ⟨more, ⟨hmore, hrest⟩, hs⟩
        refine ⟨looks ++ more, ⟨hquiet.append hmore, fun hz => ?_⟩, by simpa using hs⟩
        obtain ⟨before, last, rfl, hlast⟩ := hrest hz
        exact ⟨looks ++ before, last, by simp, hlast⟩

theorem wait (h : SignalsLicensed scope own replaceActive force log) (fuel : Nat) (pids : List Int) :
    Triple (RunAt log) (waitForAgentDaemonExit host fuel scope pids) (fun remaining s => ∃ looks, (NoSignal looks ∧
      (remaining = 0 → SeenGone scope pids looks)) ∧ RunAt (log ++ looks) s) (EndsLicensed scope own replaceActive force) := by
  apply Triple.bind (reconcileCall_at _)
  intro now
  exact h.waitRounds pids _ fuel

theorem killDaemon (h : SignalsLicensed scope own replaceActive force log)
    (hl : SignalLicensed scope own replaceActive force log pid .term) (ht : .signal pid .term ∈ log) :
    Triple (RunAt log) (killDaemon host scope pid) (fun _ s => ∃ more, (SignalsWithin [pid] more ∧
      SignalsLicensed scope own replaceActive force (log ++ more)) ∧ RunAt (log ++ more) s)
      (EndsLicensed scope own replaceActive force) := by
  apply Triple.bind (agentDaemonPIDMatches_at pid)
  intro found
  apply Triple.of_exists
  intro data
  apply Triple.of_fact
  intro hdata
  have hlooked := h.append_noSignal (noSignal_looked pid data)
  cases found with
  | false => exact Triple.pure fun s hs => ⟨_, ⟨(noSignal_looked pid data).within, hlooked⟩, hs⟩
  | true =>
    have hkill := hl.kill ht hdata
    refine (hlooked.signal hkill).weaken (fun _ hs => hs) (fun _ s hs => ?_) fun _ _ hs => hs
    refine ⟨[.looked pid data, .signal pid .kill], ⟨?_, by simpa using hlooked.signalled hkill⟩, by simpa using hs⟩
    intro other sig hm
    simp only [List.mem_cons, reduceCtorEq, ReconcileOp.signal.injEq, List.not_mem_nil, or_false, false_or] at hm
    simp [hm.1]

theorem killAll (h : SignalsLicensed scope own replaceActive force log)
    (hv : ∀ pid ∈ victims, SignalLicensed scope own replaceActive force log pid .term ∧ .signal pid .term ∈ log) :
    Triple (RunAt log) (killAll host scope victims) (fun _ s => ∃ more, (SignalsWithin victims more ∧
      SignalsLicensed scope own replaceActive force (log ++ more)) ∧ RunAt (log ++ more) s)
      (EndsLicensed scope own replaceActive force) := by
  induction victims generalizing log with
  | nil => exact Triple.pure fun s hs => ⟨[], ⟨nofun, by simpa using h⟩, by simpa using hs⟩
  | cons pid victims ih =>
    obtain ⟨hl, ht⟩ := hv pid (by simp)
    apply Triple.bind (h.killDaemon hl ht)
    intro _
    apply Triple.of_exists
    intro more
    apply Triple.of_fact
    rintro ⟨hwithin, hlicensed⟩
    have hrest := ih hlicensed fun other hm =>
      ⟨(hv other (by simp [hm])).1.later more, List.mem_append_left _ (hv other (by simp [hm])).2⟩
    refine hrest.weaken (fun _ hs => hs) ?_ fun _ _ hs => hs
    rintro _ s ⟨rest, ⟨hwithin', hlicensed'⟩, hs⟩
    refine ⟨more ++ rest, ⟨?_, by simpa using hlicensed'⟩, by simpa using hs⟩
    refine SignalsWithin.append (fun other sig hm => ?_) fun other sig hm => List.mem_cons_of_mem _ (hwithin' other sig hm)
    exact List.mem_cons.mpr (.inl (List.mem_singleton.mp (hwithin other sig hm)))

end SignalsLicensed

/-! ## The whole function -/

/-- What is known when it returns `n`. -/
structure Removed (scope : DaemonScope) (own : Int) (replaceActive force : Bool) (n : Nat) (ops : List ReconcileOp) : Prop where
  licensed : SignalsLicensed scope own replaceActive force ops
  victims : ∃ victims : List Int, n = victims.length ∧ SignalsWithin victims ops ∧
    (∀ pid ∈ victims, .signal pid .term ∈ ops) ∧ SeenGone scope victims ops

theorem Removed.returns {E : ReconcileError → ReconcileRun σ → Prop} {n : Nat} (h : Removed scope own replaceActive force n log) :
    Triple (RunAt (σ := σ) log) (pure n) (fun n s => Removed scope own replaceActive force n s.ops) E := by
  apply Triple.pure
  rintro s rfl
  exact h

theorem removeDaemons_at (fuel : Nat) (hquiet : NoSignal log)
    (hv : ∀ pid ∈ victims, SignalLicensed scope own replaceActive force log pid .term) :
    Triple (RunAt log) (removeDaemons host fuel scope victims) (fun n s => Removed scope own replaceActive force n s.ops)
      (EndsLicensed scope own replaceActive force) := by
  have h : SignalsLicensed scope own replaceActive force log := hquiet.licensed
  apply Triple.bind (h.terminateAll hv)
  intro _
  apply Triple.of_fact
  intro hterm
  have htold (pid : Int) (hm : pid ∈ victims) : .signal pid .term ∈ log ++ victims.map fun pid => ReconcileOp.signal pid .term :=
    List.mem_append_right _ (List.mem_map_of_mem hm)
  have hwithin : SignalsWithin victims (log ++ victims.map fun pid => ReconcileOp.signal pid .term) := by
    refine SignalsWithin.append hquiet.within fun pid sig hm => ?_
    obtain ⟨other, hother, he⟩ := List.mem_map.mp hm
    cases he
    exact hother
  apply Triple.bind (hterm.wait fuel victims)
  intro remaining
  apply Triple.of_exists
  intro looks
  apply Triple.of_fact
  rintro ⟨hlooks, hgone⟩
  by_cases hzero : remaining = 0
  · rw [if_pos hzero]
    obtain ⟨before, last, rfl, hlast⟩ := hgone hzero
    refine Removed.returns ?_
    exact ⟨hterm.append_noSignal hlooks, victims, rfl, hwithin.append hlooks.within,
      fun pid hm => List.mem_append_left _ (htold pid hm), _, last, (List.append_assoc ..).symm, hlast⟩
  · rw [if_neg hzero]
    have hlooked := hterm.append_noSignal hlooks
    apply Triple.bind (hlooked.killAll fun pid hm =>
      ⟨by rw [List.append_assoc]; exact (hv pid hm).later _, List.mem_append_left _ (htold pid hm)⟩)
    intro _
    apply Triple.of_exists
    intro more
    apply Triple.of_fact
    rintro ⟨hmore, hkilled⟩
    apply Triple.bind (hkilled.wait fuel victims)
    intro left
    apply Triple.of_exists
    intro looks'
    apply Triple.of_fact
    rintro ⟨hlooks', hgone'⟩
    by_cases hnone : left = 0
    · rw [if_pos hnone]
      obtain ⟨before, last, rfl, hlast⟩ := hgone' hnone
      refine Removed.returns ?_
      refine ⟨hkilled.append_noSignal hlooks', victims, rfl, ?_, fun pid hm => ?_, _, last, (List.append_assoc ..).symm, hlast⟩
      · exact ((hwithin.append hlooks.within).append hmore).append hlooks'.within
      · exact List.mem_append_left _ (List.mem_append_left _ (List.mem_append_left _ (htold pid hm)))
    · rw [if_neg hnone]
      exact (hkilled.append_noSignal hlooks').throws _

theorem activeAgentSocketPID_at (h : SignalsLicensed scope own replaceActive force log) (socketPath : Str) :
    Triple (RunAt log) (activeAgentSocketPID host socketPath) (fun _ => RunAt log) (EndsLicensed scope own replaceActive force) := by
  apply Triple.bind (reconcileCall_at _)
  intro stat
  cases stat with
  | notExist => exact Triple.pure fun _ hs => hs
  | failed text => exact h.throws _
  | other => exact h.throws _
  | socket =>
    apply Triple.bind (reconcileCall_at _)
    intro peer
    cases peer with
    | absent => exact Triple.pure fun _ hs => hs
    | failed text => exact h.throws _
    | pid pid =>
      simp only
      split
      · exact h.throws _
      · exact Triple.pure fun _ hs => hs

theorem protocolVersion_at {E : ReconcileError → ReconcileRun σ → Prop} :
    Triple (RunAt log) (activeAgentSocketProtocolVersion host scope) (fun _ => RunAt log) E := by
  apply Triple.bind (reconcileCall_at _)
  intro answer
  exact Triple.pure fun _ hs => hs

theorem verifyProtocol_at (h : SignalsLicensed scope own replaceActive force log) :
    Triple (RunAt log) (verifyProtocol host scope force) (fun stays s => ∃ version,
      ((stays = false → version ≠ some (bytesOf AgentProtocolVersion)) ∧ (version = none → force = true)) ∧
        RunAt (log ++ [.version version]) s) (EndsLicensed scope own replaceActive force) := by
  apply Triple.bind protocolVersion_at
  intro answer
  cases answer with
  | ok version =>
    apply Triple.bind (reconcileNote_at _)
    intro _
    exact Triple.pure fun s hs => ⟨some version, ⟨by simp, nofun⟩, hs⟩
  | error text =>
    apply Triple.bind (reconcileNote_at _)
    intro _
    have hnoted : SignalsLicensed scope own replaceActive force (log ++ [.version none]) :=
      h.append_noSignal fun pid sig hm => by simp at hm
    by_cases hforce : force = true
    · rw [if_pos hforce]
      exact Triple.pure fun s hs => ⟨none, ⟨nofun, fun _ => hforce⟩, hs⟩
    · rw [if_neg hforce]
      exact hnoted.throws _

theorem reconcile_at (host : ReconcileHost σ) (fuel : Nat) (requested : DaemonScope) (replaceActive force : Bool) :
    Triple (RunAt []) (reconcileAgentDaemonsWithOptions host fuel requested replaceActive force)
      (fun n s => Removed requested.trim host.getpid replaceActive force n s.ops)
      (EndsLicensed requested.trim host.getpid replaceActive force) := by
  have hnil : NoSignal [] := nofun
  unfold reconcileAgentDaemonsWithOptions
  simp only
  by_cases hpath : requested.trim.socketPath = []
  · rw [if_pos hpath]
    exact hnil.licensed.throws _
  rw [if_neg hpath]
  apply Triple.bind (activeAgentSocketPID_at hnil.licensed _)
  intro activePID
  apply Triple.bind (reconcileNote_at _)
  intro _
  apply Triple.bind (Triple.bind (reconcileCall_at _) fun names => matchingPIDs_at names)
  intro pids
  apply Triple.of_exists
  intro looks
  apply Triple.of_fact
  rintro ⟨hlooks, hpids⟩
  have hquiet : NoSignal ([] ++ [.owner activePID] ++ looks) :=
    NoSignal.append (fun pid sig hm => by simp at hm) hlooks
  have hseen (pid : Int) (hm : pid ∈ pids) : ∃ data, .looked pid data ∈ [] ++ [.owner activePID] ++ looks ∧
      cmdlineMatches data requested.trim = true := by
    obtain ⟨data, hin, hd⟩ := hpids pid hm
    exact ⟨data, List.mem_append_right _ hin, hd⟩
  cases replaceActive with
  | false =>
    refine removeDaemons_at fuel hquiet fun pid hm => ⟨?_, nofun, fun _ => ?_, nofun⟩
    · exact hseen pid (List.mem_filter.mp hm).1
    · have hne := (List.mem_filter.mp hm).2
      simp only [ne_eq, Bool.and_eq_true, decide_eq_true_eq] at hne
      exact ⟨hne.1, activePID, rfl, hne.2⟩
  | true =>
    by_cases habsent : activePID = 0
    · rw [if_pos rfl, if_pos habsent]
      exact removeDaemons_at fuel hquiet (by simp)
    rw [if_pos rfl, if_neg habsent]
    by_cases hscope : activePID ∈ pids
    · rw [if_neg (by simpa using hscope)]
      apply Triple.bind (verifyProtocol_at hquiet.licensed)
      intro stays
      apply Triple.of_exists
      intro version
      apply Triple.of_fact
      rintro ⟨hversion, hforce⟩
      have hnoted : NoSignal ([] ++ [.owner activePID] ++ looks ++ [.version version]) :=
        hquiet.append fun pid sig hm => by simp at hm
      cases stays with
      | true =>
        refine Removed.returns ?_
        exact ⟨hnoted.licensed, [], rfl, hnoted.within, by simp, _, [], (List.append_nil _).symm, .nil⟩
      | false =>
        refine removeDaemons_at fuel hnoted fun pid hm => ?_
        obtain rfl := List.mem_singleton.mp hm
        obtain ⟨data, hin, hd⟩ := hseen pid hscope
        exact ⟨⟨data, List.mem_append_left _ hin, hd⟩, nofun, nofun,
          fun _ => ⟨rfl, version, by simp, hversion rfl, hforce⟩⟩
    · rw [if_pos (by simpa using hscope)]
      exact hquiet.licensed.throws _

/-! ## It comes to an end -/

/-- The host's clock, read in milliseconds, goes on while the function sleeps. -/
structure ReconcileHost.Ticks (host : ReconcileHost σ) (clock : σ → Nat) : Prop where
  reads : ∀ w, (host.now w).1 = clock w
  now : ∀ w, clock w ≤ clock (host.now w).2
  cmdline : ∀ pid w, clock w ≤ clock (host.cmdline pid w).2
  sleep : ∀ d w, clock w + d ≤ clock (host.sleep d w)

def Fueled (err : ReconcileError) (_ : ReconcileRun σ) : Prop := err ≠ .outOfFuel

/-- It never runs out of fuel. -/
def Ends (m : Reconcile σ α) : Prop := Triple (fun _ => True) m (fun _ _ => True) Fueled

namespace Ends

variable {β : Type} {m : Reconcile σ α}

theorem pure (a : α) : Ends (Pure.pure a : Reconcile σ α) := Triple.pure fun _ _ => trivial

theorem failed (text : Str) : Ends (MonadExcept.throw (.failed text) : Reconcile σ α) := Triple.throw fun _ _ => nofun

theorem call (call : σ → α × σ) : Ends (reconcileCall call) := fun _ _ => trivial

theorem note (op : ReconcileOp) : Ends (reconcileNote op : Reconcile σ Unit) := fun _ _ => trivial

theorem bind {f : α → Reconcile σ β} (hm : Ends m) (hf : ∀ a, Ends (f a)) : Ends (m >>= f) := Triple.bind hm hf

theorem ite {P : Prop} [Decidable P] {m' : Reconcile σ α} (hm : Ends m) (hm' : Ends m') : Ends (if P then m else m') := by
  by_cases hp : P
  · rw [if_pos hp]
    exact hm
  · rw [if_neg hp]
    exact hm'

theorem looks (pid : Int) : Ends (agentDaemonPIDMatches host scope pid) :=
  (call _).bind fun _ => (note _).bind fun _ => pure _

theorem matching (names : List Str) : Ends (matchingPIDs host scope names) := by
  induction names with
  | nil => exact pure _
  | cons name names ih =>
    unfold matchingPIDs
    split
    · exact ih
    · exact (looks _).bind fun _ => ih.bind fun _ => pure _

theorem socketPID (socketPath : Str) : Ends (activeAgentSocketPID host socketPath) := by
  refine (call _).bind fun stat => ?_
  cases stat with
  | notExist => exact pure _
  | failed text => exact failed _
  | other => exact failed _
  | socket =>
    refine (call _).bind fun peer => ?_
    cases peer with
    | absent => exact pure _
    | failed text => exact failed _
    | pid pid => exact ite (failed _) (pure _)

theorem verify (force : Bool) : Ends (verifyProtocol host scope force) := by
  refine ((call _).bind fun _ => pure _).bind fun answer => ?_
  cases answer with
  | ok version => exact (note _).bind fun _ => pure _
  | error text => exact (note _).bind fun _ => ite (pure _) (failed _)

theorem signal (sig : DaemonSignal) (pid : Int) : Ends (signalDaemon host sig pid) := by
  refine (note _).bind fun _ => (call _).bind fun answer => ?_
  cases answer with
  | failed text => exact failed _
  | delivered | noProcess => exact pure _

theorem terminate (victims : List Int) : Ends (terminateAll host victims) := by
  induction victims with
  | nil => exact pure _
  | cons pid victims ih => exact (signal .term pid).bind fun _ => ih

theorem kill (victims : List Int) : Ends (killAll host scope victims) := by
  induction victims with
  | nil => exact pure _
  | cons pid victims ih => exact ((looks pid).bind fun _ => ite (signal .kill pid) (pure _)).bind fun _ => ih

variable {clock : σ → Nat} (ticks : host.Ticks clock)

include ticks

theorem counts (c : Nat) (pids : List Int) : Triple (fun s => c ≤ clock s.world) (countRemaining host scope pids)
    (fun _ s => c ≤ clock s.world) Fueled := by
  induction pids with
  | nil => exact Triple.pure fun _ hs => hs
  | cons pid pids ih =>
    have hlook : Triple (fun s => c ≤ clock s.world) (agentDaemonPIDMatches host scope pid) (fun _ s => c ≤ clock s.world) Fueled :=
      fun s hs => Nat.le_trans hs (ticks.cmdline pid s.world)
    exact hlook.bind fun _ => ih.bind fun _ => Triple.pure fun _ hs => hs

theorem reading : Triple (fun _ : ReconcileRun σ => True) (reconcileCall host.now) (fun now s => now ≤ clock s.world) Fueled := by
  intro s _
  have hread := ticks.reads s.world
  exact hread.le.trans (ticks.now s.world)

theorem round {pids : List Int} {deadline fuel c : Nat} (hrest : c ≤ deadline → Triple (fun s => c + 25 ≤ clock s.world)
    (waitRounds host scope pids deadline fuel) (fun _ _ => True) Fueled) :
    Triple (fun s => c ≤ clock s.world) (waitRounds host scope pids deadline (fuel + 1)) (fun _ _ => True) Fueled := by
  apply Triple.bind (counts ticks c pids)
  intro remaining
  split
  · exact Triple.pure fun _ _ => trivial
  · have hnow : Triple (fun s => c ≤ clock s.world) (reconcileCall host.now) (fun now s => c ≤ now ∧ now ≤ clock s.world) Fueled := by
      intro s hs
      have hread := ticks.reads s.world
      exact ⟨hs.trans hread.ge, hread.le.trans (ticks.now s.world)⟩
    apply Triple.bind hnow
    intro now
    apply Triple.of_fact
    intro hc
    split
    · exact Triple.pure fun _ _ => trivial
    · rename_i hle
      have hsleep : Triple (fun s => now ≤ clock s.world) (reconcileCall fun w => ((), host.sleep 25 w))
          (fun _ s => c + 25 ≤ clock s.world) Fueled := by
        intro s hs
        have := ticks.sleep 25 s.world
        exact (Nat.add_le_add_right (hc.trans hs) 25).trans this
      exact hsleep.bind fun _ => hrest (by omega)

/-- Each round but the last takes 25 milliseconds at least. -/
theorem rounds {pids : List Int} {deadline fuel c : Nat} (h : deadline < c + 25 * fuel) :
    Triple (fun s => c ≤ clock s.world) (waitRounds host scope pids deadline (fuel + 1)) (fun _ _ => True) Fueled := by
  induction fuel generalizing c with
  | zero => exact round ticks fun hc => absurd hc (by omega)
  | succ fuel ih => exact round ticks fun _ => ih (by omega)

theorem wait {fuel : Nat} (hfuel : 32 ≤ fuel) (pids : List Int) : Ends (waitForAgentDaemonExit host fuel scope pids) := by
  obtain ⟨fuel, rfl⟩ : ∃ n, fuel = n + 1 := ⟨fuel - 1, by omega⟩
  exact (reading ticks).bind fun now => rounds ticks (by omega)

theorem removes {fuel : Nat} (hfuel : 32 ≤ fuel) (victims : List Int) : Ends (removeDaemons host fuel scope victims) := by
  refine (terminate victims).bind fun _ => (wait ticks hfuel victims).bind fun _ => ite (pure _) ?_
  exact (kill victims).bind fun _ => (wait ticks hfuel victims).bind fun _ => ite (pure _) (failed _)

theorem reconcile {fuel : Nat} (hfuel : 32 ≤ fuel) (requested : DaemonScope) (replaceActive force : Bool) :
    Ends (reconcileAgentDaemonsWithOptions host fuel requested replaceActive force) := by
  refine ite (failed _) ?_
  refine (socketPID _).bind fun _ => (note _).bind fun _ => ((call _).bind fun names => matching names).bind fun _ => ?_
  refine ite (ite (removes ticks hfuel _) (ite (failed _) ?_)) (removes ticks hfuel _)
  refine (verify force).bind fun _ => ite (pure _) (removes ticks hfuel _)

end Ends

end

/-- Whatever the host answers, every signal that is sent is licensed by what was
seen before it; when the function returns a number, it is that of the processes
it told to end, which were all that it signalled and were all gone at the last
look; and on a host whose clock goes on it comes to an end. -/
theorem reconcile_signals {σ : Type} (host : ReconcileHost σ) (fuel : Nat) (requested : DaemonScope) (replaceActive force : Bool)
    (world : σ) :
    SignalsLicensed requested.trim host.getpid replaceActive force
      (after (reconcileAgentDaemonsWithOptions host fuel requested replaceActive force) ⟨world, []⟩).ops ∧
    (∀ n s, reconcileAgentDaemonsWithOptions host fuel requested replaceActive force ⟨world, []⟩ = .ok n s →
      ∃ victims : List Int, n = victims.length ∧ SignalsWithin victims s.ops ∧
        (∀ pid ∈ victims, .signal pid .term ∈ s.ops) ∧ SeenGone requested.trim victims s.ops) ∧
    ∀ clock, host.Ticks clock → 32 ≤ fuel → ∀ s,
      reconcileAgentDaemonsWithOptions host fuel requested replaceActive force ⟨world, []⟩ ≠ .error .outOfFuel s := by
  have h := reconcile_at host fuel requested replaceActive force ⟨world, []⟩ rfl
  refine ⟨?_, fun n s hr => ?_, fun clock hticks hfuel s hr => ?_⟩
  · unfold after
    split
    · rename_i hr
      rw [hr] at h
      exact h.licensed
    · rename_i hr
      rw [hr] at h
      exact h
  · rw [hr] at h
    exact h.victims
  · have hends := Ends.reconcile hticks hfuel requested replaceActive force ⟨world, []⟩ trivial
    rw [hr] at hends
    exact hends rfl

/-! ## A daemon that does not end when it is told to -/

def oldDaemons : DaemonScope := { socketPath := bytesOf "/run/a", selector := bytesOf "s", accountID := bytesOf "u" }

def oldCmdline : Str := procCmdline (daemonArgs (bytesOf "a") (bytesOf "/run/a") (bytesOf "/r") (bytesOf "s") (bytesOf "u") [])

/-- The clock, and whether process 7 still runs: it does not mind the first signal. Process 5 has the socket. -/
def stubbornHost : ReconcileHost (Nat × Bool) where
  getpid := 9
  lstat _ w := (.socket, w)
  peer _ w := (.pid 5, w)
  ping _ w := (.error [], w)
  glob w := ([bytesOf "5", bytesOf "7", bytesOf "8x"], w)
  cmdline pid w := (if pid = 5 ∨ pid = 7 ∧ w.2 = true then some oldCmdline else none, w)
  kill pid sig w := (.delivered, (w.1, w.2 && !(pid = 7 && sig = .kill)))
  now w := (w.1, w)
  sleep d w := (w.1 + d, w.2)

theorem stubbornHost_ticks : stubbornHost.Ticks Prod.fst := by
  constructor <;> simp [stubbornHost]

def stubbornRun : Reconcile (Nat × Bool) Nat := reconcileAgentDaemons stubbornHost 32 oldDaemons false

theorem stubbornRun_ops : returned stubbornRun ⟨(0, true), []⟩ = true ∧
    (after stubbornRun ⟨(0, true), []⟩).ops.filter (fun op => op matches .signal _ _) = [.signal 7 .term, .signal 7 .kill] := by
  decide +kernel

theorem reconcile_signals_stubborn : ∃ n s, stubbornRun ⟨(0, true), []⟩ = .ok n s ∧ .signal 7 .kill ∈ s.ops ∧
    SignalsLicensed oldDaemons.trim 9 false false s.ops ∧
    (∃ victims : List Int, n = victims.length ∧ SignalsWithin victims s.ops ∧
      (∀ pid ∈ victims, .signal pid .term ∈ s.ops) ∧ SeenGone oldDaemons.trim victims s.ops) ∧
    ∀ t, stubbornRun ⟨(0, true), []⟩ ≠ .error .outOfFuel t := by
  obtain ⟨hlicensed, hreturns, hends⟩ := reconcile_signals stubbornHost 32 oldDaemons false false (0, true)
  obtain ⟨hreturned, hops⟩ := stubbornRun_ops
  have hkill : ReconcileOp.signal 7 .kill ∈ (after stubbornRun ⟨(0, true), []⟩).ops :=
    (List.mem_filter.mp (hops ▸ List.mem_cons_of_mem _ (List.mem_singleton.mpr rfl))).1
  cases hr : stubbornRun ⟨(0, true), []⟩ with
  | error e t => simp [returned, hr] at hreturned
  | ok n s =>
    have hafter : after stubbornRun ⟨(0, true), []⟩ = s := by simp [after, hr]
    rw [hafter] at hkill
    exact ⟨n, s, rfl, hkill, hafter ▸ hlicensed, hreturns n s hr, hr ▸ hends Prod.fst stubbornHost_ticks (by decide)⟩

end Webshell
