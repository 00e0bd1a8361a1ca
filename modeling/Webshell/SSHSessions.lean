import Webshell.SSHServer

/-!
# What the sessions leave in order

A connection runs until it has called `wg.Done`. A terminal that was taken out
of the map is in the hands of a cleanup or of a connection until it is closed.
While the work context is live, nothing older than the configuration runs.
-/

namespace Webshell

/-- No connection and no terminal of an earlier revision runs. A terminal that was left out of the
map because its output had ended is not retained any more. -/
def NoneOlder (s : SSHServer) (revision : Nat) : Prop :=
  (∀ c ∈ s.connections, c.finished = false → revision ≤ c.access.Revision) ∧
  ∀ t ∈ s.terminals, t.home ≠ .dropped → t.running = true → revision ≤ t.revision

/-- What a step from `s` to `s'` that returns `r` to a caller of `Apply` has to keep. -/
structure SoundStep (s s' : SSHServer) (r : Option ApplyReply) : Prop where
  revision : s.config.Revision ≤ s'.config.Revision
  admitted : ∀ access, s'.admissions = s.admissions ++ [access] →
    access.Revision = s.config.Revision ∧ s.config.Enabled = true ∧ s.config ∈ s.applied
  revoked : ∀ next, r = some { next := next, err := none } → NoneOlder s' next.Revision

/-! ## The invariant -/

def Cleanup.pending : Cleanup → List Nat
  | .closing items => items
  | _ => []

/-- It has closed its terminals. -/
def Cleanup.swept : Cleanup → Bool
  | .waiting | .done => true
  | _ => false

def SSHServer.cleanups (s : SSHServer) : List Cleanup :=
  (match s.update with | .cleaning _ own => [own] | _ => []) ++ s.abandoned

def InHands (s : SSHServer) (i : Nat) : Prop :=
  (∃ k ∈ s.cleanups, i ∈ k.pending) ∨ ∃ c ∈ s.connections, c.finished = false ∧ i ∈ c.killing

def UpdateCall.applying : UpdateCall → Option SSHConfig
  | .cancelling call _ | .cleaning call _ => call
  | .enabling next => some next
  | .free => none

/-- A connection that is not listed any more has no sessions. -/
def Idle (c : SSHConnection) : Prop := (c.listed = false → c.killing = []) ∧ (c.finished = true → c.listed = false)

structure ServerOk (s : SSHServer) : Prop where
  idle : ∀ c ∈ s.connections, Idle c
  enabled : s.config.Enabled = true → s.update = .free ∧ s.workLive = true ∧ s.config ∈ s.applied
  busy : s.update ≠ .free → s.workLive = false
  clean : s.workLive = true → NoneOlder s s.config.Revision
  closed : ∀ t ∈ s.terminals, t.close = .closed → t.running = true → s.shellsFailure.isSome = true
  taken : ∀ (i : Nat) (t : RetainedShell), s.terminals[i]? = some t → t.home = .taken → t.close ≠ .closed → InHands s i
  swept : ∀ call own, s.update = .cleaning call own → own ≠ .starting → ∀ t ∈ s.terminals, t.home ≠ .retained
  waited : ∀ call, s.update = .cleaning call .done → ∀ c ∈ s.connections, c.finished = true
  calls : ∀ next, s.update.applying = some next →
    s.config.Revision = next.Revision ∧ ∀ k ∈ s.abandoned, k.swept = true
  ready : ∀ next, s.update = .enabling next → (∀ c ∈ s.connections, c.finished = true) ∧
    ∀ t ∈ s.terminals, t.home ≠ .dropped → t.running = false

/-- What becomes of a terminal between two updates of the map. -/
structure Aged (t t' : RetainedShell) : Prop where
  revision : t'.revision = t.revision
  running : t'.running = true → t.running = true
  home : t'.home = t.home ∨ t.home = .retained ∧ t'.home ≠ .retained
  close : t.close = .closed → t'.close = .closed

theorem Aged.notDropped {t t' : RetainedShell} (h : Aged t t') (hn : t'.home ≠ .dropped) : t.home ≠ .dropped := by
  intro hd
  rcases h.home with he | ⟨hr, -⟩
  · exact hn (he.trans hd)
  · rw [hd] at hr; cases hr

/-- A step outside of the updates. -/
structure Frame (s s' : SSHServer) : Prop where
  config : s'.config = s.config
  update : s'.update = s.update
  workLive : s'.workLive = s.workLive
  applied : s'.applied = s.applied
  abandoned : s'.abandoned = s.abandoned
  connections : ∀ c' ∈ s'.connections, ∃ c ∈ s.connections, c'.access = c.access ∧ (c.finished = true → c'.finished = true)
  terminals : ∀ (i : Nat) (t' : RetainedShell), s'.terminals[i]? = some t' →
    ∃ t, s.terminals[i]? = some t ∧ Aged t t' ∧ (t'.home = .taken → t.home = .taken ∨ InHands s' i)
  idle : ∀ c ∈ s'.connections, Idle c
  hands : ∀ i, InHands s i → InHands s' i ∨ ∀ t ∈ s'.terminals[i]?, t.close = .closed
  closed : ∀ t ∈ s'.terminals, t.close = .closed → t.running = true → s'.shellsFailure.isSome = true

section
variable {s s' : SSHServer}

theorem NoneOlder.of_aged {revision : Nat} (h : NoneOlder s revision)
    (hc : ∀ c' ∈ s'.connections, ∃ c ∈ s.connections, c'.access = c.access ∧ (c.finished = true → c'.finished = true))
    (ht : ∀ t' ∈ s'.terminals, ∃ t ∈ s.terminals, Aged t t') : NoneOlder s' revision := by
  constructor
  · intro c' hc' hover
    obtain ⟨c, hmem, ha, ho⟩ := hc c' hc'
    rw [ha]
    apply h.1 c hmem
    rw [← Bool.not_eq_true]
    intro hcontra
    rw [ho hcontra] at hover
    cases hover
  · intro t' ht' hhome hrun
    obtain ⟨t, hmem, ha⟩ := ht t' ht'
    rw [ha.revision]
    exact h.2 t hmem (ha.notDropped hhome) (ha.running hrun)

theorem Frame.mem (h : Frame s s') {t' : RetainedShell} (ht : t' ∈ s'.terminals) : ∃ t ∈ s.terminals, Aged t t' := by
  obtain ⟨i, hi⟩ := List.mem_iff_getElem?.mp ht
  obtain ⟨t, hs, ha, -⟩ := h.terminals i t' hi
  exact ⟨t, List.mem_of_getElem? hs, ha⟩

theorem ServerOk.frame (h : ServerOk s) (hf : Frame s s') : ServerOk s' where
  idle := hf.idle
  enabled he := by
    rw [hf.config] at he ⊢
    rw [hf.update, hf.workLive, hf.applied]
    exact h.enabled he
  busy hb := by
    rw [hf.update] at hb
    rw [hf.workLive]
    exact h.busy hb
  clean hw := by
    rw [hf.workLive] at hw
    rw [hf.config]
    exact (h.clean hw).of_aged hf.connections fun t' ht => hf.mem ht
  closed := hf.closed
  taken i t' ht' hhome hclose := by
    obtain ⟨t, ht, ha, htook⟩ := hf.terminals i t' ht'
    rcases htook hhome with hold | hnew
    · rcases hf.hands i (h.taken i t ht hold fun hcl => hclose (ha.close hcl)) with hh | hh
      · exact hh
      · exact absurd (hh t' ht') hclose
    · exact hnew
  swept call own hu hne t' ht' hr := by
    rw [hf.update] at hu
    obtain ⟨t, ht, ha⟩ := hf.mem ht'
    refine h.swept call own hu hne t ht ?_
    rcases ha.home with he | ⟨-, hn⟩
    · rw [← he, hr]
    · exact absurd hr hn
  waited call hu c' hc' := by
    rw [hf.update] at hu
    obtain ⟨c, hc, -, ho⟩ := hf.connections c' hc'
    exact ho (h.waited call hu c hc)
  calls next hu := by
    rw [hf.update] at hu
    rw [hf.config, hf.abandoned]
    exact h.calls next hu
  ready next hu := by
    rw [hf.update] at hu
    obtain ⟨hover, hrun⟩ := h.ready next hu
    constructor
    · intro c' hc'
      obtain ⟨c, hc, -, ho⟩ := hf.connections c' hc'
      exact ho (hover c hc)
    · intro t' ht' hhome
      obtain ⟨t, ht, ha⟩ := hf.mem ht'
      rw [← Bool.not_eq_true]
      intro hr
      have hold := ha.running hr
      rw [hrun t ht (ha.notDropped hhome)] at hold
      cases hold

/-- What is to be shown of a step. -/
def Good (s : SSHServer) (x : Stepped) : Prop := ∀ s' r, x = some (s', r) → ServerOk s' ∧ SoundStep s s' r

theorem Good.none : Good s none := fun _ _ h => by cases h

theorem Good.quiet (hok : ServerOk s') (hr : s.config.Revision ≤ s'.config.Revision) (ha : s'.admissions = s.admissions) :
    Good s s'.quiet := by
  intro t r h
  cases h
  refine ⟨hok, hr, fun access he => ?_, fun _ he => (by cases he)⟩
  rw [ha] at he
  exact absurd (congrArg List.length he) (by simp)

theorem Good.same (hok : ServerOk s) : Good s s.quiet := .quiet hok (Nat.le_refl _) rfl

theorem Good.frame (hok : ServerOk s) (hf : Frame s s') (ha : s'.admissions = s.admissions) : Good s s'.quiet :=
  .quiet (hok.frame hf) (by rw [hf.config]) ha

theorem Good.fails (hok : ServerOk s') (next : SSHConfig) (err : String) (hr : s.config.Revision ≤ s'.config.Revision)
    (ha : s'.admissions = s.admissions) : Good s (s'.replies next (some err)) := by
  intro t r h
  cases h
  refine ⟨hok, hr, fun access he => ?_, fun _ he => (by cases he)⟩
  rw [ha] at he
  exact absurd (congrArg List.length he) (by simp)

/-! ## Steps outside of the updates -/

theorem Frame.terminal (hok : ServerOk s) (j : Nat) (f : RetainedShell → RetainedShell)
    (hf : ∀ t, s.terminals[j]? = some t → Aged t (f t) ∧ ((f t).home = .taken → t.home = .taken ∨ InHands s j) ∧
      ((f t).close = .closed → (f t).running = true → t.close = .closed ∧ t.running = true)) :
    Frame s (s.modifyTerminal j f) where
  config := rfl
  update := rfl
  workLive := rfl
  applied := rfl
  abandoned := rfl
  connections c hc := ⟨c, hc, rfl, id⟩
  terminals i t' ht' := by
    simp only [SSHServer.modifyTerminal, List.getElem?_modify] at ht'
    split at ht'
    · rename_i hij
      subst hij
      obtain ⟨t, ht, rfl⟩ := Option.map_eq_some_iff.mp ht'
      exact ⟨t, ht, (hf t ht).1, (hf t ht).2.1⟩
    · rw [Option.map_eq_map, Option.map_id'] at ht'
      exact ⟨t', ht', ⟨rfl, id, .inl rfl, id⟩, .inl⟩
  idle := hok.idle
  hands i hi := .inl hi
  closed t' ht' hcl hrun := by
    obtain ⟨i, hi⟩ := List.mem_iff_getElem?.mp ht'
    simp only [SSHServer.modifyTerminal, List.getElem?_modify] at hi
    split at hi
    · rename_i hij
      subst hij
      obtain ⟨t, ht, rfl⟩ := Option.map_eq_some_iff.mp hi
      obtain ⟨hcl', hrun'⟩ := (hf t ht).2.2 hcl hrun
      exact hok.closed t (List.mem_of_getElem? ht) hcl' hrun'
    · rw [Option.map_eq_map, Option.map_id'] at hi
      exact hok.closed t' (List.mem_of_getElem? hi) hcl hrun

theorem mem_modify {cs : List SSHConnection} {j : Nat} {f : SSHConnection → SSHConnection} {c' : SSHConnection}
    (h : c' ∈ cs.modify j f) : c' ∈ cs ∨ ∃ c, cs[j]? = some c ∧ c' = f c := by
  obtain ⟨i, hi⟩ := List.mem_iff_getElem?.mp h
  rw [List.getElem?_modify] at hi
  split at hi
  · rename_i hij
    subst hij
    obtain ⟨c, hc, rfl⟩ := Option.map_eq_some_iff.mp hi
    exact .inr ⟨c, hc, rfl⟩
  · rw [Option.map_eq_map, Option.map_id'] at hi
    exact .inl (List.mem_of_getElem? hi)

theorem modify_mem {cs : List SSHConnection} {j : Nat} {f : SSHConnection → SSHConnection} {c : SSHConnection}
    (h : c ∈ cs) : c ∈ cs.modify j f ∨ cs[j]? = some c ∧ f c ∈ cs.modify j f := by
  obtain ⟨i, hi⟩ := List.mem_iff_getElem?.mp h
  by_cases hij : j = i
  · subst hij
    refine .inr ⟨hi, List.mem_of_getElem? (i := j) ?_⟩
    rw [List.getElem?_modify, hi]
    simp
  · refine .inl (List.mem_of_getElem? (i := i) ?_)
    rw [List.getElem?_modify, hi]
    simp [hij]

theorem Frame.connection (hok : ServerOk s) (j : Nat) (f : SSHConnection → SSHConnection)
    (hf : ∀ c, s.connections[j]? = some c → (f c).access = c.access ∧ (c.finished = true → (f c).finished = true) ∧ Idle (f c) ∧
      (c.finished = false → ∀ i ∈ c.killing,
        (f c).finished = false ∧ i ∈ (f c).killing ∨ ∀ t ∈ s.terminals[i]?, t.close = .closed)) :
    Frame s (s.modifyConnection j f) where
  config := rfl
  update := rfl
  workLive := rfl
  applied := rfl
  abandoned := rfl
  connections c' hc' := by
    rcases mem_modify hc' with hc | ⟨c, hc, rfl⟩
    · exact ⟨c', hc, rfl, id⟩
    · exact ⟨c, List.mem_of_getElem? hc, (hf c hc).1, (hf c hc).2.1⟩
  terminals i t ht := ⟨t, ht, ⟨rfl, id, .inl rfl, id⟩, .inl⟩
  idle c' hc' := by
    rcases mem_modify hc' with hc | ⟨c, hc, rfl⟩
    · exact hok.idle c' hc
    · exact (hf c hc).2.2.1
  hands i hi := by
    rcases hi with hk | ⟨c, hc, hover, hkill⟩
    · exact .inl (.inl hk)
    · rcases modify_mem (j := j) (f := f) hc with hc' | ⟨hj, hc'⟩
      · exact .inl (.inr ⟨c, hc', hover, hkill⟩)
      · rcases (hf c hj).2.2.2 hover i hkill with ⟨ho, hk⟩ | hcl
        · exact .inl (.inr ⟨f c, hc', ho, hk⟩)
        · exact .inr hcl
  closed := hok.closed

/-- The step touches nothing that the invariant is about. -/
theorem Frame.rest (hok : ServerOk s) (hc : s'.config = s.config) (hu : s'.update = s.update)
    (hw : s'.workLive = s.workLive) (ha : s'.applied = s.applied) (hab : s'.abandoned = s.abandoned)
    (hcs : s'.connections = s.connections) (ht : s'.terminals = s.terminals)
    (hf : s.shellsFailure.isSome = true → s'.shellsFailure.isSome = true) : Frame s s' where
  config := hc
  update := hu
  workLive := hw
  applied := ha
  abandoned := hab
  connections c h := ⟨c, hcs ▸ h, rfl, id⟩
  terminals i t h := ⟨t, ht ▸ h, ⟨rfl, id, .inl rfl, id⟩, .inl⟩
  idle c h := hok.idle c (hcs ▸ h)
  hands i h := by
    refine .inl ?_
    unfold InHands SSHServer.cleanups at h ⊢
    rw [hu, hab, hcs]
    exact h
  closed t h hcl hr := hf (hok.closed t (ht ▸ h) hcl hr)

theorem session_some {i : Nat} {c : SSHConnection} (h : s.session i = some c) :
    s.connections[i]? = some c ∧ c.listed = true := by
  unfold SSHServer.session at h
  exact Option.filter_eq_some_iff.mp h

theorem current_spec {access : SSHAccess} (h : s.currentLocked access = true) :
    s.config.Enabled = true ∧ access.Revision = s.config.Revision := by
  unfold SSHServer.currentLocked at h
  simp only [Bool.and_eq_true, decide_eq_true_eq] at h
  exact ⟨h.1.1.2, h.2⟩

/-- An admission under the current configuration. -/
theorem SoundStep.admits (hok : ServerOk s) {access : SSHAccess} (hc : s.currentLocked access = true)
    (hconf : s'.config = s.config) (ha : s'.admissions = s.admissions ++ [access]) : SoundStep s s' none := by
  obtain ⟨he, hr⟩ := current_spec hc
  refine ⟨by rw [hconf], fun access' h => ?_, fun _ h => by cases h⟩
  rw [ha] at h
  obtain rfl : access = access' := by simpa using h
  exact ⟨hr, he, (hok.enabled he).2.2⟩

/-- New connections and terminals of the current revision, while it is enabled. -/
theorem ServerOk.grows (hok : ServerOk s) (he : s.config.Enabled = true) (cs : List SSHConnection)
    (ts : List RetainedShell) (admissions : List SSHAccess)
    (hcs : ∀ c ∈ cs, c.access.Revision = s.config.Revision ∧ Idle c)
    (hts : ∀ t ∈ ts, t.revision = s.config.Revision ∧ t.home = .retained ∧ t.close = .never) :
    ServerOk { s with
      connections := s.connections ++ cs, terminals := s.terminals ++ ts, admissions := admissions } := by
  obtain ⟨hfree, hlive, happ⟩ := hok.enabled he
  have hold := hok.clean hlive
  constructor
  · intro c hc
    rcases List.mem_append.mp hc with hc | hc
    · exact hok.idle c hc
    · exact (hcs c hc).2
  · exact fun _ => ⟨hfree, hlive, happ⟩
  · exact fun hb => absurd hfree hb
  · intro _
    constructor
    · intro c hc hover
      rcases List.mem_append.mp hc with hc | hc
      · exact hold.1 c hc hover
      · exact Nat.le_of_eq (hcs c hc).1.symm
    · intro t ht hh hr
      rcases List.mem_append.mp ht with ht | ht
      · exact hold.2 t ht hh hr
      · exact Nat.le_of_eq (hts t ht).1.symm
  · intro t ht hcl hr
    rcases List.mem_append.mp ht with ht | ht
    · exact hok.closed t ht hcl hr
    · rw [(hts t ht).2.2] at hcl
      cases hcl
  · intro i t ht hh hcl
    simp only at ht
    rw [List.getElem?_append] at ht
    split at ht
    · rcases hok.taken i t ht hh hcl with hk | ⟨c, hc, hover, hkill⟩
      · exact .inl hk
      · exact .inr ⟨c, List.mem_append_left _ hc, hover, hkill⟩
    · rw [(hts t (List.mem_of_getElem? ht)).2.1] at hh
      cases hh
  · intro call own hu
    rw [show s.update = .cleaning call own from hu] at hfree
    cases hfree
  · intro call hu
    rw [show s.update = .cleaning call .done from hu] at hfree
    cases hfree
  · intro next hu
    simp only [hfree, UpdateCall.applying] at hu
    cases hu
  · intro next hu
    rw [show s.update = .enabling next from hu] at hfree
    cases hfree

/-! ## Connections and terminals -/

theorem serve_good (hok : ServerOk s) (access : SSHAccess) (ctxLive : Bool) : Good s (s.ServeConn access ctxLive) := by
  unfold SSHServer.ServeConn
  split
  · exact .same hok
  · rename_i hnot
    simp only [Bool.or_eq_true, Bool.not_eq_true', not_or, Bool.not_eq_false] at hnot
    obtain ⟨he, hr⟩ := current_spec hnot.1.1
    intro s' r h
    cases h
    refine ⟨?_, .admits hok hnot.1.1 rfl rfl⟩
    have h := hok.grows he [{ access := access }] [] (s.admissions ++ [access])
      (fun c hc => by
        rw [List.mem_singleton.mp hc]
        exact ⟨hr, fun h => (by cases h), fun h => (by cases h)⟩)
      (fun t ht => by cases ht)
    simpa only [List.append_nil] using h

theorem unlist_good (hok : ServerOk s) (i : Nat) : Good s (s.unlist i) := by
  unfold SSHServer.unlist
  split
  · rename_i c hc
    split
    · rename_i hguard
      refine .frame hok (.connection hok i _ fun x hx => ⟨rfl, id, ⟨fun _ => ?_, fun _ => rfl⟩, fun ho j hj => .inl ⟨ho, hj⟩⟩) rfl
      rw [(session_some hc).1, Option.some.injEq] at hx
      rw [← hx, hguard.2]
    · exact .none
  · exact .none

theorem wgDone_good (hok : ServerOk s) (i : Nat) : Good s (s.wgDone i) := by
  unfold SSHServer.wgDone
  split
  · rename_i c hc
    split
    · rename_i hguard
      simp only [Bool.and_eq_true, Bool.not_eq_true'] at hguard
      have hkill := (hok.idle c (List.mem_of_getElem? hc)).1 hguard.1
      refine .frame hok (.connection hok i _ fun x hx => ?_) rfl
      rw [hc, Option.some.injEq] at hx
      subst hx
      refine ⟨rfl, fun _ => rfl, ⟨fun _ => hkill, fun _ => hguard.1⟩, fun _ j hj => ?_⟩
      rw [hkill] at hj
      cases hj
    · exact .none
  · exact .none

theorem commandFailed_good (hok : ServerOk s) (i : Nat) (err : String) : Good s (s.recordCommandCleanup i err) := by
  unfold SSHServer.recordCommandCleanup
  split
  · exact .frame hok (.rest hok rfl rfl rfl rfl rfl rfl rfl id) rfl
  · exact .none

theorem drop_frame (hok : ServerOk s) {j : Nat} (h : s.isOldest j = true) :
    Frame s (s.modifyTerminal j fun t => { t with home := .dropped }) := by
  refine .terminal hok j _ fun t ht => ⟨⟨rfl, id, .inr ⟨?_, fun hh => (by cases hh)⟩, id⟩,
    fun hh => (by cases hh), fun hcl hr => ⟨hcl, hr⟩⟩
  unfold SSHServer.isOldest at h
  rw [ht] at h
  simp only [SSHServer.eligible, Bool.and_eq_true, decide_eq_true_eq] at h
  exact h.1.1.1

/-- `s₀` is the state before room was made. -/
theorem open_good {s₀ : SSHServer} (hok : ServerOk s) {access : SSHAccess} (hc : s.currentLocked access = true)
    (h₀ : ServerOk s₀) (hconf : s.config = s₀.config) (hadm : s.admissions = s₀.admissions)
    (hc₀ : s₀.currentLocked access = true) (name : String) (opened : Bool) :
    Good s₀ (s.openTerminal access name opened) := by
  obtain ⟨he, hr⟩ := current_spec hc
  unfold SSHServer.openTerminal
  split
  · exact .quiet hok (by rw [hconf]) hadm
  · intro s' r h
    cases h
    refine ⟨?_, .admits h₀ hc₀ hconf (by rw [hadm])⟩
    have h := hok.grows he [] [{ id := name, revision := access.Revision, workCtx := s.workCtx }]
      (s.admissions ++ [access]) (fun c hc => by cases hc)
      (fun t ht => by rw [List.mem_singleton.mp ht]; exact ⟨hr, rfl, rfl⟩)
    simpa only [List.append_nil] using h

theorem newTerminal_good (hok : ServerOk s) (i : Nat) (name random : String) (opened : Bool) (oldest : Nat) :
    Good s (s.newTerminal i name random opened oldest) := by
  unfold SSHServer.newTerminal
  split
  · exact .none
  · rename_i c _
    simp only
    generalize (if name = "" then random else name) = name
    split
    · exact .same hok
    · rename_i hnot
      simp only [Bool.or_eq_true, Bool.not_eq_true', not_or, Bool.not_eq_false] at hnot
      have hcur := hnot.1.2
      split
      · exact open_good hok hcur hok rfl rfl hcur _ _
      split
      · exact .same hok
      split
      · rename_i hold
        exact open_good (hok.frame (drop_frame hok hold)) hcur hok rfl rfl hcur _ _
      · exact .none

theorem attach_good (hok : ServerOk s) (i : Nat) (name : String) : Good s (s.attachTerminal i name) := by
  unfold SSHServer.attachTerminal
  split
  · exact .none
  · rename_i c hc
    split
    · exact .same hok
    · rename_i hcur
      rw [Bool.not_eq_true', Bool.not_eq_false] at hcur
      split
      · exact .same hok
      · rename_i j _
        split
        · have h₁ := hok.frame (.terminal hok j (fun t => { t with attached := true })
            fun t _ => ⟨⟨rfl, id, .inl rfl, id⟩, .inl, fun hcl hr => ⟨hcl, hr⟩⟩)
          have h₂ := h₁.frame (.connection h₁ i (fun c => { c with attached := j :: c.attached })
            fun c hc => ⟨rfl, id, h₁.idle c (List.mem_of_getElem? hc), fun ho k hk => .inl ⟨ho, hk⟩⟩)
          intro s' r h
          cases h
          exact ⟨h₂.frame (.rest h₂ rfl rfl rfl rfl rfl rfl rfl id), .admits hok hcur rfl rfl⟩
        · exact .same hok

theorem detach_good (hok : ServerOk s) (i j : Nat) : Good s (s.detachTerminal i j) := by
  unfold SSHServer.detachTerminal
  split
  · exact .none
  · split
    · have h₁ := hok.frame (.terminal hok j (fun t =>
          { t with attached := false, home := if t.home = .retained ∧ t.ended then .dropped else t.home }) fun t _ => by
        refine ⟨⟨rfl, id, ?_, id⟩, fun hh => ?_, fun hcl hr => ⟨hcl, hr⟩⟩
        · by_cases hd : t.home = .retained ∧ t.ended = true
          · exact .inr ⟨hd.1, by simp [hd]⟩
          · exact .inl (if_neg hd)
        · simp only at hh
          split at hh
          · cases hh
          · exact .inl hh)
      have h₂ := h₁.frame (.connection h₁ i (fun c => { c with attached := c.attached.erase j })
        fun c hc => ⟨rfl, id, h₁.idle c (List.mem_of_getElem? hc), fun ho k hk => .inl ⟨ho, hk⟩⟩)
      exact .quiet h₂ (Nat.le_refl _) rfl
    · exact .none

theorem findRetained_some {name : String} {j : Nat} (h : s.findRetained name = some j) :
    ∃ t, s.terminals[j]? = some t ∧ t.home = .retained ∧ t.id = name := by
  unfold SSHServer.findRetained at h
  obtain ⟨hlt, hp, -⟩ := List.findIdx?_eq_some_iff_getElem.mp h
  simp only [Bool.and_eq_true, decide_eq_true_eq] at hp
  exact ⟨_, List.getElem?_eq_getElem hlt, hp⟩

theorem kill_good (hok : ServerOk s) (i : Nat) (name : String) : Good s (s.killTerminal i name) := by
  unfold SSHServer.killTerminal
  split
  · exact .none
  · rename_i c hc
    obtain ⟨hi, hlisted⟩ := session_some hc
    split
    · exact .same hok
    · split
      · exact .same hok
      · rename_i j hj
        obtain ⟨t, ht, hhome, -⟩ := findRetained_some hj
        have hover : c.finished = false := by
          rw [← Bool.not_eq_true]
          intro ho
          rw [(hok.idle c (List.mem_of_getElem? hi)).2 ho] at hlisted
          cases hlisted
        have h₁ := hok.frame (.connection hok i (fun c => { c with killing := j :: c.killing })
          fun x hx => by
            rw [hi, Option.some.injEq] at hx
            subst hx
            refine ⟨rfl, id, ⟨fun hl => ?_, (hok.idle c (List.mem_of_getElem? hi)).2⟩,
              fun ho k hk => .inl ⟨ho, List.mem_cons_of_mem _ hk⟩⟩
            rw [show c.listed = false from hl] at hlisted
            cases hlisted)
        have hhands : InHands (s.modifyConnection i fun c => { c with killing := j :: c.killing }) j := by
          refine .inr ⟨{ c with killing := j :: c.killing }, List.mem_of_getElem? (i := i) ?_, hover, List.mem_cons_self ..⟩
          simp [SSHServer.modifyConnection, hi]
        have h₂ := h₁.frame (.terminal h₁ j (fun t => { t with home := .taken }) fun t' ht' => by
          refine ⟨⟨rfl, id, .inr ⟨?_, fun hh => (by cases hh)⟩, id⟩, fun _ => .inr hhands, fun hcl hr => ⟨hcl, hr⟩⟩
          rw [show s.terminals[j]? = some t' from ht', Option.some.injEq] at ht
          rw [ht, hhome])
        exact .quiet h₂ (Nat.le_refl _) rfl

theorem killed_good (hok : ServerOk s) (i j : Nat) : Good s (s.killed i j) := by
  unfold SSHServer.killed
  split
  · exact .none
  · split
    · rename_i hguard
      refine .frame hok (.connection hok i _ fun c hc => ⟨rfl, id, ⟨fun hl => ?_,
        (hok.idle c (List.mem_of_getElem? hc)).2⟩, fun ho k hk => ?_⟩) rfl
      · simp only
        rw [(hok.idle c (List.mem_of_getElem? hc)).1 hl]
        rfl
      by_cases hkj : k = j
      · refine .inr fun t ht => ?_
        have hcl := hguard.2
        rw [← hkj, Option.mem_def.mp ht] at hcl
        simpa using hcl
      · exact .inl ⟨ho, List.mem_filter.mpr ⟨hk, decide_eq_true hkj⟩⟩
    · exact .none

theorem outputEnds_good (hok : ServerOk s) (j time : Nat) : Good s (s.outputEnds j time) :=
  .frame hok (.terminal hok j _ fun _ _ => ⟨⟨rfl, id, .inl rfl, id⟩, .inl, fun hcl hr => ⟨hcl, hr⟩⟩) rfl

theorem exits_good (hok : ServerOk s) (j : Nat) : Good s (s.exits j) :=
  .frame hok (.terminal hok j _ fun _ _ =>
    ⟨⟨rfl, fun h => (by cases h), .inl rfl, id⟩, .inl, fun _ hr => (by cases hr)⟩) rfl

theorem beginClose_good (hok : ServerOk s) (j : Nat) : Good s (s.beginClose j) := by
  unfold SSHServer.beginClose
  split
  · rename_i t ht
    split
    · rename_i hguard
      refine .frame hok (.terminal hok j _ fun t' ht' => ⟨⟨rfl, id, .inl rfl, fun hcl => ?_⟩, .inl,
        fun hcl => (by cases hcl)⟩) rfl
      rw [ht, Option.some.injEq] at ht'
      rw [← ht', hguard.1] at hcl
      cases hcl
    · exact .none
  · exact .none

theorem endClose_good (hok : ServerOk s) (j : Nat) (err : Option String) : Good s (s.endClose j err) := by
  unfold SSHServer.endClose
  split
  · rename_i t ht
    split
    · rename_i hguard
      refine .quiet (hok.frame ?_) (Nat.le_refl _) rfl
      constructor <;> try rfl
      · exact fun c hc => ⟨c, hc, rfl, id⟩
      · intro i t' ht'
        simp only [SSHServer.modifyTerminal, List.getElem?_modify] at ht'
        split at ht'
        · rename_i hij
          subst hij
          obtain ⟨t₀, ht₀, rfl⟩ := Option.map_eq_some_iff.mp ht'
          exact ⟨t₀, ht₀, ⟨rfl, id, .inl rfl, fun _ => rfl⟩, .inl⟩
        · rw [Option.map_eq_map, Option.map_id'] at ht'
          exact ⟨t', ht', ⟨rfl, id, .inl rfl, id⟩, .inl⟩
      · exact hok.idle
      · exact fun i hi => .inl hi
      · intro t' ht' hcl hr
        obtain ⟨i, hi⟩ := List.mem_iff_getElem?.mp ht'
        cases err with
        | some e => rfl
        | none =>
          simp only [SSHServer.modifyTerminal, List.getElem?_modify] at hi
          split at hi
          · rename_i hij
            subst hij
            obtain ⟨t₀, ht₀, rfl⟩ := Option.map_eq_some_iff.mp hi
            rw [ht, Option.some.injEq] at ht₀
            rw [← ht₀] at hr
            rw [hguard.2 rfl] at hr
            cases hr
          · rw [Option.map_eq_map, Option.map_id'] at hi
            exact hok.closed t' (List.mem_of_getElem? hi) hcl hr
    · exact .none
  · exact .none

end

end Webshell
