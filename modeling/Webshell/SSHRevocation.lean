import Webshell.SSHSessions

/-!
# Revocation

An update cancels the old sessions and waits for its cleanup before it renews
the work context, so that nothing older than the new configuration runs then.
An update that does not wait, or waits for the wrong cleanup, answers too early.
-/

namespace Webshell

section
variable {s s' : SSHServer}

/-! ## Updates -/

/-- The configuration that is published while the old sessions end. -/
theorem ServerOk.disables (hok : ServerOk s) (hfree : s.update = .free) {config : SSHConfig} (he : config.Enabled = false)
    (call : Option SSHConfig) (items : List Nat) (closed : Bool)
    (hcall : ∀ next, call = some next → config.Revision = next.Revision ∧ ∀ k ∈ s.abandoned, k.swept = true) :
    ServerOk { s with
      closed := closed, config := config, workLive := false, update := .cancelling call items } where
  idle := hok.idle
  enabled h := by rw [he] at h; cases h
  busy _ := rfl
  clean h := by cases h
  closed := hok.closed
  taken i t ht hh hcl := by
    have h := hok.taken i t ht hh hcl
    unfold InHands SSHServer.cleanups at h ⊢
    rw [hfree] at h
    exact h
  swept _ _ h := by cases h
  waited _ h := by cases h
  calls next h := hcall next h
  ready _ h := by cases h

/-- The call comes to compare the revisions. -/
def Compares (bcryptCost : String → Option Int) (s : SSHServer) (next : SSHConfig) : Prop :=
  next.Revision ≠ 0 ∧ (next.Enabled = true → validatePasswordHash bcryptCost next.PasswordHash = none) ∧
    s.update = .free ∧ ¬ (s.closed = true ∨ s.expired = true)

/-- An `Apply` that repeats the configuration finds the work context live, and one that is newer
finds no abandoned cleanup that has terminals to close. -/
def CleanupOver (bcryptCost : String → Option Int) (s : SSHServer) (e : SSHEvent) : Prop :=
  ∀ next, e = .apply next → Compares bcryptCost s next →
    (next = s.config → s.workLive = true) ∧
    (s.config.Revision < next.Revision → ∀ k ∈ s.abandoned, k.swept = true)

theorem apply_good {bcryptCost : String → Option Int} (hok : ServerOk s) {next : SSHConfig}
    (hc : CleanupOver bcryptCost s (.apply next)) : Good s (s.Apply bcryptCost next) := by
  unfold SSHServer.Apply
  split
  · exact .fails hok _ _ (Nat.le_refl _) rfl
  rename_i hzero
  split
  · exact .fails hok _ _ (Nat.le_refl _) rfl
  · rename_i hvalid
    split
    · exact .none
    rename_i hfree
    rw [ne_eq, not_not] at hfree
    split
    · exact .fails hok _ _ (Nat.le_refl _) rfl
    rename_i hopen
    have hover := hc next rfl ⟨hzero, fun he => by rwa [if_pos he] at hvalid, hfree, hopen⟩
    split
    · exact .fails hok _ _ (Nat.le_refl _) rfl
    rename_i hstale
    split
    · rename_i hrev
      by_cases hsame : next = s.config
      · rw [if_pos hsame]
        intro s' r h
        cases h
        refine ⟨hok, Nat.le_refl _, fun access ha => ?_, fun next' hr => ?_⟩
        · exact absurd (congrArg List.length ha) (by simp)
        · cases hr
          rw [hrev]
          exact hok.clean (hover.1 hsame)
      · rw [if_neg hsame]
        exact .fails hok _ _ (Nat.le_refl _) rfl
    · rename_i hrev
      refine .quiet (hok.disables hfree rfl _ _ s.closed fun next' hn => ?_) (by simp only; omega) rfl
      cases hn
      exact ⟨rfl, hover.2 (by omega)⟩

theorem close_good (hok : ServerOk s) : Good s s.Close := by
  unfold SSHServer.Close
  split
  · exact .none
  · rename_i hfree
    rw [ne_eq, not_not] at hfree
    exact .quiet (hok.disables hfree rfl none _ true fun _ h => by cases h) (Nat.le_refl _) rfl

/-- What the invariant reads of a connection does not say whether it was cancelled. -/
def uncancelled (c : SSHConnection) : SSHConnection := { c with cancelled := false }

theorem cancel_same (items : List Nat) : ∀ cs : List SSHConnection,
    (items.foldl (fun cs i => cs.modify i fun c => { c with cancelled := true }) cs).map uncancelled =
      cs.map uncancelled := by
  induction items with
  | nil => exact fun _ => rfl
  | cons i items ih =>
    intro cs
    rw [List.foldl_cons, ih]
    apply List.ext_getElem?
    intro j
    rw [List.getElem?_map, List.getElem?_map, List.getElem?_modify]
    by_cases hij : i = j
    · subst hij
      cases cs[i]? <;> simp [uncancelled]
    · simp [hij]

theorem mem_uncancelled {cs cs' : List SSHConnection} (h : cs'.map uncancelled = cs.map uncancelled) {c' : SSHConnection}
    (hc : c' ∈ cs') : ∃ c ∈ cs, c = { c' with cancelled := c.cancelled } := by
  have hm : uncancelled c' ∈ cs.map uncancelled := h ▸ List.mem_map_of_mem hc
  obtain ⟨c, hmem, he⟩ := List.mem_map.mp hm
  refine ⟨c, hmem, ?_⟩
  obtain ⟨_, _, _, _, _, _⟩ := c
  obtain ⟨_, _, _, _, _, _⟩ := c'
  simp only [uncancelled, SSHConnection.mk.injEq] at he ⊢
  exact ⟨he.1, he.2.1, trivial, he.2.2.2⟩

theorem cancelItems_good (hok : ServerOk s) : Good s s.cancelItems := by
  unfold SSHServer.cancelItems
  split
  · rename_i call items hu
    have hsame := cancel_same items s.connections
    have hlive : s.workLive = false := hok.busy (by rw [hu]; exact nofun)
    have hoff : s.config.Enabled ≠ true := fun he => by
      rw [(hok.enabled he).2.1] at hlive
      cases hlive
    refine .quiet ⟨?_, fun he => absurd he hoff, fun _ => hlive, fun h => ?_, hok.closed, ?_, ?_, ?_, ?_, ?_⟩
      (Nat.le_refl _) rfl
    · intro c' hc'
      obtain ⟨c, hc, he⟩ := mem_uncancelled hsame hc'
      have hi := hok.idle c hc
      rw [he] at hi
      exact hi
    · rw [show s.workLive = true from h] at hlive
      cases hlive
    · intro i t ht hh hcl
      rcases hok.taken i t ht hh hcl with ⟨k, hk, hi⟩ | ⟨c, hc, hover, hkill⟩
      · refine .inl ⟨k, ?_, hi⟩
        unfold SSHServer.cleanups at hk ⊢
        rw [hu, List.nil_append] at hk
        exact List.mem_append_right _ hk
      · obtain ⟨c', hc', he⟩ := mem_uncancelled hsame.symm hc
        rw [he] at hc'
        exact .inr ⟨_, hc', hover, hkill⟩
    · intro call' own h hne
      cases h
      exact absurd rfl hne
    · intro call' h
      cases h
    · intro next h
      exact hok.calls next (by rw [hu]; exact h)
    · intro next h
      cases h
  · exact .none

/-! ## Cleanups -/

/-- One step of a cleanup's goroutine. -/
structure Cleaned (s : SSHServer) (k : Cleanup) (s₁ : SSHServer) (k' : Cleanup) : Prop where
  rest : s₁ = { s with terminals := s₁.terminals }
  terminals : ∀ (i : Nat) (t' : RetainedShell), s₁.terminals[i]? = some t' →
    ∃ t, s.terminals[i]? = some t ∧ Aged t t' ∧ t'.close = t.close ∧ t'.running = t.running ∧
      (t'.home = .taken → t.home = .taken ∨ i ∈ k'.pending)
  pending : ∀ i ∈ k.pending, i ∈ k'.pending ∨ ∀ t ∈ s₁.terminals[i]?, t.close = .closed
  swept : k.swept = true → k'.swept = true
  started : k' ≠ .starting
  took : k = .starting → ∀ t ∈ s₁.terminals, t.home ≠ .retained
  waited : k' = .done → ∀ c ∈ s.connections, c.finished = true

theorem cleanup_spec {s₁ : SSHServer} {k k' : Cleanup} (h : s.cleanup k = some (s₁, k')) : Cleaned s k s₁ k' := by
  have hself : ∀ (i : Nat) (t' : RetainedShell), s.terminals[i]? = some t' →
      ∃ t, s.terminals[i]? = some t ∧ Aged t t' ∧ t'.close = t.close ∧ t'.running = t.running ∧
        (t'.home = .taken → t.home = .taken ∨ i ∈ k'.pending) :=
    fun i t ht => ⟨t, ht, ⟨rfl, id, .inl rfl, id⟩, rfl, rfl, .inl⟩
  unfold SSHServer.cleanup at h
  split at h
  · cases h
    refine ⟨rfl, fun i t' ht' => ?_, fun i hi => (by cases hi), fun h => (by cases h), nofun, fun _ t' ht' => ?_,
      fun h => (by cases h)⟩
    · simp only [SSHServer.closeRetained, List.getElem?_map] at ht'
      obtain ⟨t, ht, rfl⟩ := Option.map_eq_some_iff.mp ht'
      refine ⟨t, ht, ?_⟩
      by_cases hr : t.home = .retained
      · simp only [hr, if_true]
        refine ⟨⟨rfl, id, .inr ⟨hr, nofun⟩, id⟩, trivial, trivial, fun _ => .inr (List.mem_filter.mpr ⟨?_, ?_⟩)⟩
        · exact List.mem_range.mpr (List.getElem?_eq_some_iff.mp ht).1
        · rw [ht]
          exact decide_eq_true hr
      · simp only [hr, if_false]
        exact ⟨⟨rfl, id, .inl rfl, id⟩, trivial, trivial, .inl⟩
    · obtain ⟨t, -, rfl⟩ := List.mem_map.mp ht'
      split
      · exact nofun
      · assumption
  · cases h
    exact ⟨rfl, hself, fun i hi => (by cases hi), fun h => (by cases h), nofun, fun h => (by cases h), fun h => (by cases h)⟩
  · rename_i j items
    simp only [Option.ite_none_right_eq_some, Option.some.injEq, Prod.mk.injEq] at h
    obtain ⟨hcl, rfl, rfl⟩ := h
    refine ⟨rfl, hself, fun i hi => ?_, fun h => (by cases h), nofun, fun h => (by cases h), fun h => (by cases h)⟩
    rcases List.mem_cons.mp hi with rfl | hi
    · refine .inr fun t ht => ?_
      rw [Option.mem_def.mp ht] at hcl
      simpa using hcl
    · exact .inl hi
  · simp only [Option.ite_none_right_eq_some, Option.some.injEq, Prod.mk.injEq] at h
    obtain ⟨hover, rfl, rfl⟩ := h
    refine ⟨rfl, hself, fun i hi => (by cases hi), fun _ => rfl, nofun, fun h => (by cases h), fun _ c hc => ?_⟩
    exact List.all_eq_true.mp hover c hc
  · cases h

section
variable {s₁ : SSHServer} {k k' : Cleanup}

theorem Cleaned.mem (h : Cleaned s k s₁ k') {t' : RetainedShell} (ht : t' ∈ s₁.terminals) :
    ∃ t ∈ s.terminals, Aged t t' ∧ t'.close = t.close ∧ t'.running = t.running := by
  obtain ⟨i, hi⟩ := List.mem_iff_getElem?.mp ht
  obtain ⟨t, hs, ha, hcl, hr, -⟩ := h.terminals i t' hi
  exact ⟨t, List.mem_of_getElem? hs, ha, hcl, hr⟩

theorem Cleaned.closed (h : Cleaned s k s₁ k') (hok : ServerOk s) :
    ∀ t ∈ s₁.terminals, t.close = .closed → t.running = true → s.shellsFailure.isSome = true := by
  intro t' ht' hcl hr
  obtain ⟨t, ht, -, hc, hrun⟩ := h.mem ht'
  exact hok.closed t ht (hc ▸ hcl) (hrun ▸ hr)

/-- `k'` has taken the place of `k` in `s'`. -/
theorem Cleaned.taken (h : Cleaned s k s₁ k') (hok : ServerOk s) (hcs : s'.connections = s.connections)
    (hother : ∀ x ∈ s.cleanups, x ∈ s'.cleanups ∨ x = k) (hmem : k' ∈ s'.cleanups) (i : Nat) (t' : RetainedShell)
    (ht' : s₁.terminals[i]? = some t') (hh : t'.home = .taken) (hcl : t'.close ≠ .closed) : InHands s' i := by
  obtain ⟨t, ht, -, hc, -, htook⟩ := h.terminals i t' ht'
  rcases htook hh with hold | hnew
  · rcases hok.taken i t ht hold (hc ▸ hcl) with ⟨x, hx, hi⟩ | hconn
    · rcases hother x hx with hx' | rfl
      · exact .inl ⟨x, hx', hi⟩
      · rcases h.pending i hi with hp | hp
        · exact .inl ⟨k', hmem, hp⟩
        · exact absurd (hp t' ht') hcl
    · exact .inr (hcs ▸ hconn)
  · exact .inl ⟨k', hmem, hnew⟩

end

/-! ## The steps of an update -/

/-- While an update is on, nothing is admitted. -/
theorem ServerOk.disabled (hok : ServerOk s) (hu : s.update ≠ .free) : s.config.Enabled ≠ true ∧ s.workLive = false :=
  ⟨fun he => hu (hok.enabled he).1, hok.busy hu⟩

theorem ownCleanup_good (hok : ServerOk s) : Good s s.ownCleanup := by
  unfold SSHServer.ownCleanup
  split
  · rename_i call own hu
    split
    · rename_i s₁ own' hk
      have hc := cleanup_spec hk
      obtain ⟨hoff, hlive⟩ := hok.disabled (by rw [hu]; exact nofun)
      rw [hc.rest]
      refine .quiet ⟨hok.idle, fun he => absurd he hoff, fun _ => hlive, fun h => ?_, hc.closed hok, ?_, ?_, ?_, ?_, ?_⟩
        (Nat.le_refl _) rfl
      · rw [show s.workLive = true from h] at hlive
        cases hlive
      · refine hc.taken hok rfl (fun x hx => ?_) (List.mem_append_left _ (List.mem_singleton.mpr rfl))
        unfold SSHServer.cleanups at hx ⊢
        simp only [hu, List.cons_append, List.nil_append, List.mem_cons] at hx ⊢
        exact hx.elim .inr fun h => .inl (.inr h)
      · intro call' k h _ t' ht'
        by_cases hstart : own = .starting
        · exact hc.took hstart t' ht'
        · obtain ⟨t, ht, ha, -⟩ := hc.mem ht'
          have hold := hok.swept call own hu hstart t ht
          rcases ha.home with he | ⟨-, hn⟩
          · rw [he]; exact hold
          · exact hn
      · intro call' h c hcon
        cases h
        exact hc.waited rfl c hcon
      · intro next h
        exact hok.calls next (by rw [hu]; exact h)
      · intro next h
        cases h
    · exact .none
  · exact .none

theorem oldCleanup_good (hok : ServerOk s) (i : Nat) : Good s (s.oldCleanup i) := by
  unfold SSHServer.oldCleanup
  split
  · rename_i k hi
    split
    · rename_i s₁ k' hk
      have hc := cleanup_spec hk
      have hilt := (List.getElem?_eq_some_iff.mp hi).1
      rw [hc.rest]
      refine .quiet ⟨hok.idle, hok.enabled, hok.busy, fun h => ?_, hc.closed hok, ?_, ?_, hok.waited, ?_, ?_⟩
        (Nat.le_refl _) rfl
      · refine (hok.clean h).of_aged (fun c hcon => ⟨c, hcon, rfl, id⟩) fun t' ht' => ?_
        obtain ⟨t, ht, ha, -⟩ := hc.mem ht'
        exact ⟨t, ht, ha⟩
      · refine hc.taken hok rfl (fun x hx => ?_) (List.mem_append_right _ (List.mem_set hilt k'))
        unfold SSHServer.cleanups at hx ⊢
        rcases List.mem_append.mp hx with hx | hx
        · exact .inl (List.mem_append_left _ hx)
        · by_cases hxk : x = k
          · exact .inr hxk
          · refine .inl (List.mem_append_right _ ?_)
            obtain ⟨n, hn⟩ := List.mem_iff_getElem?.mp hx
            refine List.mem_of_getElem? (i := n) ?_
            have hne : i ≠ n := fun he => hxk (by rw [he, hn, Option.some.injEq] at hi; exact hi)
            rw [List.getElem?_set_ne hne, hn]
      · intro call own hu hne t' ht'
        obtain ⟨t, ht, ha, -⟩ := hc.mem ht'
        rcases ha.home with he | ⟨-, hn⟩
        · rw [he]; exact hok.swept call own hu hne t ht
        · exact hn
      · intro next hu
        obtain ⟨hr, hsw⟩ := hok.calls next hu
        refine ⟨hr, fun x hx => ?_⟩
        rcases List.mem_or_eq_of_mem_set hx with hx | rfl
        · exact hsw x hx
        · exact hc.swept (hsw k (List.mem_of_getElem? hi))
      · intro next hu
        obtain ⟨hover, hrun⟩ := hok.ready next hu
        refine ⟨hover, fun t' ht' hh => ?_⟩
        obtain ⟨t, ht, ha, -, hr⟩ := hc.mem ht'
        rw [hr]
        exact hrun t ht (ha.notDropped hh)
    · exact .none
  · exact .none

/-- The call returns; its cleanup, if it is not over, runs on. -/
theorem ServerOk.returns (hok : ServerOk s) (hu : s.update ≠ .free) (left : List Cleanup) (shellsClosed : Bool)
    (hleft : ∀ k ∈ s.cleanups, k ∈ s.abandoned ++ left ∨ k.pending = []) :
    ServerOk { s with
      abandoned := s.abandoned ++ left, update := .free, shellsClosed := shellsClosed } := by
  obtain ⟨hoff, hlive⟩ := hok.disabled hu
  refine ⟨hok.idle, fun he => absurd he hoff, fun h => absurd rfl h, fun h => ?_, hok.closed, ?_, fun _ _ h => (by cases h),
    fun _ h => (by cases h), fun _ h => (by cases h), fun _ h => (by cases h)⟩
  · rw [show s.workLive = true from h] at hlive
    cases hlive
  · intro i t ht hh hcl
    rcases hok.taken i t ht hh hcl with ⟨k, hk, hi⟩ | hconn
    · rcases hleft k hk with hk' | hk'
      · exact .inl ⟨k, hk', hi⟩
      · rw [hk'] at hi
        cases hi
    · exact .inr hconn

theorem timeout_good (hok : ServerOk s) : Good s s.timeout := by
  have hleft {call : Option SSHConfig} {own : Cleanup} (hu : s.update = .cleaning call own) :
      ∀ k ∈ s.cleanups, k ∈ s.abandoned ++ [own] ∨ k.pending = [] := by
    intro k hk
    unfold SSHServer.cleanups at hk
    simp only [hu, List.cons_append, List.nil_append, List.mem_cons] at hk
    rcases hk with rfl | hk
    · exact .inl (List.mem_append_right _ (List.mem_singleton.mpr rfl))
    · exact .inl (List.mem_append_left _ hk)
  unfold SSHServer.timeout
  split
  · rename_i next own hu
    exact .fails (hok.returns (by rw [hu]; exact nofun) [own] s.shellsClosed (hleft hu)) _ _ (Nat.le_refl _) rfl
  · rename_i own hu
    exact .quiet (hok.returns (by rw [hu]; exact nofun) [own] true (hleft hu)) (Nat.le_refl _) rfl
  · exact .none

/-- At the end of its cleanup nothing runs that an `Apply` revokes. -/
theorem ServerOk.cleaned (hok : ServerOk s) {next : SSHConfig} (hu : s.update = .cleaning (some next) .done)
    (hfail : s.shellsFailure = none) :
    (∀ c ∈ s.connections, c.finished = true) ∧ ∀ t ∈ s.terminals, t.home ≠ .dropped → t.running = false := by
  have hover := hok.waited _ hu
  refine ⟨hover, fun t ht hh => ?_⟩
  rw [← Bool.not_eq_true]
  intro hr
  cases hhome : t.home with
  | dropped => exact hh hhome
  | retained => exact hok.swept _ _ hu nofun t ht hhome
  | taken =>
    obtain ⟨i, hi⟩ := List.mem_iff_getElem?.mp ht
    have hcl : t.close ≠ .closed := fun hcl => by
      have := hok.closed t ht hcl hr
      rw [hfail] at this
      cases this
    rcases hok.taken i t hi hhome hcl with ⟨k, hk, hp⟩ | ⟨c, hc, ho, -⟩
    · unfold SSHServer.cleanups at hk
      simp only [hu, List.cons_append, List.nil_append, List.mem_cons] at hk
      rcases hk with rfl | hk
      · cases hp
      · have hsw := (hok.calls next (by rw [hu]; rfl)).2 k hk
        cases k with
        | starting => cases hsw
        | closing items => cases hsw
        | waiting => cases hp
        | done => cases hp
    · rw [hover c hc] at ho
      cases ho

theorem finish_good (hok : ServerOk s) : Good s s.finish := by
  have hleft {call : Option SSHConfig} (hu : s.update = .cleaning call .done) :
      ∀ k ∈ s.cleanups, k ∈ s.abandoned ++ [] ∨ k.pending = [] := by
    intro k hk
    unfold SSHServer.cleanups at hk
    simp only [hu, List.cons_append, List.nil_append, List.mem_cons] at hk
    rcases hk with rfl | hk
    · exact .inr rfl
    · exact .inl (List.mem_append_left _ hk)
  unfold SSHServer.finish
  split
  · rename_i next hu
    split
    · have h := hok.returns (by rw [hu]; exact nofun) [] s.shellsClosed (hleft hu)
      simp only [List.append_nil] at h
      exact .fails h _ _ (Nat.le_refl _) rfl
    · rename_i hnone
      have hfail : s.shellsFailure = none := by
        cases hs : s.shellsFailure with
        | none => rfl
        | some a =>
          rw [hs] at hnone
          cases hcmd : s.commandCleanup <;> rw [hcmd] at hnone <;> cases hnone
      obtain ⟨hoff, hlive⟩ := hok.disabled (by rw [hu]; exact nofun)
      refine .quiet ⟨hok.idle, fun he => absurd he hoff, fun _ => hlive, fun h => ?_, hok.closed, ?_,
        fun _ _ h => (by cases h), fun _ h => (by cases h), fun next' h => ?_, fun _ _ => hok.cleaned hu hfail⟩
        (Nat.le_refl _) rfl
      · rw [show s.workLive = true from h] at hlive
        cases hlive
      · intro i t ht hh hcl
        rcases hok.taken i t ht hh hcl with ⟨k, hk, hi⟩ | hconn
        · rcases hleft hu k hk with hk' | hk'
          · rw [List.append_nil] at hk'
            exact .inl ⟨k, hk', hi⟩
          · rw [hk'] at hi
            cases hi
        · exact .inr hconn
      · cases h
        exact hok.calls next (by rw [hu]; rfl)
  · rename_i hu
    have h := hok.returns (by rw [hu]; exact nofun) [] true (hleft hu)
    simp only [List.append_nil] at h
    exact .quiet h (Nat.le_refl _) rfl
  · exact .none

theorem enable_good (hok : ServerOk s) : Good s s.enable := by
  unfold SSHServer.enable
  split
  · rename_i next hu
    have hleft : ∀ k ∈ s.cleanups, k ∈ s.abandoned ++ [] ∨ k.pending = [] := by
      intro k hk
      unfold SSHServer.cleanups at hk
      rw [hu, List.nil_append] at hk
      exact .inl (List.mem_append_left _ hk)
    have hfree := hok.returns (by rw [hu]; exact nofun) [] s.shellsClosed hleft
    simp only [List.append_nil] at hfree
    split
    · exact .fails hfree _ _ (Nat.le_refl _) rfl
    · obtain ⟨hover, hrun⟩ := hok.ready next hu
      have hnone (revision : Nat) : NoneOlder s revision := by
        constructor
        · intro c hc ho
          rw [hover c hc] at ho
          cases ho
        · intro t ht hh hr
          rw [hrun t ht hh] at hr
          cases hr
      intro s' r h
      cases h
      refine ⟨⟨hok.idle, fun _ => ⟨rfl, rfl, List.mem_append_right _ (List.mem_singleton.mpr rfl)⟩, fun h => absurd rfl h,
        fun _ => hnone _, hok.closed, hfree.taken, fun _ _ h => (by cases h), fun _ h => (by cases h), fun _ h => (by cases h),
        fun _ h => (by cases h)⟩, ?_, fun access ha => ?_, fun next' hr => ?_⟩
      · exact Nat.le_of_eq (hok.calls next (by rw [hu]; rfl)).1
      · exact absurd (congrArg List.length ha) (by simp)
      · cases hr
        exact hnone _
  · exact .none

/-! ## Every run -/

theorem act_good {bcryptCost : String → Option Int} (hok : ServerOk s) (e : SSHEvent) (hc : CleanupOver bcryptCost s e) :
    Good s (s.act bcryptCost e) := by
  cases e with
  | apply next => exact apply_good hok hc
  | close => exact close_good hok
  | cancelItems => exact cancelItems_good hok
  | ownCleanup => exact ownCleanup_good hok
  | oldCleanup i => exact oldCleanup_good hok i
  | timeout => exact timeout_good hok
  | finish => exact finish_good hok
  | enable => exact enable_good hok
  | expire => exact .frame hok (.rest hok rfl rfl rfl rfl rfl rfl rfl id) rfl
  | serve access ctxLive => exact serve_good hok access ctxLive
  | unlist i => exact unlist_good hok i
  | wgDone i => exact wgDone_good hok i
  | commandFailed i err => exact commandFailed_good hok i err
  | newTerminal i name random opened oldest => exact newTerminal_good hok i name random opened oldest
  | attach i name => exact attach_good hok i name
  | detach i j => exact detach_good hok i j
  | kill i name => exact kill_good hok i name
  | killed i j => exact killed_good hok i j
  | outputEnds j time => exact outputEnds_good hok j time
  | exits j => exact exits_good hok j
  | beginClose j => exact beginClose_good hok j
  | endClose j err => exact endClose_good hok j err

end

theorem ServerOk.new (binding : SSHBinding) : ServerOk (newServer binding).1 where
  idle _ h := by cases h
  enabled h := by cases h
  busy h := absurd rfl h
  clean _ := ⟨fun _ h => (by cases h), fun _ h => (by cases h)⟩
  closed _ h := by cases h
  taken _ _ h := by cases h
  swept _ _ h := by cases h
  waited _ h := by cases h
  calls _ h := by cases h
  ready _ h := by cases h

/-- Every step of the run is sound. -/
def RevocationComplete (bcryptCost : String → Option Int) (binding : SSHBinding) (es : List SSHEvent) : Prop :=
  (sshMachine bcryptCost).Along
    (fun s e => ∀ s', (sshMachine bcryptCost).step s e = some s' → SoundStep s.1 s'.1 s'.2) (newServer binding) es

theorem revocation_complete {bcryptCost : String → Option Int} {binding : SSHBinding} {es : List SSHEvent}
    (h : (sshMachine bcryptCost).Along (fun s e => CleanupOver bcryptCost s.1 e) (newServer binding) es) :
    RevocationComplete bcryptCost binding es := by
  refine Machine.along_of_inv _ (I := fun s => ServerOk s.1) ?_ ?_ (ServerOk.new binding) h
  · intro s e hok hc s' hs
    exact (act_good hok e hc s'.1 s'.2 hs).2
  · intro s e s' hok hc hs
    exact (act_good hok e hc s'.1 s'.2 hs).1

def demoBinding : SSHBinding := { BoxID := "box", AccountID := "account", DeviceID := "device", Epoch := "epoch" }

def demoHash : String := "$2a$12$R9h/cIPz0gi.URNNX3kh2OPST9/PgBkqquzi.Ss7KIUgO2t0jWMUW"

def demoCost (hash : String) : Option Int := if hash = demoHash then some 12 else none

/-- An `Apply` whose cleanup ends at once. -/
def demoApply (next : SSHConfig) : List SSHEvent :=
  [.apply next, .cancelItems, .ownCleanup, .ownCleanup, .ownCleanup, .finish, .enable]

/-- The first configuration, and a connection of it that starts a terminal. -/
def demoStart : List SSHEvent :=
  demoApply { Revision := 1, Enabled := true, PasswordHash := demoHash } ++
    [.serve { Binding := demoBinding, Revision := 1 } true, .newTerminal 0 "work" "" true 0]

theorem revocation_complete_start : RevocationComplete demoCost demoBinding demoStart := by
  apply revocation_complete
  refine ⟨fun next he _ => ⟨fun _ => rfl, fun _ k hk => by cases hk⟩, fun s' _ => ?_⟩
  refine Machine.along_mono _ (P := fun _ e => ∀ next, e ≠ .apply next) (fun s e hne next he => absurd he (hne next)) ?_
  apply Machine.along_of_forall
  intro e he next hcontra
  subst hcontra
  revert he
  simp

/-- The disabling configuration is sent again after its cleanup ran out of time. -/
def demoRepeat : List SSHEvent := demoStart ++ [.apply { Revision := 2 }, .cancelItems, .timeout]

/-- The cleanup of the second configuration ran out of time while it closed the terminal, the
third one's finds nothing to close. -/
def demoLater : List SSHEvent :=
  demoStart ++ [.apply { Revision := 2 }, .cancelItems, .ownCleanup, .timeout, .unlist 0, .wgDone 0,
    .apply { Revision := 3 }, .cancelItems, .ownCleanup, .ownCleanup, .ownCleanup, .finish]

instance (s : SSHServer) (revision : Nat) : Decidable (NoneOlder s revision) :=
  inferInstanceAs (Decidable (_ ∧ _))

def demoAfter (es : List SSHEvent) : SSHServer × Option ApplyReply :=
  ((sshMachine demoCost).run (newServer demoBinding) es).getD (newServer demoBinding)

theorem not_complete {es : List SSHEvent} {e : SSHEvent} (next : SSHConfig)
    (hrun : (sshMachine demoCost).run (newServer demoBinding) es = some (demoAfter es))
    (hstep : (sshMachine demoCost).step (demoAfter es) e = some (demoAfter (es ++ [e])))
    (hreply : (demoAfter (es ++ [e])).2 = some { next := next, err := none })
    (holder : ¬ NoneOlder (demoAfter (es ++ [e])).1 next.Revision) :
    ¬ RevocationComplete demoCost demoBinding (es ++ [e]) := by
  intro h
  have hsound := Machine.along_at _ h hrun _ hstep
  exact holder (hsound.revoked next hreply)

theorem revocation_not_complete :
    ¬ RevocationComplete demoCost demoBinding (demoRepeat ++ [.apply { Revision := 2 }]) ∧
    ¬ RevocationComplete demoCost demoBinding (demoLater ++ [.enable]) := by
  constructor
  · exact not_complete { Revision := 2 } (by decide +kernel) (by decide +kernel) (by decide +kernel) (by decide +kernel)
  · exact not_complete { Revision := 3 } (by decide +kernel) (by decide +kernel) (by decide +kernel) (by decide +kernel)

end Webshell
