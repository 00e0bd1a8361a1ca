import Webshell.UnifiedTransport
import Mathlib.Data.List.Nodup
import Mathlib.Tactic.SplitIfs

/-!
# One physical connection at a time

While the owner has a connection no fence is up and no close is expected. Every
earlier connection was closed, and the fence behind it is up until its `closed`
promise is resolved or its delay has elapsed.
-/

namespace Webshell

/-! ## Connections -/

namespace UnifiedConnection

/-- It was told to close, or its socket has closed. -/
def Dropped (x : UnifiedConnection) : Prop := x.closeCalled = true ∨ x.socketClosed = true

structure Ok (x : UnifiedConnection) : Prop where
  closed : x.closed = true → x.Dropped
  state : x.physicalReadyState = .closed → x.Dropped ∧ x.serverReady = false
  socket : x.physicalSocket ≠ none → x.disposed = false → x.physicalReadyState ≠ .closed

/-- A step of a connection: nothing that has ended begins again. -/
structure Goes (x y : UnifiedConnection) : Prop where
  ok : x.Ok → y.Ok
  dropped : x.Dropped → y.Dropped
  closed : x.closed = true → y.closed = true

theorem close_goes (x : UnifiedConnection) : x.Goes x.close.1 ∧ x.close.1.Dropped := by
  unfold close
  dsimp only
  split
  · exact ⟨⟨fun h => ⟨fun _ => .inl rfl, fun hs => ⟨.inl rfl, (h.state hs).2⟩, h.socket⟩, fun _ => .inl rfl, id⟩, .inl rfl⟩
  · split
    · exact ⟨⟨fun h => ⟨fun _ => .inl rfl, nofun, nofun⟩, fun _ => .inl rfl, id⟩, .inl rfl⟩
    · exact ⟨⟨fun h => ⟨fun _ => .inl rfl, nofun, nofun⟩, fun _ => .inl rfl, id⟩, .inl rfl⟩
    · exact ⟨⟨fun h => ⟨fun _ => .inl rfl, nofun, nofun⟩, fun _ => .inl rfl, id⟩, .inl rfl⟩
    · exact ⟨⟨fun h => ⟨fun _ => .inl rfl, fun _ => ⟨.inl rfl, rfl⟩, nofun⟩, fun _ => .inl rfl, fun _ => rfl⟩, .inl rfl⟩
    · exact ⟨⟨fun h => ⟨fun _ => .inl rfl, fun _ => ⟨.inl rfl, rfl⟩, nofun⟩, fun _ => .inl rfl, fun _ => rfl⟩, .inl rfl⟩

theorem ensurePhysicalSocket_goes (x : UnifiedConnection) (constructs : Bool) : x.Goes (x.ensurePhysicalSocket constructs).1 := by
  unfold ensurePhysicalSocket
  dsimp only
  split_ifs
  · exact ⟨id, id, id⟩
  · exact ⟨fun h => ⟨h.closed, nofun, fun _ _ => nofun⟩, id, id⟩
  · exact ⟨fun h => ⟨h.closed, nofun, fun _ _ => nofun⟩, id, id⟩

/-- An event that the owner can be told: only a connection that has ended says so. -/
def Says (ended : Prop) : ConnectionEvent → Prop
  | .stateChange state serverReady => state = .closed → ended ∧ serverReady = false
  | .physicalError _ => True
  | .physicalClose _ => ended

theorem Ok.emitState {x : UnifiedConnection} (h : x.Ok) : Says x.Dropped x.emitState := h.state

theorem Says.imp {p q : Prop} (hpq : p → q) {event : ConnectionEvent} (h : Says p event) : Says q event := by
  cases event with
  | stateChange state serverReady => exact fun hs => (h hs).imp_left hpq
  | physicalError message => trivial
  | physicalClose reason => exact hpq h

/-- What becomes of a connection, and what it tells. -/
structure Fits (x : UnifiedConnection) (result : UnifiedConnection × List ConnectionEvent) : Prop where
  goes : x.Goes result.1
  tells : ∀ event ∈ result.2, Says result.1.Dropped event

variable {x : UnifiedConnection}

theorem opened_fits : x.Fits x.opened where
  goes := ⟨fun h => ⟨h.closed, nofun, fun _ _ => nofun⟩, id, id⟩
  tells _ he := by
    rw [List.mem_singleton.mp he]
    exact nofun

theorem Ok.ready_fits (h : x.Ok) (hs : x.physicalSocket = some .open) (hd : x.disposed = false) : x.Fits x.ready := by
  have hopen : x.physicalReadyState ≠ .closed := h.socket (by rw [hs]; exact nofun) hd
  refine ⟨⟨fun h => ⟨h.closed, fun he => absurd he hopen, h.socket⟩, id, id⟩, fun event he => ?_⟩
  rw [List.mem_singleton.mp he]
  exact fun he => absurd he hopen

theorem dispatchPhysicalError_fits (message : String) : x.Fits (x.dispatchPhysicalError message) := by
  unfold dispatchPhysicalError
  split
  · exact ⟨⟨id, id, id⟩, nofun⟩
  · refine ⟨⟨fun h => ⟨h.closed, h.state, h.socket⟩, id, id⟩, fun event he => ?_⟩
    rw [List.mem_singleton.mp he]
    trivial

theorem socketClosing_fits (reason : String) : x.Fits (x.socketClosing reason) where
  goes := ⟨fun _ => ⟨fun _ => .inr rfl, fun _ => ⟨.inr rfl, rfl⟩, nofun⟩, fun _ => .inr rfl, fun _ => rfl⟩
  tells event he := by
    simp only [socketClosing, List.mem_cons, List.not_mem_nil, or_false, or_self] at he
    rcases he with rfl | rfl
    · exact .inr rfl
    · exact fun _ => ⟨.inr rfl, rfl⟩

theorem ensurePhysicalSocket_tells (h : x.Ok) (constructs : Bool) {event : ConnectionEvent}
    (he : event ∈ (x.ensurePhysicalSocket constructs).2.1 ++ [(x.ensurePhysicalSocket constructs).1.emitState]) :
    Says (x.ensurePhysicalSocket constructs).1.Dropped event := by
  rcases List.mem_append.mp he with he | he
  · revert he
    unfold ensurePhysicalSocket
    dsimp only
    split_ifs
    · exact nofun
    · exact nofun
    · intro he
      rw [List.mem_singleton.mp he]
      exact nofun
  · rw [List.mem_singleton.mp he]
    exact ((ensurePhysicalSocket_goes x constructs).ok h).emitState

theorem Ok.openLogical_fits (h : x.Ok) (constructs : Bool) : x.Fits (x.openLogical constructs) := by
  have hcounted : Ok { x with logicalCount := x.logicalCount + 1 } := ⟨h.closed, h.state, h.socket⟩
  have hgoes := ensurePhysicalSocket_goes { x with logicalCount := x.logicalCount + 1 } constructs
  have hsays (event : ConnectionEvent) := @ensurePhysicalSocket_tells _ hcounted constructs event
  unfold openLogical
  split
  · rename_i y events heq
    rw [heq] at hgoes hsays
    exact ⟨⟨fun _ => hgoes.ok hcounted, hgoes.dropped, hgoes.closed⟩, fun event he => hsays event (List.mem_append_left _ he)⟩
  · rename_i y events heq
    rw [heq] at hgoes hsays
    exact ⟨⟨fun _ => hgoes.ok hcounted, hgoes.dropped, hgoes.closed⟩, hsays⟩

theorem Ok.closeLogical_fits (h : x.Ok) : x.Fits x.closeLogical where
  goes := ⟨fun h => ⟨h.closed, h.state, h.socket⟩, id, id⟩
  tells event he := by
    rw [List.mem_singleton.mp he]
    exact h.state

/-- A new connection that is to connect. -/
theorem created_connect (constructs : Bool) : (created.connect constructs).1.Ok ∧
    ∀ event ∈ (created.connect constructs).2.1, ∀ ended, Says ended event := by
  cases constructs with
  | false => exact ⟨⟨nofun, nofun, fun hs => absurd rfl hs⟩, nofun⟩
  | true =>
    refine ⟨⟨nofun, nofun, fun _ _ => nofun⟩, fun event he ended => ?_⟩
    simp only [connect, ensurePhysicalSocket, created, List.mem_append, List.mem_singleton, Bool.false_eq_true,
      reduceCtorEq, if_false, or_self] at he
    rw [he]
    exact nofun

end UnifiedConnection

/-! ## The invariant -/

/-- The promise or the delay that a fence waits for is over. -/
def UnifiedTransport.Passed (t : UnifiedTransport) (fence : CloseFence) : Prop :=
  fence.elapsed = true ∨ ∃ y, t.connections[fence.observedConnection]? = some y ∧ y.closed = true

/-- `made` connections were asked for, those in `told` have been disconnected and those in `gone`
dropped; `x` is one that is just being dropped. -/
structure TransportInv (made : Nat) (told gone : List Nat) (x : Option Nat) (t : UnifiedTransport) : Prop where
  current : ∀ c, t.connection = some c → c < t.connections.length ∧ c ∉ t.closedConnections ∧
    t.closingPromise = none ∧ t.expectedCloseReason = ""
  bounded : ∀ c ∈ t.closedConnections, c < t.connections.length
  fenced : ∀ c < t.connections.length, t.connection ≠ some c →
    c ∈ t.closedConnections ∧ ∃ fence ∈ t.fences, fence.observedConnection = c
  dropped : ∀ (c : Nat) (y : UnifiedConnection), t.connections[c]? = some y → t.connection ≠ some c → x ≠ some c → y.Dropped
  connections : ∀ y ∈ t.connections, y.Ok
  fences : ∀ fence ∈ t.fences, fence.stage ≠ .pending → t.Passed fence
  waits : ∀ (f : Nat) (fence : CloseFence), t.fences[f]? = some fence → fence.stage = .done ∨ t.closingPromise = some f
  reason : t.expectedCloseReason ≠ "" → ∃ (f : Nat) (fence : CloseFence), t.closingPromise = some f ∧
    t.fences[f]? = some fence ∧ fence.reason = some t.expectedCloseReason ∧
      (fence.stage = .pending ∨ fence.stage = .settled)
  watchdog : ∀ w c, t.healthWatchdog = some w → w.connection = some c → t.connection = some c
  once : t.disconnects.Nodup ∧ ∀ c ∈ t.disconnects, c ∈ t.closedConnections
  made : t.creations = made
  told : ∀ c ∈ told, c ∈ t.disconnects
  gone : ∀ c ∈ gone, ∃ y, t.connections[c]? = some y ∧ y.Dropped

namespace TransportInv

open UnifiedTransport

variable {made : Nat} {told gone : List Nat} {x : Option Nat} {t : UnifiedTransport}

theorem start : TransportInv 0 [] [] none {} where
  current _ h := by cases h
  bounded _ h := by cases h
  fenced _ h := absurd h (Nat.not_lt_zero _)
  dropped _ _ h := by cases h
  connections _ h := by cases h
  fences _ h := by cases h
  waits _ _ h := by cases h
  reason h := absurd rfl h
  watchdog _ _ h := by cases h
  once := ⟨.nil, fun _ h => by cases h⟩
  made := rfl
  told _ h := by cases h
  gone _ h := by cases h

/-- The owner's own connection, or one that has ended. -/
theorem weaken (h : TransportInv made told gone x t) {told' gone' : List Nat} (ht : told' ⊆ told) (hg : gone' ⊆ gone) :
    TransportInv made told' gone' x t :=
  { h with told := fun c hc => h.told c (ht hc), gone := fun c hc => h.gone c (hg hc) }

theorem settle {c : Nat} (h : TransportInv made told gone (some c) t) (hc : c ∈ gone) : TransportInv made told gone none t :=
  { h with
    dropped := fun d y hy hne _ => by
      by_cases hd : d = c
      · subst hd
        obtain ⟨z, hz, hdropped⟩ := h.gone d hc
        rw [hy, Option.some.injEq] at hz
        exact hz ▸ hdropped
      · exact h.dropped d y hy hne fun he => hd (Option.some.inj he).symm }

/-! ### Steps of a connection -/

/-- Connections that only go on change nothing that is said of the owner. -/
theorem replace (h : TransportInv made told gone x t) {connections : List UnifiedConnection}
    (hl : connections.length = t.connections.length)
    (hg : ∀ (d : Nat) (y z : UnifiedConnection), t.connections[d]? = some y → connections[d]? = some z → y.Goes z) :
    TransportInv made told gone x { t with connections := connections } := by
  have hon {d : Nat} {y : UnifiedConnection} (hy : t.connections[d]? = some y) : ∃ z, connections[d]? = some z ∧ y.Goes z := by
    have hd : d < connections.length := hl ▸ (List.getElem?_eq_some_iff.mp hy).1
    exact ⟨_, List.getElem?_eq_getElem hd, hg d y _ hy (List.getElem?_eq_getElem hd)⟩
  have hback {d : Nat} {z : UnifiedConnection} (hz : connections[d]? = some z) : ∃ y, t.connections[d]? = some y ∧ y.Goes z := by
    have hd : d < t.connections.length := hl ▸ (List.getElem?_eq_some_iff.mp hz).1
    exact ⟨_, List.getElem?_eq_getElem hd, hg d _ z (List.getElem?_eq_getElem hd) hz⟩
  exact { h with
    current := fun d hd => by
      rw [hl]
      exact h.current d hd
    bounded := fun d hd => by
      rw [hl]
      exact h.bounded d hd
    fenced := fun d hd => h.fenced d (hl ▸ hd)
    dropped := fun d z hz hne hx => by
      obtain ⟨y, hy, hgoes⟩ := hback hz
      exact hgoes.dropped (h.dropped d y hy hne hx)
    connections := fun z hz => by
      obtain ⟨d, hd⟩ := List.mem_iff_getElem?.mp hz
      obtain ⟨y, hy, hgoes⟩ := hback hd
      exact hgoes.ok (h.connections y (List.mem_of_getElem? hy))
    fences := fun fence hf hs => (h.fences fence hf hs).imp_right fun ⟨y, hy, hclosed⟩ => by
      obtain ⟨z, hz, hgoes⟩ := hon hy
      exact ⟨z, hz, hgoes.closed hclosed⟩
    gone := fun d hd => by
      obtain ⟨y, hy, hdropped⟩ := h.gone d hd
      obtain ⟨z, hz, hgoes⟩ := hon hy
      exact ⟨z, hz, hgoes.dropped hdropped⟩ }

theorem modify (h : TransportInv made told gone x t) (c : Nat) {f : UnifiedConnection → UnifiedConnection}
    (hf : ∀ y : UnifiedConnection, y.Goes (f y)) :
    TransportInv made told gone x { t with connections := t.connections.modify c f } := by
  refine h.replace (List.length_modify ..) fun d y z hy hz => ?_
  rw [List.getElem?_modify, hy, Option.map_eq_map, Option.map_some, Option.some.injEq] at hz
  subst hz
  split
  · exact hf y
  · exact ⟨id, id, id⟩

/-- `close` of the connection that is being dropped. -/
theorem shut {c : Nat} (h : TransportInv made told gone x t) (hx : ∀ d, x = some d → d = c) : TransportInv made told gone none (t.shut c) := by
  have hm := h.modify c (f := fun y => y.close.1) fun y => y.close_goes.1
  exact {
    hm with
    dropped := fun d z hz hne _ => by
      by_cases hd : d = c
      · subst hd
        have hget := hz
        rw [UnifiedTransport.shut, List.getElem?_modify] at hget
        obtain ⟨y, -, rfl⟩ := Option.map_eq_some_iff.mp hget
        rw [if_pos rfl]
        exact y.close_goes.2
      · exact hm.dropped d z hz hne fun he => hd (hx d he) }

/-! ### Leaving a connection -/

/-- The connection is left behind a new fence; its reason is the one that is expected from then on. -/
theorem leave {c : Nat} (h : TransportInv made told gone none t) (hc : t.connection = some c) (reason : Option String)
    (watchdog : Option HealthWatchdog) (hw : ∀ w, watchdog = some w → w.connection = none) :
    TransportInv made told gone (some c) { t with
      connection := none, targetName := "", healthWatchdog := watchdog
      closedConnections := t.closedConnections ++ [c], expectedCloseReason := reason.getD ""
      closingPromise := some t.fences.length
      fences := t.fences ++ [{ observedConnection := c, reason := reason }] } := by
  obtain ⟨hlt, -, hclosing, -⟩ := h.current c hc
  have hnew : (t.fences ++ [({ observedConnection := c, reason := reason } : CloseFence)])[t.fences.length]? =
      some { observedConnection := c, reason := reason } := List.getElem?_concat_length ..
  exact {
    current := fun _ hd => by cases hd
    bounded := fun d hd => (List.mem_append.mp hd).elim (h.bounded d) fun hd => by rw [List.mem_singleton.mp hd]; exact hlt
    fenced := fun d hd _ => by
      by_cases hdc : d = c
      · subst hdc
        exact ⟨List.mem_append_right _ (List.mem_singleton.mpr rfl), _, List.mem_append_right _ (List.mem_singleton.mpr rfl), rfl⟩
      · obtain ⟨hclosed, fence, hf, ho⟩ := h.fenced d hd fun he => hdc (Option.some.inj (he.symm.trans hc))
        exact ⟨List.mem_append_left _ hclosed, fence, List.mem_append_left _ hf, ho⟩
    dropped := fun d y hy _ hx => h.dropped d y hy (fun he => hx (hc.symm.trans he)) nofun
    connections := h.connections
    fences := fun fence hf hs => (List.mem_append.mp hf).elim (fun hf => h.fences fence hf hs) fun hf => by
      rw [List.mem_singleton.mp hf] at hs
      exact absurd rfl hs
    waits := fun f fence hf => by
      rcases Nat.lt_trichotomy f t.fences.length with hlt | rfl | hgt
      · rw [List.getElem?_append_left hlt] at hf
        rcases h.waits f fence hf with hdone | hwaits
        · exact .inl hdone
        · exact absurd (hclosing.symm.trans hwaits) nofun
      · exact .inr rfl
      · rw [List.getElem?_eq_none (by rw [List.length_append, List.length_singleton]; exact hgt)] at hf
        cases hf
    reason := fun he => by
      cases reason with
      | none => exact absurd rfl he
      | some reason => exact ⟨_, _, rfl, hnew, rfl, .inl rfl⟩
    watchdog := fun w d hw' hd => by
      rw [hw w hw'] at hd
      cases hd
    once := ⟨h.once.1, fun d hd => List.mem_append_left _ (h.once.2 d hd)⟩
    made := h.made
    told := h.told
    gone := h.gone }

theorem scheduleRecovery (h : TransportInv made told gone x t) (page : PageState) (reason : String) :
    TransportInv made told gone x (t.scheduleRecovery page reason) := by
  unfold UnifiedTransport.scheduleRecovery
  split
  · exact h
  · split
    · exact { h with }
    · exact { h with }

theorem scheduleRecovery_keeps (t : UnifiedTransport) (page : PageState) (reason : String) :
    (t.scheduleRecovery page reason).disconnects = t.disconnects ∧
      (t.scheduleRecovery page reason).connection = t.connection ∧
      ∀ c, (t.shut c).scheduleRecovery page reason = (t.scheduleRecovery page reason).shut c := by
  unfold UnifiedTransport.scheduleRecovery UnifiedTransport.shut UnifiedTransport.paused
  split
  · exact ⟨rfl, rfl, fun _ => rfl⟩
  · split <;> exact ⟨rfl, rfl, fun _ => rfl⟩

theorem close (h : TransportInv made told gone none t) (reason : String) : TransportInv made told gone none (t.close reason) := by
  unfold UnifiedTransport.close
  cases hc : t.connection with
  | none => exact h
  | some c =>
    exact (h.leave hc (some (if reason = "" then "context_changed" else reason)) none nofun).shut
      fun d hd => (Option.some.inj hd).symm

/-- A connection is disconnected once: it is the owner's until then. -/
theorem handlePhysicalDisconnect {c : Nat} (h : TransportInv made told gone none t) (hc : t.connection = some c) (page : PageState)
    (reason : String) :
    TransportInv made (c :: told) gone (some c) (t.handlePhysicalDisconnect page c reason false) ∧
      (t.handlePhysicalDisconnect page c reason false).disconnects = t.disconnects ++ [c] ∧
      (t.handlePhysicalDisconnect page c reason false).connection = none ∧
      t.handlePhysicalDisconnect page c reason true = (t.handlePhysicalDisconnect page c reason false).shut c := by
  obtain ⟨-, hnot, hclosing, hexpected⟩ := h.current c hc
  have hl := h.leave hc none (t.healthWatchdog.map fun w =>
    { w with connection := none, observedState := .closed, observedStateAt := t.now, outstandingPingAt := 0 }) fun w hw => by
      obtain ⟨_, -, rfl⟩ := Option.map_eq_some_iff.mp hw
      rfl
  let d : UnifiedTransport := { t with
    connection := none, targetName := ""
    healthWatchdog := t.healthWatchdog.map fun w =>
      { w with connection := none, observedState := .closed, observedStateAt := t.now, outstandingPingAt := 0 }
    closedConnections := t.closedConnections ++ [c]
    closingPromise := some t.fences.length
    fences := t.fences ++ [{ observedConnection := c, reason := none }]
    disconnects := t.disconnects ++ [c] }
  have hlog : TransportInv made (c :: told) gone (some c) d := { hl with
    current := fun e he => by cases he
    reason := fun he => absurd hexpected he
    once := by
      refine ⟨List.nodup_append.mpr ⟨h.once.1, List.nodup_singleton _, fun e he g hg => ?_⟩, fun e he => ?_⟩
      · rw [List.mem_singleton.mp hg]
        exact fun hde => hnot (hde ▸ h.once.2 e he)
      · rcases List.mem_append.mp he with he | he
        · exact List.mem_append_left _ (h.once.2 e he)
        · exact List.mem_append_right _ he
    told := fun e he => by
      rcases List.mem_cons.mp he with rfl | he
      · exact List.mem_append_right _ (List.mem_singleton.mpr rfl)
      · exact List.mem_append_left _ (h.told e he) }
  have hsame (closeConnection : Bool) : t.handlePhysicalDisconnect page c reason closeConnection =
      UnifiedTransport.scheduleRecovery (if closeConnection then d.shut c else d) page
        (if reason = "" then "unified_transport_closed" else reason) := by
    unfold UnifiedTransport.handlePhysicalDisconnect
    simp only [hnot, if_false, hclosing, hc, if_true, registerClosingFence]
    rfl
  obtain ⟨hlogged, hconnection, hshut⟩ := scheduleRecovery_keeps d page (if reason = "" then "unified_transport_closed" else reason)
  rw [hsame false, hsame true]
  exact ⟨hlog.scheduleRecovery page _, hlogged, hconnection, hshut c⟩

/-! ### The watchdog -/

theorem withWatchdog (h : TransportInv made told gone x t) {watchdog : Option HealthWatchdog}
    (hw : ∀ w c, watchdog = some w → w.connection = some c → t.connection = some c) :
    TransportInv made told gone x { t with healthWatchdog := watchdog } :=
  { h with watchdog := hw }

theorem mapWatchdog (h : TransportInv made told gone x t) (f : HealthWatchdog → HealthWatchdog)
    (hf : ∀ w, (f w).connection = w.connection) :
    TransportInv made told gone x { t with healthWatchdog := t.healthWatchdog.map f } :=
  h.withWatchdog fun w c hw hc => by
    obtain ⟨v, hv, rfl⟩ := Option.map_eq_some_iff.mp hw
    exact h.watchdog v c hv (hf v ▸ hc)

theorem onDisconnected (h : TransportInv made told gone x t) (page : PageState) (reason : String) (observed : Option Nat) :
    TransportInv made told gone x (t.onDisconnected page reason observed) := by
  unfold UnifiedTransport.onDisconnected
  split
  · exact h
  · exact h.scheduleRecovery page reason

theorem closeUnhealthy {c : Nat} (h : TransportInv made told gone none t) (hc : t.connection = some c) (page : PageState)
    (reason : String) : TransportInv made told gone none (t.closeUnhealthy page reason c) :=
  ((h.handlePhysicalDisconnect hc page reason).1.shut fun _ hd => (Option.some.inj hd).symm).weaken
    (List.subset_cons_self ..) (List.Subset.refl _)

theorem checkOpen {c : Nat} (h : TransportInv made told gone none t) (hc : t.connection = some c) (times : HealthTimes)
    (page : PageState) (w : HealthWatchdog) (hw : w.connection = some c) (connection : UnifiedConnection) :
    TransportInv made told gone none (t.checkOpen times page w c connection) := by
  have hset (outstanding : Nat) : TransportInv made told gone none { t with
      healthWatchdog := some { w with outstandingPingAt := outstanding } } :=
    h.withWatchdog fun v d hv hd => by
      obtain rfl := Option.some.inj hv
      exact hc.trans (hw.symm.trans hd)
  unfold UnifiedTransport.checkOpen
  split
  · dsimp only
    split
    · exact (hset 0).closeUnhealthy hc page _
    · exact hset 0
  · generalize (if w.outstandingPingAt ≤ connection.physicalLastPongAt then 0 else w.outstandingPingAt) = outstanding
    dsimp only
    split
    · split
      · exact (hset _).closeUnhealthy hc page _
      · exact hset _
    · split
      · exact (hset _).closeUnhealthy hc page _
      · exact hset _

theorem observeState_connection (w : HealthWatchdog) (state : SocketState) (checkedAt : Nat) :
    (observeState w state checkedAt).connection = w.connection := by
  unfold observeState
  split <;> rfl

theorem check (h : TransportInv made told gone none t) (times : HealthTimes) (page : PageState) (reason : String) :
    TransportInv made told gone none (t.check times page reason) := by
  unfold UnifiedTransport.check
  split
  · exact h
  · rename_i w hwatchdog
    split
    · exact h
    · split
      · exact h.onDisconnected page _ none
      · rename_i c hw
        have hc := h.watchdog w c hwatchdog hw
        split
        · exact h
        · rename_i connection hget
          have hv : (observeState w connection.physicalReadyState t.now).connection = some c :=
            (observeState_connection ..).trans hw
          have hset : TransportInv made told gone none { t with
              healthWatchdog := some (observeState w connection.physicalReadyState t.now) } :=
            h.withWatchdog fun u d hu hd => by
              obtain rfl := Option.some.inj hu
              exact hc.trans (hv.symm.trans hd)
          dsimp only
          split
          · exact hset.checkOpen hc times page _ hv connection
          · exact hset.onDisconnected page _ _
          · split
            · exact hset.closeUnhealthy hc page _
            · exact hset
          · split
            · exact hset.closeUnhealthy hc page _
            · exact hset

theorem probeWatchdog (h : TransportInv made told gone none t) (times : HealthTimes) (page : PageState) (reason : String) :
    TransportInv made told gone none (t.probeWatchdog times page reason) :=
  (h.mapWatchdog (fun w => { w with outstandingPingAt := 0 }) fun _ => rfl).check times page reason

/-! ### What a connection tells -/

theorem observe_goes (state : SocketState) (serverReady : Bool) (y : UnifiedConnection) :
    y.Goes { y with observedPhysicalReadyState := state, observedServerReady := serverReady } :=
  ⟨fun h => ⟨h.closed, h.state, h.socket⟩, id, id⟩

/-- The end of the owner's connection. -/
theorem onStateChange_closed {c : Nat} (h : TransportInv made told gone none t) (hc : t.connection = some c) (hgone : c ∈ gone)
    (times : HealthTimes) (page : PageState) :
    TransportInv made (c :: told) gone none (t.onStateChange times page c .closed false) := by
  have hobserved := h.modify c (observe_goes .closed false)
  obtain ⟨-, hnot, -, hexpected⟩ := h.current c hc
  unfold UnifiedTransport.onStateChange
  rw [if_neg (not_not.mpr hc)]
  simp only [reduceCtorEq, or_self, decide_false, Bool.false_and, Bool.false_eq_true, if_false]
  rw [if_pos ⟨trivial, hexpected, hnot⟩]
  exact (hobserved.handlePhysicalDisconnect hc page _).1.settle hgone

/-- Only the owner's connection is listened to, and what it tells last is its end. -/
theorem onStateChange {c : Nat} (h : TransportInv made told gone none t) (times : HealthTimes) (page : PageState) {state : SocketState}
    {serverReady : Bool} (he : UnifiedConnection.Says (c ∈ gone) (.stateChange state serverReady)) :
    TransportInv made told gone none (t.onStateChange times page c state serverReady) := by
  by_cases hc : t.connection = some c
  · by_cases hclosed : state = .closed
    · obtain ⟨hgone, rfl⟩ := he hclosed
      subst hclosed
      exact (h.onStateChange_closed hc hgone times page).weaken (List.subset_cons_self ..) (List.Subset.refl _)
    · have hobserved := h.modify c (observe_goes state serverReady)
      have hstarted : TransportInv made told gone none (if state = .connecting ∨ state = .open then
          { t with
            connections := t.connections.modify c fun y =>
              { y with observedPhysicalReadyState := state, observedServerReady := serverReady }
            healthWatchdog := t.healthWatchdog.map fun w => { w with running := true } }
        else { t with
            connections := t.connections.modify c fun y =>
              { y with observedPhysicalReadyState := state, observedServerReady := serverReady } }) := by
        split
        · exact hobserved.mapWatchdog (fun w => { w with running := true }) fun _ => rfl
        · exact hobserved
      have hprobed {u : UnifiedTransport} (hu : TransportInv made told gone none u) (b : Bool) (reason : String) :
          TransportInv made told gone none (if b = true then u.probeWatchdog times page reason else u) := by
        split
        · exact hu.probeWatchdog times page reason
        · exact hu
      unfold UnifiedTransport.onStateChange
      rw [if_neg (not_not.mpr hc)]
      simp only [hclosed, false_and, if_false]
      exact hprobed (hprobed hstarted _ _) _ _
  · unfold UnifiedTransport.onStateChange
    rw [if_pos hc]
    exact h

theorem onPhysicalError {c : Nat} (h : TransportInv made told gone none t) (named : Bool) (page : PageState) :
    TransportInv made told gone none (t.onPhysicalError named page c) := by
  unfold UnifiedTransport.onPhysicalError
  split
  · rename_i hc
    obtain ⟨hinv, -, -, hshut⟩ := h.handlePhysicalDisconnect hc.2 page "unified_websocket_error"
    rw [hshut]
    exact (hinv.shut fun _ hd => (Option.some.inj hd).symm).weaken (List.subset_cons_self ..) (List.Subset.refl _)
  · exact h

theorem onPhysicalClose_named {c : Nat} (h : TransportInv made told gone none t) (hc : t.connection = some c) (hgone : c ∈ gone)
    (page : PageState) (reason : String) :
    TransportInv made (c :: told) gone none (t.onPhysicalClose true page c reason) := by
  unfold UnifiedTransport.onPhysicalClose
  rw [if_pos ⟨rfl, hc, (h.current c hc).2.2.2⟩]
  exact (h.handlePhysicalDisconnect hc page _).1.settle hgone

theorem onPhysicalClose {c : Nat} (h : TransportInv made told gone none t) (named : Bool) (page : PageState) (reason : String)
    (hgone : c ∈ gone) : TransportInv made told gone none (t.onPhysicalClose named page c reason) := by
  by_cases hc : named = true ∧ t.connection = some c
  · obtain ⟨rfl, hc⟩ := hc
    exact (h.onPhysicalClose_named hc hgone page reason).weaken (List.subset_cons_self ..) (List.Subset.refl _)
  · unfold UnifiedTransport.onPhysicalClose
    rw [if_neg fun he => hc ⟨he.1, he.2.1⟩]
    exact h

theorem onEvent {c : Nat} (h : TransportInv made told gone none t) (named : Bool) (times : HealthTimes) (page : PageState)
    {event : ConnectionEvent} (he : UnifiedConnection.Says (c ∈ gone) event) :
    TransportInv made told gone none (onEvent named times page c t event) := by
  cases event with
  | stateChange state serverReady => exact h.onStateChange times page he
  | physicalError message => exact h.onPhysicalError named page
  | physicalClose reason => exact h.onPhysicalClose named page reason he

theorem onEvents {c : Nat} (h : TransportInv made told gone none t) (named : Bool) (times : HealthTimes) (page : PageState)
    {events : List ConnectionEvent} (he : ∀ event ∈ events, UnifiedConnection.Says (c ∈ gone) event) :
    TransportInv made told gone none (events.foldl (UnifiedTransport.onEvent named times page c) t) := by
  induction events generalizing t with
  | nil => exact h
  | cons event rest ih =>
    rw [List.foldl_cons]
    exact ih (h.onEvent named times page (he event List.mem_cons_self)) fun e hm => he e (List.mem_cons_of_mem _ hm)

theorem connectionStep_cases {c : Nat} {named : Bool} {times : HealthTimes} {page : PageState} {enabled : UnifiedConnection → Bool}
    {f : UnifiedConnection → UnifiedConnection × List ConnectionEvent} {t' : UnifiedTransport}
    (hs : t.connectionStep named times page c enabled f = some t') :
    ∃ y, t.connections[c]? = some y ∧ enabled y = true ∧ t' = t.tell named times page c (f y).1 (f y).2 := by
  unfold UnifiedTransport.connectionStep at hs
  split at hs
  · cases hs
  · rename_i y hy
    split at hs
    · rename_i henabled
      exact ⟨y, hy, henabled, (Option.some.inj hs).symm⟩
    · cases hs

theorem setConnection {c : Nat} {y z : UnifiedConnection} (h : TransportInv made told gone x t) (hy : t.connections[c]? = some y)
    (hg : y.Goes z) : TransportInv made told gone x { t with connections := t.connections.set c z } := by
  refine h.replace (List.length_set ..) fun d v w hv hw => ?_
  rw [List.getElem?_set] at hw
  split at hw
  · rename_i hcd
    subst hcd
    split at hw
    · rw [hy, Option.some.injEq] at hv
      rw [Option.some.injEq] at hw
      exact hv ▸ hw ▸ hg
    · cases hw
  · rw [hv, Option.some.injEq] at hw
    exact hw ▸ ⟨id, id, id⟩

theorem mark {c : Nat} {y : UnifiedConnection} (h : TransportInv made told gone x t) (hy : t.connections[c]? = some y)
    (hdropped : y.Dropped) : TransportInv made told (c :: gone) x t :=
  { h with
    gone := fun d hd => by
      rcases List.mem_cons.mp hd with rfl | hd
      · exact ⟨y, hy, hdropped⟩
      · exact h.gone d hd }

/-- A connection's step, with what the owner makes of it. -/
theorem connectionStep {c : Nat} (h : TransportInv made told gone none t) {named : Bool} {times : HealthTimes} {page : PageState}
    {enabled : UnifiedConnection → Bool} {f : UnifiedConnection → UnifiedConnection × List ConnectionEvent} {t' : UnifiedTransport}
    (hf : ∀ y : UnifiedConnection, enabled y = true → y.Ok → y.Fits (f y))
    (hs : t.connectionStep named times page c enabled f = some t') : TransportInv made told gone none t' := by
  obtain ⟨y, hy, hyok, rfl⟩ := connectionStep_cases hs
  have hfits := hf y hyok (h.connections y (List.mem_of_getElem? hy))
  have hset := h.setConnection hy hfits.goes
  by_cases hdropped : (f y).1.Dropped
  · exact ((hset.mark (List.getElem?_set_self (List.getElem?_eq_some_iff.mp hy).1) hdropped).onEvents named times page fun event he =>
      (hfits.tells event he).imp fun _ => List.mem_cons_self).weaken (List.Subset.refl _) (List.subset_cons_self ..)
  · exact hset.onEvents named times page fun event he => (hfits.tells event he).imp fun hd => absurd hd hdropped

/-- The owner hears that its connection's socket has closed. -/
theorem socketClosed {c : Nat} (h : TransportInv made told gone none t) (hc : t.connection = some c) {named : Bool}
    {times : HealthTimes} {page : PageState} {enabled : UnifiedConnection → Bool} {reason : String} {t' : UnifiedTransport}
    (hs : t.connectionStep named times page c enabled (fun y => y.socketClosing reason) = some t') :
    TransportInv made (c :: told) gone none t' := by
  obtain ⟨y, hy, -, rfl⟩ := connectionStep_cases hs
  have hfits := y.socketClosing_fits reason
  have hset := (h.setConnection hy hfits.goes).mark (List.getElem?_set_self (List.getElem?_eq_some_iff.mp hy).1) (.inr rfl)
  have hgone : c ∈ c :: gone := List.mem_cons_self
  have hsays : UnifiedConnection.Says (c ∈ c :: gone) (.stateChange .closed false) := fun _ => ⟨hgone, rfl⟩
  refine weaken ?_ (List.Subset.refl _) (List.subset_cons_self c gone)
  cases named with
  | true => exact ((hset.onPhysicalClose_named hc hgone page _).onStateChange times page hsays).onStateChange times page hsays
  | false => exact (hset.onStateChange_closed hc hgone times page).onStateChange times page hsays

/-- The `closed` promise of a connection is resolved. -/
theorem closedFinally {c : Nat} {y : UnifiedConnection} (h : TransportInv made told gone none t) (hy : t.connections[c]? = some y)
    (hclosed : y.closed = true) (page : PageState) : TransportInv made told gone none (t.closedFinally page c) := by
  have hmarked := h.mark hy ((h.connections y (List.mem_of_getElem? hy)).closed hclosed)
  unfold UnifiedTransport.closedFinally
  split
  · rename_i hc
    exact ((hmarked.handlePhysicalDisconnect hc.1 page _).1.settle List.mem_cons_self).weaken (List.subset_cons_self ..)
      (List.subset_cons_self ..)
  · exact h

/-! ### Making a connection -/

/-- No connection is made before every fence is gone. -/
theorem create (h : TransportInv made told gone none t) (hnone : t.connection = none) (hfree : t.closingPromise = none)
    {y : UnifiedConnection} (hy : y.Ok) (name : String) {w : HealthWatchdog} (hw : w.connection = some t.connections.length) :
    TransportInv (made + 1) told gone none { t with
      creations := t.creations + 1, connections := t.connections ++ [y], connection := some t.connections.length
      targetName := name, healthWatchdog := some w } := by
  have hold {d : Nat} {z : UnifiedConnection} (hz : t.connections[d]? = some z) : (t.connections ++ [y])[d]? = some z := by
    rw [List.getElem?_append_left (List.getElem?_eq_some_iff.mp hz).1, hz]
  have hlength : (t.connections ++ [y]).length = t.connections.length + 1 := by
    rw [List.length_append, List.length_singleton]
  have hearlier {d : Nat} (hd : d < (t.connections ++ [y]).length) (hne : some t.connections.length ≠ some d) :
      d < t.connections.length ∧ t.connection ≠ some d := by
    rw [hlength] at hd
    have : t.connections.length ≠ d := fun he => hne (congrArg some he)
    exact ⟨by omega, by rw [hnone]; exact nofun⟩
  exact { h with
    current := fun d hd => by
      rw [← Option.some.inj hd]
      refine ⟨hlength ▸ Nat.lt_succ_self _, fun hm => Nat.lt_irrefl _ (h.bounded _ hm), hfree, ?_⟩
      by_contra he
      obtain ⟨f, -, hf, -⟩ := h.reason he
      rw [hfree] at hf
      cases hf
    bounded := fun d hd => hlength ▸ Nat.lt_succ_of_lt (h.bounded d hd)
    fenced := fun d hd hne => h.fenced d (hearlier hd hne).1 (hearlier hd hne).2
    dropped := fun d z hz hne hx => by
      obtain ⟨hd, hne⟩ := hearlier (List.getElem?_eq_some_iff.mp hz).1 hne
      rw [List.getElem?_append_left hd] at hz
      exact h.dropped d z hz hne hx
    connections := fun z hz => (List.mem_append.mp hz).elim (h.connections z) fun hz => List.mem_singleton.mp hz ▸ hy
    fences := fun fence hf hs => (h.fences fence hf hs).imp_right fun ⟨z, hz, hclosed⟩ => ⟨z, hold hz, hclosed⟩
    watchdog := fun v d hv hd => by
      rw [← Option.some.inj hv, hw] at hd
      exact hd
    made := congrArg (· + 1) h.made
    gone := fun d hd => by
      obtain ⟨z, hz, hdropped⟩ := h.gone d hd
      exact ⟨z, hold hz, hdropped⟩ }

/-- A connection is asked for only while there is none and no fence is up. -/
theorem ensure (h : TransportInv made told gone none t) (named : Bool) (times : HealthTimes) (page : PageState)
    (requestedTargetName url : String) (outcome : CreateOutcome) :
    ∃ n, TransportInv n told gone none (t.ensure named times page requestedTargetName url outcome).1 ∧
      (n = made ∨ t.connection = none ∧ t.closingPromise = none) := by
  unfold UnifiedTransport.ensure
  dsimp only
  split
  · exact ⟨made, h, .inl rfl⟩
  · rename_i hfree
    have hfree : t.closingPromise = none := by
      by_contra he
      exact hfree (.inr (.inr he))
    split
    · split
      · exact ⟨made, h, .inl rfl⟩
      · exact ⟨made, h.close _, .inl rfl⟩
    · rename_i hnone
      split
      · exact ⟨made, h, .inl rfl⟩
      · refine ⟨made + 1, ?_, .inr ⟨hnone, hfree⟩⟩
        split
        · exact { h with made := congrArg (· + 1) h.made }
        · obtain ⟨hok, htells⟩ := UnifiedConnection.created_connect (outcome = .connects)
          have hset : (t.connections ++ [UnifiedConnection.created]).set t.connections.length
              (UnifiedConnection.created.connect (outcome = .connects)).1 =
                t.connections ++ [(UnifiedConnection.created.connect (outcome = .connects)).1] := by
            rw [List.set_append_right _ _ (Nat.le_refl _), Nat.sub_self, List.set_cons_zero]
          unfold UnifiedTransport.tell startHealthWatchdog
          rw [hset]
          exact (h.create hnone hfree hok _ rfl).onEvents named times page fun event he => htells event he _

theorem prepare (h : TransportInv made told gone none t) (named : Bool) (times : HealthTimes) (page : PageState)
    (requestedTargetName url : String) (outcome : CreateOutcome) :
    ∃ n, TransportInv n told gone none (t.prepare named times page requestedTargetName url outcome).1 ∧
      (n = made ∨ t.connection = none ∧ t.closingPromise = none) := by
  unfold UnifiedTransport.prepare
  dsimp only
  split
  · exact ⟨made, h, .inl rfl⟩
  · obtain ⟨n, hn, hmade⟩ := h.ensure named times page (String.ofList (Js.trim requestedTargetName.toList)) url outcome
    split
    · rename_i u heq
      rw [heq] at hn
      exact ⟨n, hn.close _, hmade⟩
    · rename_i u c heq
      rw [heq] at hn
      exact ⟨n, hn, hmade⟩
    · rename_i u heq
      rw [heq] at hn
      exact ⟨n, hn, hmade⟩

theorem cancelPrepared (h : TransportInv made told gone none t) (prepared : Nat) (reason : String) :
    TransportInv made told gone none (t.cancelPrepared prepared reason) := by
  unfold UnifiedTransport.cancelPrepared
  split
  · exact h.close reason
  · exact h

theorem dispose (h : TransportInv made told gone none t) (reason : String) :
    TransportInv made told gone none (t.dispose reason) := by
  unfold UnifiedTransport.dispose
  split
  · exact h
  · have hstopped : TransportInv made told gone none { t with recoveryRetryTimer := false } := { h with }
    exact { hstopped.close reason with }

/-! ### Recovery -/

theorem clearExpected (h : TransportInv made told gone x t) :
    TransportInv made told gone x { t with expectedCloseReason := "" } :=
  { h with
    current := fun c hc => ⟨(h.current c hc).1, (h.current c hc).2.1, (h.current c hc).2.2.1, rfl⟩
    reason := fun he => absurd rfl he }

theorem startRecovery (h : TransportInv made told gone none t) (page : PageState) :
    TransportInv made told gone none (t.startRecovery page) := by
  unfold UnifiedTransport.startRecovery
  dsimp only
  split
  · exact { h with }
  · have hrunning : TransportInv made told gone none { t with recoveryScheduled := false, recoveryRunning := true } := { h with }
    exact { hrunning.close "transport_recovery" with }

theorem resumeRecovery (h : TransportInv made told gone none t) (page : PageState) (fails : Bool) :
    TransportInv made told gone none (t.resumeRecovery page fails) := by
  unfold UnifiedTransport.resumeRecovery
  extract_lets cleared retrying pendingReason finished
  have hcleared : TransportInv made told gone none cleared := { h.clearExpected with }
  have hretrying : TransportInv made told gone none retrying := by
    unfold retrying
    split
    · exact { hcleared with }
    · exact hcleared
  have hfinished : TransportInv made told gone none finished := { hretrying with }
  split
  · exact hfinished.scheduleRecovery page _
  · exact hfinished

theorem retryUnavailable (h : TransportInv made told gone none t) (page : PageState) (reason : String) :
    TransportInv made told gone none (t.retryUnavailable page reason) := by
  unfold UnifiedTransport.retryUnavailable
  extract_lets available
  split
  · exact h
  · exact h.scheduleRecovery page reason

theorem probe (h : TransportInv made told gone none t) (times : HealthTimes) (page : PageState) (reason : String) :
    TransportInv made told gone none (t.probe times page reason) := by
  unfold UnifiedTransport.probe
  split
  · exact h
  · exact h.probeWatchdog times page reason

/-! ### Fences -/

/-- A fence that goes on, with what goes with it: the closing promise is left as it is or given up. -/
theorem withFence {f : Nat} {fence : CloseFence} (h : TransportInv made told gone x t) (hf : t.fences[f]? = some fence)
    (change : CloseFence → CloseFence) (ho : (change fence).observedConnection = fence.observedConnection)
    (hp : (change fence).stage ≠ .pending → t.Passed (change fence)) {closing : Option Nat} {expected : String}
    (hw : (change fence).stage = .done ∨ closing = some f)
    (hclosing : closing = t.closingPromise ∨ closing = none ∧ t.closingPromise = some f)
    (hr : expected ≠ "" → expected = t.expectedCloseReason ∧ closing = t.closingPromise ∧
      (change fence).reason = fence.reason ∧ ((change fence).stage = .pending ∨ (change fence).stage = .settled)) :
    TransportInv made told gone x { t with
      fences := t.fences.modify f change, closingPromise := closing, expectedCloseReason := expected } := by
  have hat : (t.fences.modify f change)[f]? = some (change fence) := by
    rw [List.getElem?_modify_eq, hf]
    rfl
  have hother {g : Nat} (hg : f ≠ g) : (t.fences.modify f change)[g]? = t.fences[g]? :=
    List.getElem?_modify_ne _ _ hg
  have hmem {y : CloseFence} (hy : y ∈ t.fences.modify f change) : y ∈ t.fences ∨ y = change fence := by
    obtain ⟨g, hg⟩ := List.mem_iff_getElem?.mp hy
    by_cases hfg : f = g
    · subst hfg
      rw [hat] at hg
      exact .inr (Option.some.inj hg).symm
    · rw [hother hfg] at hg
      exact .inl (List.mem_of_getElem? hg)
  exact { h with
    current := fun c hc => by
      obtain ⟨hlt, hnot, hfree, hexpected⟩ := h.current c hc
      refine ⟨hlt, hnot, ?_, ?_⟩
      · exact hclosing.elim (fun he => he.trans hfree) fun he => he.1
      · by_contra he
        exact he ((hr he).1.trans hexpected)
    fenced := fun c hc hne => by
      obtain ⟨hclosed, y, hy, hyo⟩ := h.fenced c hc hne
      obtain ⟨g, hg⟩ := List.mem_iff_getElem?.mp hy
      by_cases hfg : f = g
      · subst hfg
        rw [hf] at hg
        exact ⟨hclosed, _, List.mem_of_getElem? hat, ho.trans (Option.some.inj hg ▸ hyo)⟩
      · rw [← hother hfg] at hg
        exact ⟨hclosed, y, List.mem_of_getElem? hg, hyo⟩
    fences := fun y hy => by
      rcases hmem hy with hy | rfl
      · exact h.fences y hy
      · exact hp
    waits := fun g y hg => by
      by_cases hfg : f = g
      · subst hfg
        rw [hat] at hg
        exact Option.some.inj hg ▸ hw
      · rw [hother hfg] at hg
        refine (h.waits g y hg).imp_right fun hwaits => ?_
        rcases hclosing with he | he
        · exact he.trans hwaits
        · exact absurd (Option.some.inj (he.2.symm.trans hwaits)) hfg
    reason := fun he => by
      obtain ⟨rfl, hkeep, hreason, hstage⟩ := hr he
      obtain ⟨g, y, hg, hy, hyr, hys⟩ := h.reason he
      by_cases hfg : f = g
      · subst hfg
        rw [hf] at hy
        obtain rfl := Option.some.inj hy
        exact ⟨f, _, hkeep.trans hg, hat, hreason.trans hyr, hstage⟩
      · exact ⟨g, y, hkeep.trans hg, (hother hfg).trans hy, hyr, hys⟩ }

theorem fenceStep_cases {f : Nat} {enabled : CloseFence → Bool} {change : CloseFence → UnifiedTransport} {t' : UnifiedTransport}
    (hs : t.fenceStep f enabled change = some t') :
    ∃ fence, t.fences[f]? = some fence ∧ enabled fence = true ∧ t' = change fence := by
  unfold UnifiedTransport.fenceStep at hs
  split at hs
  · cases hs
  · rename_i fence hf
    split at hs
    · rename_i henabled
      exact ⟨fence, hf, henabled, (Option.some.inj hs).symm⟩
    · cases hs

theorem fenceTimer {f : Nat} {fence : CloseFence} (h : TransportInv made told gone x t) (hf : t.fences[f]? = some fence)
    (hstage : fence.stage = .pending) :
    TransportInv made told gone x { t with fences := t.fences.modify f fun fence => { fence with elapsed := true } } :=
  h.withFence hf _ rfl (fun hs => absurd hstage hs)
    ((h.waits f fence hf).imp_left fun hs => hs) (.inl rfl)
    fun _ => ⟨rfl, rfl, rfl, .inl hstage⟩

theorem fenceSettles {f : Nat} {fence : CloseFence} (h : TransportInv made told gone x t) (hf : t.fences[f]? = some fence)
    (hstage : fence.stage = .pending) (hpassed : t.Passed fence) : TransportInv made told gone x (t.setStage f .settled) :=
  h.withFence hf _ rfl (fun _ => hpassed)
    (.inr ((h.waits f fence hf).resolve_left fun hs => by rw [hstage] at hs; cases hs)) (.inl rfl)
    fun _ => ⟨rfl, rfl, rfl, .inr rfl⟩

/-- A reason is expected only until the fence that was put up with it has cleared it. -/
theorem clearReason {f : Nat} {fence : CloseFence} {reason : String} (h : TransportInv made told gone x t)
    (hf : t.fences[f]? = some fence) (hstage : fence.stage = .settled) (hreason : fence.reason = some reason) :
    TransportInv made told gone x (t.clearReason f reason) := by
  have hwaits : t.closingPromise = some f := (h.waits f fence hf).resolve_left fun hs => by rw [hstage] at hs; cases hs
  have hpassed : t.Passed fence := h.fences fence (List.mem_of_getElem? hf) (by rw [hstage]; exact nofun)
  unfold UnifiedTransport.clearReason
  dsimp only
  split
  · exact h.withFence hf _ rfl (fun _ => hpassed) (.inr hwaits) (.inl rfl) fun he => absurd rfl he
  · rename_i hne
    refine h.withFence hf _ rfl (fun _ => hpassed) (.inr hwaits) (.inl rfl) fun he => ?_
    obtain ⟨g, y, hg, hy, hyr, -⟩ := h.reason he
    obtain rfl := Option.some.inj (hwaits.symm.trans hg)
    rw [hf] at hy
    obtain rfl := Option.some.inj hy
    exact absurd (Option.some.inj (hyr.symm.trans hreason)) hne

theorem releaseFence {f : Nat} {fence : CloseFence} (h : TransportInv made told gone x t) (hf : t.fences[f]? = some fence)
    (hstage : fence.stage = .cleared ∨ fence.stage = .settled ∧ fence.reason = none) :
    TransportInv made told gone x (t.releaseFence f) := by
  have hdone : fence.stage ≠ .done ∧ fence.stage ≠ .pending := by
    rcases hstage with hs | ⟨hs, -⟩ <;> rw [hs] <;> exact ⟨nofun, nofun⟩
  have hwaits : t.closingPromise = some f := (h.waits f fence hf).resolve_left hdone.1
  have hpassed : t.Passed fence := h.fences fence (List.mem_of_getElem? hf) hdone.2
  have hfence : (t.setStage f .done).closingPromise = some f := hwaits
  unfold UnifiedTransport.releaseFence
  dsimp only
  rw [if_pos hfence]
  refine h.withFence hf _ rfl (fun _ => hpassed) (.inl rfl) (.inr ⟨rfl, hwaits⟩) fun he => ?_
  obtain ⟨g, y, hg, hy, hyr, hys⟩ := h.reason he
  obtain rfl := Option.some.inj (hwaits.symm.trans hg)
  rw [hf] at hy
  obtain rfl := Option.some.inj hy
  rcases hstage with hs | ⟨-, hs⟩
  · rw [hs] at hys
    exact hys.elim nofun nofun
  · exact absurd (hs.symm.trans hyr) nofun

theorem all_done (h : TransportInv made told gone x t) (hfree : t.closingPromise = none) :
    ∀ fence ∈ t.fences, fence.stage = .done := by
  intro fence hf
  obtain ⟨f, hat⟩ := List.mem_iff_getElem?.mp hf
  refine (h.waits f fence hat).resolve_right fun hwaits => ?_
  rw [hfree] at hwaits
  cases hwaits

/-! ### Steps and runs -/

theorem tick (h : TransportInv made told gone none t) (now : Nat) : TransportInv made told gone none { t with now := now } :=
  { h with }

/-- Every step keeps the invariant, and asks for a connection only while there is none and no fence is up. -/
theorem step {named : Bool} {times : HealthTimes} {t' : UnifiedTransport} {event : TransportEvent}
    (h : TransportInv made told gone none t) (hs : (transportMachine named times).step t event = some t') :
    ∃ n, TransportInv n told gone none t' ∧ (n = made ∨ t.connection = none ∧ t.closingPromise = none) := by
  have hkept (hi : TransportInv made told gone none t') :
      ∃ n, TransportInv n told gone none t' ∧ (n = made ∨ t.connection = none ∧ t.closingPromise = none) := ⟨made, hi, .inl rfl⟩
  cases event with
  | ensure page requestedTargetName url outcome =>
    rw [← Option.some.inj hs]
    exact h.ensure named times page requestedTargetName url outcome
  | prepare page requestedTargetName url outcome =>
    rw [← Option.some.inj hs]
    exact h.prepare named times page requestedTargetName url outcome
  | cancelPrepared prepared reason => exact hkept (Option.some.inj hs ▸ h.cancelPrepared prepared reason)
  | close reason => exact hkept (Option.some.inj hs ▸ h.close reason)
  | dispose reason => exact hkept (Option.some.inj hs ▸ h.dispose reason)
  | scheduleRecovery page reason => exact hkept (Option.some.inj hs ▸ h.scheduleRecovery page reason)
  | startRecovery page =>
    obtain ⟨-, he⟩ := Option.ite_none_right_eq_some.mp hs
    exact hkept (Option.some.inj he ▸ h.startRecovery page)
  | resumeRecovery page fails =>
    refine hkept ?_
    simp only [transportMachine] at hs
    split at hs
    · cases hs
    · exact Option.some.inj hs ▸ h.resumeRecovery page fails
    · obtain ⟨-, he⟩ := Option.ite_none_right_eq_some.mp hs
      exact Option.some.inj he ▸ h.resumeRecovery page fails
  | retryTimer page =>
    obtain ⟨-, he⟩ := Option.ite_none_right_eq_some.mp hs
    have hstopped : TransportInv made told gone none { t with recoveryRetryTimer := false } := { h with }
    exact hkept (Option.some.inj he ▸ hstopped.scheduleRecovery page _)
  | retryUnavailable page reason => exact hkept (Option.some.inj hs ▸ h.retryUnavailable page reason)
  | clearExpectedCloseReason => exact hkept (Option.some.inj hs ▸ h.clearExpected)
  | tick now =>
    obtain ⟨-, he⟩ := Option.ite_none_right_eq_some.mp hs
    exact hkept (Option.some.inj he ▸ h.tick now)
  | interval page =>
    obtain ⟨-, he⟩ := Option.ite_none_right_eq_some.mp hs
    exact hkept (Option.some.inj he ▸ h.check times page _)
  | probe page reason => exact hkept (Option.some.inj hs ▸ h.probe times page reason)
  | socketOpened page c => exact hkept (h.connectionStep (fun _ _ _ => UnifiedConnection.opened_fits) hs)
  | serverReady page c =>
    refine hkept (h.connectionStep (fun y he hy => ?_) hs)
    simp only [Bool.and_eq_true, decide_eq_true_eq, Bool.not_eq_true'] at he
    exact hy.ready_fits he.1 he.2
  | pong c =>
    exact hkept (h.connectionStep (fun y _ _ => ⟨⟨fun hy => ⟨hy.closed, hy.state, hy.socket⟩, id, id⟩, fun _ he => by cases he⟩) hs)
  | physicalError page c message => exact hkept (h.connectionStep (fun _ _ _ => UnifiedConnection.dispatchPhysicalError_fits _) hs)
  | socketCloses c =>
    refine hkept (h.connectionStep (fun y he _ => ⟨⟨fun hy => ⟨hy.closed, hy.state, fun _ => hy.socket ?_⟩, id, id⟩, fun _ he => by cases he⟩) hs)
    exact Option.isSome_iff_ne_none.mp he
  | socketClosed page c reason => exact hkept (h.connectionStep (fun _ _ _ => UnifiedConnection.socketClosing_fits _) hs)
  | logicalOpened page c constructs => exact hkept (h.connectionStep (fun _ _ hy => hy.openLogical_fits _) hs)
  | logicalClosed page c => exact hkept (h.connectionStep (fun _ _ hy => hy.closeLogical_fits) hs)
  | closedFinally page c =>
    obtain ⟨hclosed, he⟩ := Option.ite_none_right_eq_some.mp hs
    cases hy : t.connections[c]? with
    | none =>
      rw [hy] at hclosed
      cases hclosed
    | some y =>
      rw [hy] at hclosed
      exact hkept (Option.some.inj he ▸ h.closedFinally hy hclosed page)
  | fenceTimer f =>
    obtain ⟨fence, hf, he, rfl⟩ := fenceStep_cases hs
    exact hkept (h.fenceTimer hf (of_decide_eq_true he))
  | fenceSettles f =>
    obtain ⟨fence, hf, he, rfl⟩ := fenceStep_cases hs
    simp only [Bool.and_eq_true, Bool.or_eq_true, decide_eq_true_eq] at he
    refine hkept (h.fenceSettles hf he.1 (he.2.imp_right fun hclosed => ?_))
    cases hy : t.connections[fence.observedConnection]? with
    | none =>
      rw [hy] at hclosed
      cases hclosed
    | some y =>
      rw [hy] at hclosed
      exact ⟨y, rfl, hclosed⟩
  | clearReason f =>
    obtain ⟨fence, hf, he, rfl⟩ := fenceStep_cases hs
    simp only [Bool.and_eq_true, decide_eq_true_eq] at he
    obtain ⟨reason, hreason⟩ := Option.isSome_iff_exists.mp he.2
    refine hkept (h.clearReason hf he.1 ?_)
    rw [hreason, Option.getD_some]
  | releaseFence f =>
    obtain ⟨fence, hf, he, rfl⟩ := fenceStep_cases hs
    simp only [Bool.or_eq_true, Bool.and_eq_true, decide_eq_true_eq, Option.isNone_iff_eq_none] at he
    exact hkept (h.releaseFence hf he)

theorem run {named : Bool} {times : HealthTimes} {t' : UnifiedTransport} {events : List TransportEvent}
    (h : TransportInv made told gone none t) (hs : (transportMachine named times).run t events = some t') :
    ∃ n, TransportInv n told gone none t' :=
  Machine.run_inv _ (I := fun u => ∃ n, TransportInv n told gone none u)
    (fun _ _ _ ⟨_, hu⟩ hstep => (hu.step hstep).imp fun _ hn => hn.1) hs ⟨made, h⟩

end TransportInv

/-! ## Late events -/

/-- The connection that raises an event, or that a callback was made for. -/
def TransportEvent.ofConnection : TransportEvent → Option Nat
  | .socketOpened _ c | .serverReady _ c | .pong c | .physicalError _ c _ | .socketCloses c | .socketClosed _ c _
  | .logicalOpened _ c _ | .logicalClosed _ c | .closedFinally _ c | .cancelPrepared c _ => some c
  | _ => none

namespace UnifiedTransport

variable {t : UnifiedTransport} {c : Nat}

theorem onEvent_late (hc : t.connection ≠ some c) (named : Bool) (times : HealthTimes) (page : PageState) (event : ConnectionEvent) :
    onEvent named times page c t event = t := by
  cases event with
  | stateChange state serverReady => exact if_pos hc
  | physicalError message => exact if_neg fun he => hc he.2
  | physicalClose reason => exact if_neg fun he => hc he.2.1

/-- The owner does not listen to another connection. -/
theorem tell_late (hc : t.connection ≠ some c) (named : Bool) (times : HealthTimes) (page : PageState)
    (connection : UnifiedConnection) (events : List ConnectionEvent) :
    t.tell named times page c connection events = { t with connections := t.connections.set c connection } := by
  have hfold (u : UnifiedTransport) (hu : u.connection ≠ some c) : events.foldl (onEvent named times page c) u = u := by
    induction events with
    | nil => rfl
    | cons event rest ih => rw [List.foldl_cons, onEvent_late hu, ih]
  exact hfold _ hc

theorem connectionStep_late (hc : t.connection ≠ some c) {named : Bool} {times : HealthTimes} {page : PageState}
    {enabled : UnifiedConnection → Bool} {f : UnifiedConnection → UnifiedConnection × List ConnectionEvent} {t' : UnifiedTransport}
    (hs : t.connectionStep named times page c enabled f = some t') :
    t'.connection = t.connection ∧ t'.targetName = t.targetName := by
  obtain ⟨y, -, -, rfl⟩ := TransportInv.connectionStep_cases hs
  rw [tell_late hc]
  exact ⟨rfl, rfl⟩

theorem step_late (hc : t.connection ≠ some c) {named : Bool} {times : HealthTimes} {event : TransportEvent}
    (he : event.ofConnection = some c) {t' : UnifiedTransport} (hs : (transportMachine named times).step t event = some t') :
    t'.connection = t.connection ∧ t'.targetName = t.targetName := by
  cases event with
  | socketOpened | serverReady | pong | physicalError | socketCloses | socketClosed | logicalOpened | logicalClosed =>
    obtain rfl := Option.some.inj he
    exact connectionStep_late hc hs
  | closedFinally page d =>
    obtain rfl := Option.some.inj he
    obtain ⟨-, hs⟩ := Option.ite_none_right_eq_some.mp hs
    rw [← Option.some.inj hs, closedFinally, if_neg fun h => hc h.1]
    exact ⟨rfl, rfl⟩
  | cancelPrepared d reason =>
    obtain rfl := Option.some.inj he
    rw [← Option.some.inj hs, cancelPrepared, if_neg fun h => hc h.1]
    exact ⟨rfl, rfl⟩
  | _ => cases he

end UnifiedTransport

/-! ## One connection at a time -/

/-- A connection is asked for only when every earlier one was told to close or has lost its socket, and
is waited for no longer. While there is one no fence is up and no close is expected, and the close of
its socket is handled once. What earlier connections do leaves it as it is. -/
theorem one_connection_at_a_time (named : Bool) (times : HealthTimes) {events : List TransportEvent} {t : UnifiedTransport}
    (h : (transportMachine named times).run {} events = some t) :
    (∀ event t', (transportMachine named times).step t event = some t' → t'.creations ≠ t.creations →
      ∀ (c : Nat) (y : UnifiedConnection), t.connections[c]? = some y → (y.closeCalled = true ∨ y.socketClosed = true) ∧
        (y.closed = true ∨ ∃ fence ∈ t.fences, fence.observedConnection = c ∧ fence.elapsed = true)) ∧
    (t.connection ≠ none →
      t.closingPromise = none ∧ (∀ fence ∈ t.fences, fence.stage = .done) ∧ t.expectedCloseReason = "") ∧
    (∀ page c reason t', t.connection = some c → (transportMachine named times).step t (.socketClosed page c reason) = some t' →
      t.disconnects.count c = 0 ∧
        ∀ later u, (transportMachine named times).run t' later = some u → u.disconnects.count c = 1) ∧
    (∀ event c t', event.ofConnection = some c → t.connection ≠ some c → (transportMachine named times).step t event = some t' →
      t'.connection = t.connection ∧ t'.targetName = t.targetName) := by
  obtain ⟨made, hinv⟩ := TransportInv.start.run h
  refine ⟨fun event t' hs hcreated c y hy => ?_, fun hc => ?_, fun page c reason t' hc hs => ⟨?_, fun later u hu => ?_⟩,
    fun event c t' he hc hs => UnifiedTransport.step_late hc he hs⟩
  · obtain ⟨n, hn, hmade⟩ := hinv.step hs
    obtain ⟨hnone, hfree⟩ := hmade.resolve_left fun hsame => hcreated (hn.made.trans (hsame.trans hinv.made.symm))
    have hother : t.connection ≠ some c := by rw [hnone]; exact nofun
    refine ⟨hinv.dropped c y hy hother nofun, ?_⟩
    obtain ⟨-, fence, hf, ho⟩ := hinv.fenced c (List.getElem?_eq_some_iff.mp hy).1 hother
    have hdone : fence.stage = .done := hinv.all_done hfree fence hf
    rcases hinv.fences fence hf (by rw [hdone]; exact nofun) with helapsed | ⟨z, hz, hclosed⟩
    · exact .inr ⟨fence, hf, ho, helapsed⟩
    · rw [ho, hy, Option.some.injEq] at hz
      exact .inl (hz ▸ hclosed)
  · obtain ⟨c, hc⟩ := Option.ne_none_iff_exists'.mp hc
    obtain ⟨-, -, hfree, hexpected⟩ := hinv.current c hc
    exact ⟨hfree, hinv.all_done hfree, hexpected⟩
  · exact List.count_eq_zero.mpr fun hd => (hinv.current c hc).2.1 (hinv.once.2 c hd)
  · obtain ⟨n, hn⟩ := (hinv.socketClosed hc hs).run hu
    exact List.count_eq_one_of_mem hn.once.1 (hn.told c List.mem_cons_self)

/-- A connection that is lost, and the fence behind it. -/
def lostConnection : List TransportEvent :=
  [.ensure {} " a " "ws://a" .connects, .socketOpened {} 0, .socketClosed {} 0 "gone", .fenceSettles 0, .releaseFence 0]

theorem lostConnection_runs : ((transportMachine false {}).run {} lostConnection).isSome = true := by decide +kernel

theorem one_connection_at_a_time_demo : ∃ t t', (transportMachine false {}).run {} lostConnection = some t ∧
    (transportMachine false {}).step t (.ensure {} "a" "ws://a" .connects) = some t' ∧ t'.connection = some 1 ∧
    t.disconnects = [0] ∧ ∀ y, t.connections[0]? = some y → (y.closeCalled = true ∨ y.socketClosed = true) ∧
      (y.closed = true ∨ ∃ fence ∈ t.fences, fence.observedConnection = 0 ∧ fence.elapsed = true) := by
  have h := (Option.some_get lostConnection_runs).symm
  refine ⟨_, _, h, rfl, by decide +kernel, by decide +kernel, fun y hy => ?_⟩
  exact (one_connection_at_a_time false {} h).1 (.ensure {} "a" "ws://a" .connects) _ rfl (by decide +kernel) 0 y hy

end Webshell
