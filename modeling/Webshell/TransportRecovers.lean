import Webshell.OneConnection
import Webshell.Settling

/-!
# No dead page

What the owner of the physical connection owes itself are the callbacks of its
fences and the two halves of a recovery. They come to an end in any order, and
when they have, the next `ensure` has a connection, unless it has just given up
one for another target: then the one after that has.
-/

namespace Webshell

open Machine

namespace UnifiedTransport

variable {t u : UnifiedTransport}

/-! ## Fences that are up -/

def Up (t : UnifiedTransport) (f : Nat) : Prop := ∃ fence, t.fences[f]? = some fence ∧ fence.stage ≠ .done

/-- The recovery is where it was, and fences have only been added. -/
structure FencesOn (t u : UnifiedTransport) : Prop where
  running : u.recoveryRunning = t.recoveryRunning
  awaiting : u.awaiting = t.awaiting
  fences : t.fences <+: u.fences
  closing : u.closingPromise = t.closingPromise ∨ ∃ f, u.closingPromise = some f ∧ u.Up f

namespace FencesOn

theorem same (hr : u.recoveryRunning = t.recoveryRunning) (ha : u.awaiting = t.awaiting) (hf : u.fences = t.fences)
    (hc : u.closingPromise = t.closingPromise) : FencesOn t u :=
  ⟨hr, ha, hf ▸ List.prefix_rfl, .inl hc⟩

theorem refl (t : UnifiedTransport) : FencesOn t t := .same rfl rfl rfl rfl

theorem trans {v : UnifiedTransport} (h₁ : FencesOn t u) (h₂ : FencesOn u v) : FencesOn t v where
  running := h₂.running.trans h₁.running
  awaiting := h₂.awaiting.trans h₁.awaiting
  fences := h₁.fences.trans h₂.fences
  closing := by
    rcases h₂.closing with hv | hv
    · rcases h₁.closing with hu | ⟨f, hu, fence, hf, hstage⟩
      · exact .inl (hv.trans hu)
      · refine .inr ⟨f, hv.trans hu, fence, ?_, hstage⟩
        obtain ⟨added, he⟩ := h₂.fences
        rw [← he, List.getElem?_append_left (List.getElem?_eq_some_iff.mp hf).1, hf]
    · exact .inr hv

/-- The closing promise is that of a fence that is up. -/
theorem closing_up (hon : FencesOn t u) (h : ∀ f, t.closingPromise = some f → t.Up f) (f : Nat)
    (hf : u.closingPromise = some f) : u.Up f := by
  rcases hon.closing with hc | ⟨g, hg, hup⟩
  · obtain ⟨fence, hat, hstage⟩ := h f (hc ▸ hf)
    obtain ⟨added, he⟩ := hon.fences
    refine ⟨fence, ?_, hstage⟩
    rw [← he, List.getElem?_append_left (List.getElem?_eq_some_iff.mp hat).1, hat]
  · obtain rfl := Option.some.inj (hg.symm.trans hf)
    exact hup

end FencesOn

theorem registerClosingFence_on (t : UnifiedTransport) (c : Nat) (reason : Option String) :
    FencesOn t (t.registerClosingFence c reason) where
  running := rfl
  awaiting := rfl
  fences := List.prefix_append _ _
  closing := .inr ⟨t.fences.length, rfl, _, by simp [registerClosingFence]; rfl, by simp⟩

theorem scheduleRecovery_on (t : UnifiedTransport) (page : PageState) (reason : String) :
    FencesOn t (t.scheduleRecovery page reason) := by
  unfold scheduleRecovery
  split
  · exact .refl t
  · split <;> exact .same rfl rfl rfl rfl

theorem close_on (t : UnifiedTransport) (reason : String) : FencesOn t (t.close reason) := by
  unfold close
  dsimp only
  split
  · exact .refl t
  · exact FencesOn.trans (.same rfl rfl rfl rfl) ((registerClosingFence_on _ _ _).trans (.same rfl rfl rfl rfl))

theorem handlePhysicalDisconnect_on (t : UnifiedTransport) (page : PageState) (c : Nat) (reason : String)
    (closeConnection : Bool) : FencesOn t (t.handlePhysicalDisconnect page c reason closeConnection) := by
  unfold handlePhysicalDisconnect
  extract_lets logged watched fenced left shut'
  have hwatched : FencesOn t watched := .same rfl rfl rfl rfl
  have hfenced : FencesOn watched fenced := by
    unfold fenced
    split
    · exact registerClosingFence_on ..
    · exact .refl _
  have hleft : FencesOn fenced left := by
    unfold left
    split <;> exact .same rfl rfl rfl rfl
  have hshut : FencesOn left shut' := by
    unfold shut'
    split <;> exact .same rfl rfl rfl rfl
  split
  · exact .same rfl rfl rfl rfl
  · exact ((hwatched.trans hfenced).trans (hleft.trans hshut)).trans (scheduleRecovery_on ..)

theorem onDisconnected_on (t : UnifiedTransport) (page : PageState) (reason : String) (observed : Option Nat) :
    FencesOn t (t.onDisconnected page reason observed) := by
  unfold onDisconnected
  split
  · exact .refl t
  · exact scheduleRecovery_on ..

theorem closeUnhealthy_on (t : UnifiedTransport) (page : PageState) (reason : String) (c : Nat) :
    FencesOn t (t.closeUnhealthy page reason c) :=
  (handlePhysicalDisconnect_on t page c reason false).trans (.same rfl rfl rfl rfl)

theorem watched_on (t : UnifiedTransport) (watchdog : Option HealthWatchdog) :
    FencesOn t { t with healthWatchdog := watchdog } := .same rfl rfl rfl rfl

theorem checkOpen_on (t : UnifiedTransport) (times : HealthTimes) (page : PageState) (w : HealthWatchdog) (c : Nat)
    (connection : UnifiedConnection) : FencesOn t (t.checkOpen times page w c connection) := by
  unfold checkOpen
  dsimp only
  split_ifs
  all_goals first
    | exact watched_on t _
    | exact (watched_on t _).trans (closeUnhealthy_on ..)

theorem check_on (t : UnifiedTransport) (times : HealthTimes) (page : PageState) (reason : String) :
    FencesOn t (t.check times page reason) := by
  unfold check
  split
  · exact .refl t
  · split
    · exact .refl t
    · split
      · exact onDisconnected_on ..
      · split
        · exact .refl t
        · dsimp only
          split
          · exact (watched_on t _).trans (checkOpen_on ..)
          · exact (watched_on t _).trans (onDisconnected_on ..)
          · split
            · exact (watched_on t _).trans (closeUnhealthy_on ..)
            · exact watched_on t _
          · split
            · exact (watched_on t _).trans (closeUnhealthy_on ..)
            · exact watched_on t _

theorem probeWatchdog_on (t : UnifiedTransport) (times : HealthTimes) (page : PageState) (reason : String) :
    FencesOn t (t.probeWatchdog times page reason) :=
  (watched_on t _).trans (check_on ..)

theorem onStateChange_on (t : UnifiedTransport) (times : HealthTimes) (page : PageState) (c : Nat) (state : SocketState)
    (serverReady : Bool) : FencesOn t (t.onStateChange times page c state serverReady) := by
  unfold onStateChange
  split
  · exact .refl t
  · extract_lets becameOpen becameReady observed started opened ready
    have hobserved : FencesOn t observed := .same rfl rfl rfl rfl
    have hstarted : FencesOn observed started := by
      unfold started
      split <;> exact .same rfl rfl rfl rfl
    have hopened : FencesOn started opened := by
      unfold opened
      split
      · exact probeWatchdog_on ..
      · exact .refl _
    have hready : FencesOn opened ready := by
      unfold ready
      split
      · exact probeWatchdog_on ..
      · exact .refl _
    have hall := (hobserved.trans hstarted).trans (hopened.trans hready)
    split
    · exact hall.trans (handlePhysicalDisconnect_on ..)
    · exact hall

theorem onEvent_on (named : Bool) (times : HealthTimes) (page : PageState) (c : Nat) (t : UnifiedTransport)
    (event : ConnectionEvent) : FencesOn t (onEvent named times page c t event) := by
  cases event with
  | stateChange state serverReady => exact onStateChange_on ..
  | physicalError message =>
    unfold onEvent onPhysicalError
    dsimp only
    split
    · exact handlePhysicalDisconnect_on ..
    · exact .refl t
  | physicalClose reason =>
    unfold onEvent onPhysicalClose
    dsimp only
    split
    · exact handlePhysicalDisconnect_on ..
    · exact .refl t

theorem tell_on (t : UnifiedTransport) (named : Bool) (times : HealthTimes) (page : PageState) (c : Nat)
    (connection : UnifiedConnection) (events : List ConnectionEvent) :
    FencesOn t (t.tell named times page c connection events) := by
  have hall (u : UnifiedTransport) : FencesOn u (events.foldl (onEvent named times page c) u) := by
    induction events generalizing u with
    | nil => exact .refl u
    | cons event rest ih => exact (onEvent_on named times page c u event).trans (ih _)
  refine FencesOn.trans ?_ (hall _)
  exact .same rfl rfl rfl rfl

theorem ensure_on (t : UnifiedTransport) (named : Bool) (times : HealthTimes) (page : PageState)
    (requestedTargetName url : String) (outcome : CreateOutcome) :
    FencesOn t (t.ensure named times page requestedTargetName url outcome).1 := by
  unfold ensure
  dsimp only
  split
  · exact .refl t
  · split
    · split
      · exact .refl t
      · exact close_on ..
    · split
      · exact .refl t
      · split
        · exact .same rfl rfl rfl rfl
        · refine FencesOn.trans ?_ (tell_on ..)
          exact .same rfl rfl rfl rfl

theorem prepare_on (t : UnifiedTransport) (named : Bool) (times : HealthTimes) (page : PageState)
    (requestedTargetName url : String) (outcome : CreateOutcome) :
    FencesOn t (t.prepare named times page requestedTargetName url outcome).1 := by
  unfold prepare
  dsimp only
  split
  · exact .refl t
  · have h := ensure_on t named times page (String.ofList (Js.trim requestedTargetName.toList)) url outcome
    split
    · rename_i heq
      rw [heq] at h
      exact h.trans (close_on ..)
    · rename_i heq
      rw [heq] at h
      exact h
    · rename_i heq
      rw [heq] at h
      exact h

theorem cancelPrepared_on (t : UnifiedTransport) (prepared : Nat) (reason : String) :
    FencesOn t (t.cancelPrepared prepared reason) := by
  unfold cancelPrepared
  split
  · exact close_on ..
  · exact .refl t

theorem dispose_on (t : UnifiedTransport) (reason : String) : FencesOn t (t.dispose reason) := by
  unfold dispose
  split
  · exact .refl t
  · have h := close_on { t with recoveryRetryTimer := false } reason
    exact ⟨h.running, h.awaiting, h.fences, h.closing⟩

theorem retryUnavailable_on (t : UnifiedTransport) (page : PageState) (reason : String) :
    FencesOn t (t.retryUnavailable page reason) := by
  unfold retryUnavailable
  extract_lets available
  split
  · exact .refl t
  · exact scheduleRecovery_on ..

theorem probe_on (t : UnifiedTransport) (times : HealthTimes) (page : PageState) (reason : String) :
    FencesOn t (t.probe times page reason) := by
  unfold probe
  split
  · exact .refl t
  · exact probeWatchdog_on ..

theorem closedFinally_on (t : UnifiedTransport) (page : PageState) (c : Nat) : FencesOn t (t.closedFinally page c) := by
  unfold closedFinally
  split
  · exact handlePhysicalDisconnect_on ..
  · exact .refl t

theorem connectionStep_on {named : Bool} {times : HealthTimes} {page : PageState} {c : Nat} {enabled : UnifiedConnection → Bool}
    {f : UnifiedConnection → UnifiedConnection × List ConnectionEvent} (h : t.connectionStep named times page c enabled f = some u) :
    FencesOn t u := by
  obtain ⟨y, -, -, rfl⟩ := TransportInv.connectionStep_cases h
  exact tell_on ..

/-! ## The recovery's own invariant -/

structure RecoveryInv (t : UnifiedTransport) : Prop where
  running : t.recoveryRunning = true ↔ t.awaiting ≠ none
  awaited : ∀ f, t.awaiting = some (some f) → f < t.fences.length
  closing : ∀ f, t.closingPromise = some f → t.Up f

namespace RecoveryInv

theorem start : RecoveryInv {} where
  running := by simp
  awaited _ h := by cases h
  closing _ h := by cases h

theorem on (h : RecoveryInv t) (hon : FencesOn t u) : RecoveryInv u where
  running := by rw [hon.running, hon.awaiting]; exact h.running
  awaited f hf := Nat.lt_of_lt_of_le (h.awaited f (hon.awaiting ▸ hf)) hon.fences.length_le
  closing := hon.closing_up h.closing

/-- A fence that goes on, and the closing promise if the fence is not gone. -/
theorem setFence (h : RecoveryInv t) {f : Nat} (change : CloseFence → CloseFence) {closing : Option Nat} {expected : String}
    (hc : ∀ g, closing = some g → t.closingPromise = some g)
    (hup : closing = some f → ∀ fence, t.fences[f]? = some fence → (change fence).stage ≠ .done) :
    RecoveryInv { t with
      fences := t.fences.modify f change, closingPromise := closing, expectedCloseReason := expected } where
  running := h.running
  awaited g hg := by simpa using h.awaited g hg
  closing g hg := by
    obtain ⟨fence, hat, hstage⟩ := h.closing g (hc g hg)
    by_cases hfg : f = g
    · subst hfg
      refine ⟨change fence, ?_, hup hg fence hat⟩
      simp [hat]
    · refine ⟨fence, ?_, hstage⟩
      rw [List.getElem?_modify_ne _ _ hfg]
      exact hat

theorem setStage (h : RecoveryInv t) (f : Nat) {stage : FenceStage} (hs : stage ≠ .done) : RecoveryInv (t.setStage f stage) :=
  h.setFence _ (fun _ hg => hg) fun _ _ _ => hs

theorem clearReason (h : RecoveryInv t) (f : Nat) (reason : String) : RecoveryInv (t.clearReason f reason) := by
  unfold UnifiedTransport.clearReason
  dsimp only
  split
  · exact h.setFence _ (fun _ hg => hg) fun _ _ _ => nofun
  · exact h.setStage f nofun

theorem releaseFence (h : RecoveryInv t) (f : Nat) : RecoveryInv (t.releaseFence f) := by
  unfold UnifiedTransport.releaseFence
  dsimp only
  split
  · exact h.setFence _ nofun nofun
  · rename_i hne
    exact h.setFence _ (fun _ hg => hg) fun hf => absurd hf hne

theorem startRecovery (h : RecoveryInv t) (page : PageState) : RecoveryInv (t.startRecovery page) := by
  unfold UnifiedTransport.startRecovery
  dsimp only
  split
  · exact ⟨h.running, h.awaited, h.closing⟩
  · have hon := close_on { t with recoveryScheduled := false, recoveryRunning := true } "transport_recovery"
    have hclosing := hon.closing_up h.closing
    refine ⟨?_, fun f hf => ?_, hclosing⟩
    · simp [hon.running]
    · obtain ⟨fence, hat, -⟩ := hclosing f (Option.some.inj hf)
      exact (List.getElem?_eq_some_iff.mp hat).1

theorem resumeRecovery (h : RecoveryInv t) (page : PageState) (fails : Bool) : RecoveryInv (t.resumeRecovery page fails) := by
  unfold UnifiedTransport.resumeRecovery
  extract_lets cleared retrying pendingReason finished
  have hretrying : retrying.awaiting = none ∧ retrying.closingPromise = t.closingPromise ∧ retrying.fences = t.fences := by
    unfold retrying
    split <;> exact ⟨rfl, rfl, rfl⟩
  have hfinished : RecoveryInv finished := by
    refine ⟨?_, fun f hf => ?_, fun f hf => ?_⟩
    · simp [finished, hretrying.1]
    · exact absurd (hretrying.1.symm.trans hf) nofun
    · obtain ⟨fence, hat, hstage⟩ := h.closing f (hretrying.2.1 ▸ hf)
      exact ⟨fence, hretrying.2.2 ▸ hat, hstage⟩
  split
  · exact hfinished.on (scheduleRecovery_on ..)
  · exact hfinished

theorem step {named : Bool} {times : HealthTimes} {event : TransportEvent} (h : RecoveryInv t)
    (hs : (transportMachine named times).step t event = some u) : RecoveryInv u := by
  cases event with
  | ensure page requestedTargetName url outcome => exact h.on (Option.some.inj hs ▸ ensure_on ..)
  | prepare page requestedTargetName url outcome => exact h.on (Option.some.inj hs ▸ prepare_on ..)
  | cancelPrepared prepared reason => exact h.on (Option.some.inj hs ▸ cancelPrepared_on ..)
  | close reason => exact h.on (Option.some.inj hs ▸ close_on ..)
  | dispose reason => exact h.on (Option.some.inj hs ▸ dispose_on ..)
  | scheduleRecovery page reason => exact h.on (Option.some.inj hs ▸ scheduleRecovery_on ..)
  | startRecovery page =>
    obtain ⟨-, he⟩ := Option.ite_none_right_eq_some.mp hs
    exact Option.some.inj he ▸ h.startRecovery page
  | resumeRecovery page fails =>
    simp only [transportMachine] at hs
    split at hs
    · cases hs
    · exact Option.some.inj hs ▸ h.resumeRecovery page fails
    · obtain ⟨-, he⟩ := Option.ite_none_right_eq_some.mp hs
      exact Option.some.inj he ▸ h.resumeRecovery page fails
  | retryTimer page =>
    obtain ⟨-, he⟩ := Option.ite_none_right_eq_some.mp hs
    have hstopped : RecoveryInv { t with recoveryRetryTimer := false } := ⟨h.running, h.awaited, h.closing⟩
    exact hstopped.on (Option.some.inj he ▸ scheduleRecovery_on ..)
  | retryUnavailable page reason => exact h.on (Option.some.inj hs ▸ retryUnavailable_on ..)
  | clearExpectedCloseReason => exact h.on (Option.some.inj hs ▸ .same rfl rfl rfl rfl)
  | tick now =>
    obtain ⟨-, he⟩ := Option.ite_none_right_eq_some.mp hs
    exact h.on (Option.some.inj he ▸ .same rfl rfl rfl rfl)
  | interval page =>
    obtain ⟨-, he⟩ := Option.ite_none_right_eq_some.mp hs
    exact h.on (Option.some.inj he ▸ check_on ..)
  | probe page reason => exact h.on (Option.some.inj hs ▸ probe_on ..)
  | socketOpened page c | serverReady page c | pong c | physicalError page c message | socketCloses c
  | socketClosed page c reason | logicalOpened page c constructs | logicalClosed page c => exact h.on (connectionStep_on hs)
  | closedFinally page c =>
    obtain ⟨-, he⟩ := Option.ite_none_right_eq_some.mp hs
    exact h.on (Option.some.inj he ▸ closedFinally_on ..)
  | fenceTimer f =>
    obtain ⟨fence, hf, he, rfl⟩ := TransportInv.fenceStep_cases hs
    refine h.setFence _ (fun _ hg => hg) fun _ y hy => ?_
    rw [hf] at hy
    obtain rfl := Option.some.inj hy
    simpa using fun hd => by simp [hd] at he
  | fenceSettles f =>
    obtain ⟨fence, hf, he, rfl⟩ := TransportInv.fenceStep_cases hs
    exact h.setStage f (by simp)
  | clearReason f =>
    obtain ⟨fence, hf, he, rfl⟩ := TransportInv.fenceStep_cases hs
    exact h.clearReason f _
  | releaseFence f =>
    obtain ⟨fence, hf, he, rfl⟩ := TransportInv.fenceStep_cases hs
    exact h.releaseFence f

end RecoveryInv

/-! ## What is owed -/

end UnifiedTransport

/-- The callbacks that need neither a user, a server nor a timer of the page's own making. -/
def TransportEvent.Owed : TransportEvent → Prop
  | .startRecovery _ | .resumeRecovery .. | .fenceTimer _ | .fenceSettles _ | .clearReason _ | .releaseFence _ => True
  | _ => False

def CloseFence.work (fence : CloseFence) : Nat :=
  match fence.stage with
  | .pending => if fence.elapsed then 3 else 4
  | .settled => 2
  | .cleared => 1
  | .done => 0

namespace UnifiedTransport

variable {t : UnifiedTransport}

def pendingWork (reason : String) : Nat := if reason = "" then 0 else 2

@[simp] theorem pendingWork_empty : pendingWork "" = 0 := rfl

def work (t : UnifiedTransport) : Nat :=
  (t.fences.map CloseFence.work).sum + 5 * t.connection.isSome.toNat + 2 * t.recoveryScheduled.toNat +
    t.awaiting.isSome.toNat + pendingWork t.recoveryPendingReason

theorem sum_modify {l : List CloseFence} {f : Nat} {fence : CloseFence} (hf : l[f]? = some fence)
    (change : CloseFence → CloseFence) :
    ((l.modify f change).map CloseFence.work).sum + fence.work = (l.map CloseFence.work).sum + (change fence).work := by
  induction l generalizing f with
  | nil => simp at hf
  | cons x l ih =>
    cases f with
    | zero =>
      obtain rfl : x = fence := by simpa using hf
      simp
      omega
    | succ f =>
      have := ih (by simpa using hf)
      simp
      omega

/-- A fence that has less to do than before. -/
theorem work_setFence {f : Nat} {fence : CloseFence} (hf : t.fences[f]? = some fence) {change : CloseFence → CloseFence}
    (hlt : (change fence).work < fence.work) (closing : Option Nat) (expected : String) :
    work { t with fences := t.fences.modify f change, closingPromise := closing, expectedCloseReason := expected } < t.work := by
  have := sum_modify hf change
  simp only [work]
  omega

theorem work_close (t : UnifiedTransport) (reason : String) : (t.close reason).work ≤ t.work := by
  unfold close
  dsimp only
  split
  · exact Nat.le_refl _
  · rename_i c hc
    simp [work, shut, registerClosingFence, hc, CloseFence.work]

/-- A recovery is asked for once, or kept for later. -/
theorem work_scheduleRecovery (h : t.recoveryPendingReason = "") (page : PageState) (reason : String) :
    (t.scheduleRecovery page reason).work ≤ t.work + 2 := by
  unfold scheduleRecovery
  split
  · omega
  · split
    · by_cases hr : reason = "" <;> simp [work, h, hr, pendingWork]
    · rename_i hfree
      have : t.recoveryScheduled = false := by simpa using fun hs => hfree (.inl hs)
      simp [work, this]
      omega

theorem work_startRecovery (h : t.recoveryScheduled = true) (page : PageState) : (t.startRecovery page).work < t.work := by
  unfold startRecovery
  dsimp only
  split
  · simp [work, h]
  · have hclose := work_close { t with recoveryScheduled := false, recoveryRunning := true } "transport_recovery"
    have hon := close_on { t with recoveryScheduled := false, recoveryRunning := true } "transport_recovery"
    have hawaiting := congrArg (fun a => a.isSome.toNat) hon.awaiting
    simp only [work, h, Option.isSome_some, Bool.toNat_true, Bool.toNat_false] at hclose hawaiting ⊢
    omega

theorem work_resumeRecovery (h : t.awaiting ≠ none) (page : PageState) (fails : Bool) :
    (t.resumeRecovery page fails).work < t.work := by
  obtain ⟨a, ha⟩ := Option.ne_none_iff_exists'.mp h
  unfold resumeRecovery
  extract_lets cleared retrying pendingReason finished
  have hfinished : finished.work + 1 + pendingWork t.recoveryPendingReason = t.work ∧
      pendingReason = t.recoveryPendingReason ∧ finished.recoveryPendingReason = "" := by
    unfold finished pendingReason retrying
    split <;> simp [work, cleared, ha]
  obtain ⟨hwork, hreason, hnone⟩ := hfinished
  split
  · rename_i hpending
    have hne : t.recoveryPendingReason ≠ "" := hreason ▸ hpending.1
    rw [pendingWork, if_neg hne] at hwork
    have hscheduled := work_scheduleRecovery hnone page pendingReason
    omega
  · omega

theorem work_clearReason {f : Nat} {fence : CloseFence} (hf : t.fences[f]? = some fence) (hs : fence.stage = .settled)
    (reason : String) : (t.clearReason f reason).work < t.work := by
  unfold clearReason setStage
  dsimp only
  split <;> exact work_setFence hf (by simp [CloseFence.work, hs]) _ _

theorem work_releaseFence {f : Nat} {fence : CloseFence} (hf : t.fences[f]? = some fence)
    (hs : fence.stage = .cleared ∨ fence.stage = .settled) : (t.releaseFence f).work < t.work := by
  have hlt : CloseFence.work { fence with stage := .done } < fence.work := by
    rcases hs with hs | hs <;> simp [CloseFence.work, hs]
  unfold releaseFence setStage
  dsimp only
  split <;> exact work_setFence hf hlt _ _

/-- An owed step leaves less to do, but for a delay that elapses once more. -/
theorem work_step {named : Bool} {times : HealthTimes} {event : TransportEvent} {u : UnifiedTransport} (ho : event.Owed)
    (hs : (transportMachine named times).step t event = some u) : u = t ∨ u.work < t.work := by
  cases event with
  | startRecovery page =>
    obtain ⟨hscheduled, he⟩ := Option.ite_none_right_eq_some.mp hs
    exact .inr (Option.some.inj he ▸ work_startRecovery hscheduled page)
  | resumeRecovery page fails =>
    simp only [transportMachine] at hs
    split at hs
    · cases hs
    · rename_i ha
      exact .inr (Option.some.inj hs ▸ work_resumeRecovery (by simp [ha]) page fails)
    · rename_i f ha
      obtain ⟨-, he⟩ := Option.ite_none_right_eq_some.mp hs
      exact .inr (Option.some.inj he ▸ work_resumeRecovery (by simp [ha]) page fails)
  | fenceTimer f =>
    obtain ⟨fence, hf, he, rfl⟩ := TransportInv.fenceStep_cases hs
    have hstage : fence.stage = .pending := by simpa using he
    by_cases helapsed : fence.elapsed = true
    · refine .inl ?_
      have hsame : t.fences.modify f (fun fence => { fence with elapsed := true }) = t.fences := by
        apply List.ext_getElem?
        intro g
        by_cases hg : f = g
        · subst hg
          obtain ⟨observed, reason, elapsed, stage⟩ := fence
          simp at helapsed
          simp [hf, helapsed]
        · rw [List.getElem?_modify_ne _ _ hg]
      rw [hsame]
    · exact .inr (work_setFence hf (by simp [CloseFence.work, hstage, helapsed]) _ _)
  | fenceSettles f =>
    obtain ⟨fence, hf, he, rfl⟩ := TransportInv.fenceStep_cases hs
    have hstage : fence.stage = .pending := by simp at he; exact he.1
    refine .inr (work_setFence hf ?_ _ _)
    by_cases helapsed : fence.elapsed = true <;> simp [CloseFence.work, hstage, helapsed]
  | clearReason f =>
    obtain ⟨fence, hf, he, rfl⟩ := TransportInv.fenceStep_cases hs
    have hstage : fence.stage = .settled := by simp at he; exact he.1
    exact .inr (work_clearReason hf hstage _)
  | releaseFence f =>
    obtain ⟨fence, hf, he, rfl⟩ := TransportInv.fenceStep_cases hs
    have hstage : fence.stage = .cleared ∨ fence.stage = .settled := by
      simp at he
      exact he.imp_right And.left
    exact .inr (work_releaseFence hf hstage)
  | _ => exact ho.elim

/-! ## At rest -/

/-- A fence that is up has a callback to come. -/
theorem Up.busy {f : Nat} (h : t.Up f) (named : Bool) (times : HealthTimes) :
    ∃ event u, event.Owed ∧ (transportMachine named times).step t event = some u ∧ u.work < t.work := by
  obtain ⟨fence, hf, hstage⟩ := h
  cases hs : fence.stage with
  | pending =>
    by_cases helapsed : fence.elapsed = true
    · refine ⟨.fenceSettles f, t.setStage f .settled, trivial, ?_, work_setFence hf ?_ _ _⟩
      · simp [transportMachine, fenceStep, hf, hs, helapsed]
      · simp [CloseFence.work, hs, helapsed]
    · refine ⟨.fenceTimer f, { t with fences := t.fences.modify f fun fence => { fence with elapsed := true } }, trivial, ?_,
        work_setFence hf ?_ _ _⟩
      · simp [transportMachine, fenceStep, hf, hs]
      · simp [CloseFence.work, hs, helapsed]
  | settled =>
    by_cases hr : fence.reason.isSome = true
    · exact ⟨.clearReason f, t.clearReason f (fence.reason.getD ""), trivial,
        by simp [transportMachine, fenceStep, hf, hs, hr], work_clearReason hf hs _⟩
    · have hnone : fence.reason = none := by simpa using hr
      exact ⟨.releaseFence f, t.releaseFence f, trivial, by simp [transportMachine, fenceStep, hf, hs, hnone],
        work_releaseFence hf (.inr hs)⟩
  | cleared =>
    exact ⟨.releaseFence f, t.releaseFence f, trivial, by simp [transportMachine, fenceStep, hf, hs],
      work_releaseFence hf (.inl hs)⟩
  | done => exact absurd hs hstage

/-- Nothing is under way: no fence is up, no close is expected and no recovery is going on. -/
structure AtRest (t : UnifiedTransport) : Prop where
  fences : ∀ fence ∈ t.fences, fence.stage = .done
  closing : t.closingPromise = none
  reason : t.expectedCloseReason = ""
  recovery : t.recoveryScheduled = false ∧ t.recoveryRunning = false ∧ t.awaiting = none

theorem at_rest {named : Bool} {times : HealthTimes} {made : Nat} (hi : TransportInv made [] [] none t) (hr : RecoveryInv t)
    (hq : (transportMachine named times).Quiet TransportEvent.Owed t) : t.AtRest := by
  have hstill (event : TransportEvent) {u : UnifiedTransport} (ho : event.Owed)
      (hs : (transportMachine named times).step t event = some u) : ¬u.work < t.work := by
    rw [hq event u ho hs]
    exact Nat.lt_irrefl _
  have hclosing : t.closingPromise = none := by
    by_contra hne
    obtain ⟨f, hf⟩ := Option.ne_none_iff_exists'.mp hne
    obtain ⟨event, u, ho, hs, hlt⟩ := (hr.closing f hf).busy named times
    exact hstill event ho hs hlt
  have hdone := hi.all_done hclosing
  have hawaiting : t.awaiting = none := by
    by_contra hne
    obtain ⟨a, ha⟩ := Option.ne_none_iff_exists'.mp hne
    refine hstill (.resumeRecovery {} false) trivial ?_ (work_resumeRecovery hne {} false)
    cases a with
    | none => simp [transportMachine, ha]
    | some f =>
      have hlt := hr.awaited f ha
      have : t.fences[f].stage = .done := hdone _ (List.getElem_mem hlt)
      simp [transportMachine, ha, hlt, this]
  refine ⟨hdone, hclosing, ?_, ?_, ?_, hawaiting⟩
  · by_contra hne
    obtain ⟨f, -, hf, -⟩ := hi.reason hne
    rw [hclosing] at hf
    cases hf
  · by_contra hne
    have hscheduled : t.recoveryScheduled = true := by simpa using hne
    exact hstill (.startRecovery {}) trivial (by simp [transportMachine, hscheduled])
      (work_startRecovery hscheduled {})
  · by_contra hne
    exact hr.running.mp (by simpa using hne) hawaiting

/-! ## The next connection -/

/-- The connection that the owner has is made for the target, and its socket is not closing. -/
structure Serves (t : UnifiedTransport) (name : String) (c : Nat) : Prop where
  connection : t.connection = some c
  targetName : t.targetName = String.ofList (Js.trim name.toList)
  closing : t.physicalReadyState c ≠ some .closing
  closed : t.physicalReadyState c ≠ some .closed

theorem ensure_connects (named : Bool) (times : HealthTimes) (page : PageState) {name url : String} (hd : t.disposed = false)
    (hn : String.ofList (Js.trim name.toList) ≠ "") (hu : url ≠ "") (hc : t.connection = none) (hf : t.closingPromise = none) :
    ∃ c, (t.ensure named times page name url .connects).2 = .connection c ∧
      (t.ensure named times page name url .connects).1.Serves name c := by
  refine ⟨t.connections.length, ?_, ?_⟩
  · simp [ensure, hd, hn, hc, hf, hu, UnifiedConnection.connect, UnifiedConnection.ensurePhysicalSocket,
      UnifiedConnection.created]
  · constructor <;> simp [ensure, hd, hn, hc, hf, hu, UnifiedConnection.connect, UnifiedConnection.ensurePhysicalSocket,
      UnifiedConnection.created, tell, onEvent, onStateChange, UnifiedConnection.emitState, startHealthWatchdog,
      physicalReadyState]

theorem close_disposed (t : UnifiedTransport) (reason : String) : (t.close reason).disposed = t.disposed := by
  unfold close
  dsimp only
  split <;> rfl

theorem close_connection (t : UnifiedTransport) (reason : String) : (t.close reason).connection = none := by
  unfold close
  dsimp only
  split
  · assumption
  · rfl

theorem scheduleRecovery_left (t : UnifiedTransport) (page : PageState) (reason : String) :
    (t.scheduleRecovery page reason).disposed = t.disposed ∧ (t.scheduleRecovery page reason).connection = t.connection := by
  unfold scheduleRecovery
  split
  · exact ⟨rfl, rfl⟩
  · split <;> exact ⟨rfl, rfl⟩

/-- Owed steps neither dispose of the owner nor make a connection. -/
theorem owed_left {named : Bool} {times : HealthTimes} {event : TransportEvent} {u : UnifiedTransport} (ho : event.Owed)
    (hs : (transportMachine named times).step t event = some u) :
    u.disposed = t.disposed ∧ (t.connection = none → u.connection = none) := by
  have hresume (page : PageState) (fails : Bool) : (t.resumeRecovery page fails).disposed = t.disposed ∧
      (t.connection = none → (t.resumeRecovery page fails).connection = none) := by
    unfold resumeRecovery
    extract_lets cleared retrying pendingReason finished
    have hfinished : finished.disposed = t.disposed ∧ finished.connection = t.connection := by
      unfold finished retrying
      split <;> exact ⟨rfl, rfl⟩
    split
    · obtain ⟨hd, hc⟩ := scheduleRecovery_left finished page pendingReason
      exact ⟨hd.trans hfinished.1, fun h => hc.trans (hfinished.2.trans h)⟩
    · exact ⟨hfinished.1, fun h => hfinished.2.trans h⟩
  cases event with
  | startRecovery page =>
    obtain ⟨-, he⟩ := Option.ite_none_right_eq_some.mp hs
    rw [← Option.some.inj he]
    unfold startRecovery
    dsimp only
    split
    · exact ⟨rfl, id⟩
    · exact ⟨close_disposed _ _, fun _ => close_connection _ _⟩
  | resumeRecovery page fails =>
    simp only [transportMachine] at hs
    split at hs
    · cases hs
    · exact Option.some.inj hs ▸ hresume page fails
    · obtain ⟨-, he⟩ := Option.ite_none_right_eq_some.mp hs
      exact Option.some.inj he ▸ hresume page fails
  | fenceTimer f | fenceSettles f =>
    obtain ⟨fence, hf, he, rfl⟩ := TransportInv.fenceStep_cases hs
    exact ⟨rfl, id⟩
  | clearReason f =>
    obtain ⟨fence, hf, he, rfl⟩ := TransportInv.fenceStep_cases hs
    unfold clearReason
    dsimp only
    split <;> exact ⟨rfl, id⟩
  | releaseFence f =>
    obtain ⟨fence, hf, he, rfl⟩ := TransportInv.fenceStep_cases hs
    unfold releaseFence
    dsimp only
    split <;> exact ⟨rfl, id⟩
  | _ => exact ho.elim

/-- What is known of every state of a page that is in use. -/
structure InUse (t : UnifiedTransport) : Prop where
  inv : ∃ made, TransportInv made [] [] none t
  recovery : RecoveryInv t
  disposed : t.disposed = false

theorem InUse.owed {named : Bool} {times : HealthTimes} {event : TransportEvent} {u : UnifiedTransport} (h : t.InUse)
    (ho : event.Owed) (hs : (transportMachine named times).step t event = some u) : u.InUse where
  inv := by
    obtain ⟨made, hi⟩ := h.inv
    obtain ⟨n, hn, -⟩ := hi.step hs
    exact ⟨n, hn⟩
  recovery := h.recovery.step hs
  disposed := (owed_left ho hs).1.trans h.disposed

theorem settles (named : Bool) (times : HealthTimes) :
    (transportMachine named times).Settles TransportEvent.Owed InUse work where
  keeps _ _ _ h ho hs := h.owed ho hs
  works _ _ _ _ ho hs := work_step ho hs

theorem InUse.leads {named : Bool} {times : HealthTimes} {u : UnifiedTransport} (h : t.InUse)
    (hl : (transportMachine named times).Leads TransportEvent.Owed t u) :
    u.InUse ∧ (t.connection = none → u.connection = none) := by
  refine ⟨hl.inv (fun _ _ _ => (settles named times).keeps _ _ _) h, fun hc => ?_⟩
  exact hl.inv (I := fun v => v.connection = none) (fun _ _ _ hv ho hs => (owed_left ho hs).2 hv) hc

/-- At rest the owner has a connection for the target, makes one, or gives up one for another target. -/
theorem ensure_at_rest (named : Bool) (times : HealthTimes) (page : PageState) {name url : String} (h : t.AtRest)
    (hd : t.disposed = false) (hn : String.ofList (Js.trim name.toList) ≠ "") (hu : url ≠ "") :
    (∃ c, (t.ensure named times page name url .connects).2 = .connection c ∧
      (t.ensure named times page name url .connects).1.Serves name c) ∨
    t.ensure named times page name url .connects = (t.close "unified_target_changed", .null) := by
  cases hc : t.connection with
  | none => exact .inl (ensure_connects named times page hd hn hu hc h.closing)
  | some c =>
    by_cases hsame : t.targetName = String.ofList (Js.trim name.toList) ∧ t.physicalReadyState c ≠ some .closing ∧
        t.physicalReadyState c ≠ some .closed
    · refine .inl ⟨c, ?_⟩
      have he : t.ensure named times page name url .connects = (t, .connection c) := by
        simp [ensure, hd, hn, h.closing, hc, hsame]
      rw [he]
      exact ⟨rfl, hc, hsame.1, hsame.2.1, hsame.2.2⟩
    · refine .inr ?_
      have he : ¬(t.disposed = true ∨ String.ofList (Js.trim name.toList) = "" ∨ t.closingPromise ≠ none) := by
        simp [hd, hn, h.closing]
      unfold ensure
      rw [if_neg he]
      simp only [hc]
      rw [if_neg hsame]

end UnifiedTransport

open UnifiedTransport

/-- **No dead page.** From every state of a page in use the owed callbacks come to an end, however they
are ordered, and every state they leave leads to one where nothing is under way. There the next `ensure`
has a connection for its target, or has given up the one for another target; then, whatever the owed
callbacks do until nothing is under way again, the `ensure` after it has one. -/
theorem no_dead_page (named : Bool) (times : HealthTimes) {events : List TransportEvent} {t : UnifiedTransport}
    (h : (transportMachine named times).run {} events = some t) (hd : t.disposed = false) :
    (∀ owed u, (∀ event ∈ owed, event.Owed) → (transportMachine named times).run t owed = some u →
      (transportMachine named times).Along (fun s e => (transportMachine named times).step s e ≠ some s) t owed →
        owed.length ≤ t.work) ∧
    (∀ u, (transportMachine named times).Leads TransportEvent.Owed t u →
      ∃ v, (transportMachine named times).Leads TransportEvent.Owed u v ∧
        (transportMachine named times).Quiet TransportEvent.Owed v) ∧
    ∀ u, (transportMachine named times).Leads TransportEvent.Owed t u →
      (transportMachine named times).Quiet TransportEvent.Owed u → u.AtRest ∧
        ∀ page name url, String.ofList (Js.trim name.toList) ≠ "" → url ≠ "" →
          (∃ c, (u.ensure named times page name url .connects).2 = .connection c ∧
            (u.ensure named times page name url .connects).1.Serves name c) ∨
          ∀ v, (transportMachine named times).Leads TransportEvent.Owed (u.ensure named times page name url .connects).1 v →
            (transportMachine named times).Quiet TransportEvent.Owed v →
              ∃ c, (v.ensure named times page name url .connects).2 = .connection c ∧
                (v.ensure named times page name url .connects).1.Serves name c := by
  have huse : t.InUse :=
    ⟨TransportInv.start.run h, Machine.run_inv _ (fun _ _ _ hi hs => hi.step hs) h RecoveryInv.start, hd⟩
  refine ⟨fun owed u ho hr hchange => ?_, fun u hl => ?_, fun u hl hq => ?_⟩
  · have := (settles named times).changes_le huse ho hchange hr
    omega
  · exact (settles named times).leads_quiet (huse.leads hl).1
  · have hu := (huse.leads hl).1
    obtain ⟨made, hi⟩ := hu.inv
    have hrest := at_rest hi hu.recovery hq
    refine ⟨hrest, fun page name url hn hurl => ?_⟩
    rcases ensure_at_rest named times page hrest hu.disposed hn hurl with hserves | hclosed
    · exact .inl hserves
    · refine .inr fun v hv hqv => ?_
      rw [hclosed] at hv
      have hleft : (u.close "unified_target_changed").InUse :=
        ⟨⟨made, hi.close _⟩, hu.recovery.on (close_on ..), (close_disposed ..).trans hu.disposed⟩
      obtain ⟨hv', hnone⟩ := hleft.leads hv
      obtain ⟨made', hi'⟩ := hv'.inv
      exact ensure_connects named times page hv'.disposed hn hurl (hnone (close_connection ..))
        (at_rest hi' hv'.recovery hqv).closing

/-- The socket of an open connection closes. -/
def goneEvents : List TransportEvent := [.ensure {} "a" "ws://a" .connects, .socketOpened {} 0, .socketClosed {} 0 "gone"]

theorem goneEvents_runs : ((transportMachine false {}).run {} goneEvents).isSome = true := by decide +kernel

theorem no_dead_page_gone : ∃ t u, (transportMachine false {}).run {} goneEvents = some t ∧ t.closingPromise = some 0 ∧
    t.recoveryScheduled = true ∧ (transportMachine false {}).Leads TransportEvent.Owed t u ∧ u.AtRest := by
  have h := (Option.some_get goneEvents_runs).symm
  obtain ⟨-, hquiet, hrest⟩ := no_dead_page false {} h (by decide +kernel)
  obtain ⟨u, hl, hq⟩ := hquiet _ (.refl _)
  exact ⟨_, u, h, by decide +kernel, by decide +kernel, hl, (hrest u hl hq).1⟩

end Webshell
