import Webshell.Machine
import Mathlib.Data.List.Count

/-!
# The client terminal's admission

The parent renews and pauses the terminal over a pipe. A reader stamps each
control with the generation it finds, the main loop registers the renewed
terminal with the gateway and opens admission again only under the same
generation. What happened is logged, and a control knows its place in the log.
-/

namespace Webshell

/-- `place` is not in the source: it says where the log has the control. -/
structure LeaseControl where
  type : String
  GatewayAddress : String := ""
  GatewayCredential : String := ""
  generation : Nat := 0
  place : Nat := 0
  deriving DecidableEq

inductive LeaseTimer
  | running
  /-- The time is over and nobody has received from `timer.C`. -/
  | fired
  | stopped
  deriving DecidableEq

inductive ControlReader
  | scanning
  | sending (message : LeaseControl)
  | returned
  deriving DecidableEq

inductive MainLoop
  | selecting
  | registering (control : LeaseControl)
  | returned
  deriving DecidableEq

inductive GateEntry
  | read (type : String)
  | expired
  | registered (place : Nat) (ok : Bool)
  | enabled (place : Nat)
  deriving DecidableEq

/-- The terminal as it is once `Run` has started its reader. -/
structure ManagedRun where
  GatewayAddress : String
  GatewayCredential : String
  admission : Bool := true
  admissionGeneration : Nat := 0
  reader : ControlReader := .scanning
  controls : List LeaseControl := []
  timer : LeaseTimer := .running
  loop : MainLoop := .selecting
  cancelled : Bool := false
  log : List GateEntry := []
  deriving DecidableEq

namespace ManagedRun

/-- A line of the pipe, `none` when it is no control or there is no more. -/
def readControl (s : ManagedRun) (line : Option LeaseControl) : ManagedRun :=
  match line with
  | none => { s with reader := .returned, cancelled := true }
  | some message =>
    if message.type ≠ "renew" ∧ message.type ≠ "pause" then { s with reader := .returned, cancelled := true }
    else
      let s' := if message.type = "pause" then
          { s with admission := false, admissionGeneration := s.admissionGeneration + 1 } else s
      { s' with
        reader := .sending { message with generation := s'.admissionGeneration, place := s.log.length }
        log := s.log ++ [.read message.type] }

def expire (s : ManagedRun) : ManagedRun :=
  { s with
    timer := .stopped, admission := false, admissionGeneration := s.admissionGeneration + 1
    log := s.log ++ [.expired] }

/-- The control is taken; a firing of the timer that nobody received is dropped with it. -/
def takeControl (s : ManagedRun) (control : LeaseControl) (rest : List LeaseControl) : ManagedRun :=
  if control.type = "pause" then { s with controls := rest, timer := .stopped }
  else
    let moved := control.GatewayAddress ≠ "" ∧ control.GatewayCredential ≠ "" ∧
      (control.GatewayAddress ≠ s.GatewayAddress ∨ control.GatewayCredential ≠ s.GatewayCredential)
    { s with
      controls := rest, timer := .running, loop := .registering control
      GatewayAddress := if moved then control.GatewayAddress else s.GatewayAddress
      GatewayCredential := if moved then control.GatewayCredential else s.GatewayCredential }

/-- `register` has returned. -/
def registered (s : ManagedRun) (control : LeaseControl) (ok : Bool) : ManagedRun :=
  let s' := { s with loop := .selecting, log := s.log ++ [.registered control.place ok] }
  if !ok then { s' with admission := false }
  else if s.admissionGeneration = control.generation then
    { s' with admission := true, log := s'.log ++ [.enabled control.place] }
  else s'

end ManagedRun

inductive ManagedEvent
  | read (line : Option LeaseControl)
  | send
  | giveUp
  | cancel
  | fire
  | expire
  | takeControl
  | registered (ok : Bool)
  | returns
  deriving DecidableEq

/-- The channel of the controls holds four. Whichever case of the loop's `select` is ready may be taken. -/
def managedMachine : Machine ManagedRun ManagedEvent where
  step s e :=
    match e with
    | .read line => if s.reader = .scanning then some (s.readControl line) else none
    | .send =>
      match s.reader with
      | .sending message =>
        if s.controls.length < 4 then some { s with reader := .scanning, controls := s.controls ++ [message] } else none
      | _ => none
    | .giveUp =>
      match s.reader with
      | .sending _ => if s.cancelled then some { s with reader := .returned } else none
      | _ => none
    | .cancel => some { s with cancelled := true }
    | .fire => if s.timer = .running then some { s with timer := .fired } else none
    | .expire => if s.loop = .selecting ∧ s.timer = .fired then some s.expire else none
    | .takeControl =>
      match s.controls with
      | control :: rest => if s.loop = .selecting then some (s.takeControl control rest) else none
      | [] => none
    | .registered ok =>
      match s.loop with
      | .registering control => some (s.registered control ok)
      | _ => none
    | .returns =>
      if s.loop = .selecting ∧ s.cancelled then
        some { s with loop := .returned, cancelled := true, timer := .stopped }
      else none

def startedRun (GatewayAddress GatewayCredential : String) : ManagedRun where
  GatewayAddress := GatewayAddress
  GatewayCredential := GatewayCredential

/-! ## Reading the log -/

/-- What moves the generation on. -/
def bumps (e : GateEntry) : Bool := e = .read "pause" || e = .expired

/-- What neither closes admission nor opens it. -/
def GateNeutral (e : GateEntry) : Prop :=
  e ≠ .read "pause" ∧ e ≠ .expired ∧ (∀ place, e ≠ .registered place false) ∧ ∀ place, e ≠ .enabled place

/-- Admission was opened last by the renewal read at a place after which nothing closed it. -/
def Renewed (log : List GateEntry) : Prop :=
  ∃ before between after,
    log = before ++ .read "renew" :: between ++ [.registered before.length true, .enabled before.length] ++ after ∧
    (∀ e ∈ between ++ after, e ≠ .read "pause" ∧ e ≠ .expired) ∧ ∀ e ∈ after, GateNeutral e

/-- The opening of the start itself stands. -/
def StartStands (log : List GateEntry) : Prop := ∀ e ∈ log, GateNeutral e

def Stamped (log : List GateEntry) (m : LeaseControl) : Prop :=
  ∃ before rest, log = before ++ .read m.type :: rest ∧ m.place = before.length ∧
    m.generation = (before ++ [.read m.type]).countP bumps

theorem Stamped.append {log : List GateEntry} {m : LeaseControl} (h : Stamped log m) (more : List GateEntry) :
    Stamped (log ++ more) m := by
  obtain ⟨before, rest, rfl, hp, hg⟩ := h
  exact ⟨before, rest ++ more, by simp, hp, hg⟩

/-- A control of the current generation: nothing moved the generation on since it was read. -/
theorem Stamped.quiet {log : List GateEntry} {m : LeaseControl} (h : Stamped log m)
    (hg : log.countP bumps = m.generation) :
    ∃ before rest, log = before ++ .read m.type :: rest ∧ m.place = before.length ∧ ∀ e ∈ rest, bumps e = false := by
  obtain ⟨before, rest, rfl, hp, hm⟩ := h
  refine ⟨before, rest, rfl, hp, ?_⟩
  have hcut : before ++ GateEntry.read m.type :: rest = before ++ [.read m.type] ++ rest := by simp
  rw [hm, hcut, List.countP_append] at hg
  have hzero : rest.countP bumps = 0 := by omega
  intro e he
  rw [← Bool.not_eq_true]
  exact List.countP_eq_zero.mp hzero e he

theorem not_bumps {e : GateEntry} (h : bumps e = false) : e ≠ .read "pause" ∧ e ≠ .expired := by
  simpa [bumps] using h

theorem Renewed.append {log : List GateEntry} (h : Renewed log) {e : GateEntry} (he : GateNeutral e) : Renewed (log ++ [e]) := by
  obtain ⟨before, between, after, rfl, hquiet, hafter⟩ := h
  refine ⟨before, between, after ++ [e], by simp, ?_, ?_⟩
  · intro x hx
    rw [← List.append_assoc, List.mem_append, List.mem_singleton] at hx
    rcases hx with hx | rfl
    · exact hquiet x hx
    · exact ⟨he.1, he.2.1⟩
  · intro x hx
    rw [List.mem_append, List.mem_singleton] at hx
    rcases hx with hx | rfl
    · exact hafter x hx
    · exact he

theorem StartStands.append {log : List GateEntry} (h : StartStands log) {e : GateEntry} (he : GateNeutral e) :
    StartStands (log ++ [e]) := by
  intro x hx
  rw [List.mem_append, List.mem_singleton] at hx
  rcases hx with hx | rfl
  · exact h x hx
  · exact he

/-! ## What every step keeps -/

/-- The controls read and not yet dealt with. -/
def ManagedRun.inFlight (s : ManagedRun) : List LeaseControl :=
  (match s.reader with | .sending m => [m] | _ => []) ++ s.controls ++
    match s.loop with | .registering m => [m] | _ => []

structure GateOk (s : ManagedRun) : Prop where
  generation : s.log.countP bumps = s.admissionGeneration
  stamped : ∀ m ∈ s.inFlight, Stamped s.log m
  renewing : ∀ m, s.loop = .registering m → m.type = "renew"
  types : ∀ m ∈ s.inFlight, m.type = "renew" ∨ m.type = "pause"
  gate : s.admission = true → StartStands s.log ∨ Renewed s.log

theorem readControl_cases (s : ManagedRun) (line : Option LeaseControl) :
    s.readControl line = { s with reader := .returned, cancelled := true } ∨
    (∃ m, m.type = "pause" ∧ m.generation = s.admissionGeneration + 1 ∧ m.place = s.log.length ∧
      s.readControl line = { s with
        admission := false, admissionGeneration := s.admissionGeneration + 1, reader := .sending m
        log := s.log ++ [.read "pause"] }) ∨
    ∃ m, m.type = "renew" ∧ m.generation = s.admissionGeneration ∧ m.place = s.log.length ∧
      s.readControl line = { s with reader := .sending m, log := s.log ++ [.read "renew"] } := by
  cases line with
  | none => exact .inl rfl
  | some message =>
    by_cases hp : message.type = "pause"
    · refine .inr (.inl ⟨{ message with generation := s.admissionGeneration + 1, place := s.log.length },
        hp, rfl, rfl, ?_⟩)
      simp only [ManagedRun.readControl, hp]
      rfl
    · by_cases hr : message.type = "renew"
      · refine .inr (.inr ⟨{ message with generation := s.admissionGeneration, place := s.log.length },
          hr, rfl, rfl, ?_⟩)
        simp only [ManagedRun.readControl, hr]
        rfl
      · refine .inl ?_
        simp [ManagedRun.readControl, hp, hr]

namespace GateOk

variable {s : ManagedRun}

theorem mem_inFlight {m : LeaseControl} : m ∈ s.inFlight ↔
    s.reader = .sending m ∨ m ∈ s.controls ∨ s.loop = .registering m := by
  unfold ManagedRun.inFlight
  cases s.reader <;> cases s.loop <;> simp [eq_comm]

/-- A step that touches neither the gate nor the log, and brings up no control. -/
theorem moves (h : GateOk s) {s' : ManagedRun} (hlog : s'.log = s.log) (hgate : s'.admission = s.admission)
    (hgen : s'.admissionGeneration = s.admissionGeneration) (hm : ∀ m ∈ s'.inFlight, m ∈ s.inFlight)
    (hr : ∀ m, s'.loop = .registering m → m.type = "renew") : GateOk s' where
  generation := by rw [hlog, hgen, h.generation]
  stamped m hs := by rw [hlog]; exact h.stamped m (hm m hs)
  renewing := hr
  types m hs := h.types m (hm m hs)
  gate ha := by rw [hlog]; exact h.gate (hgate ▸ ha)

theorem pauseRead (h : GateOk s) {m : LeaseControl} (ht : m.type = "pause")
    (hg : m.generation = s.admissionGeneration + 1) (hp : m.place = s.log.length) :
    GateOk { s with
      admission := false, admissionGeneration := s.admissionGeneration + 1, reader := .sending m
      log := s.log ++ [.read "pause"] } where
  generation := by rw [List.countP_append, h.generation]; rfl
  stamped x hx := by
    rw [mem_inFlight] at hx
    rcases hx with hx | hx
    · cases hx
      exact ⟨s.log, [], by rw [ht], hp, by rw [ht, hg, List.countP_append, h.generation]; rfl⟩
    · exact (h.stamped x (mem_inFlight.mpr (.inr hx))).append _
  renewing := h.renewing
  types x hx := by
    rw [mem_inFlight] at hx
    rcases hx with hx | hx
    · cases hx
      exact .inr ht
    · exact h.types x (mem_inFlight.mpr (.inr hx))
  gate ha := by cases ha

theorem renewRead (h : GateOk s) {m : LeaseControl} (ht : m.type = "renew")
    (hg : m.generation = s.admissionGeneration) (hp : m.place = s.log.length) :
    GateOk { s with reader := .sending m, log := s.log ++ [.read "renew"] } where
  generation := by rw [List.countP_append, h.generation]; rfl
  stamped x hx := by
    rw [mem_inFlight] at hx
    rcases hx with hx | hx
    · cases hx
      exact ⟨s.log, [], by rw [ht], hp, by rw [ht, hg, List.countP_append, h.generation]; rfl⟩
    · exact (h.stamped x (mem_inFlight.mpr (.inr hx))).append _
  renewing := h.renewing
  types x hx := by
    rw [mem_inFlight] at hx
    rcases hx with hx | hx
    · cases hx
      exact .inl ht
    · exact h.types x (mem_inFlight.mpr (.inr hx))
  gate ha := by
    have hn : GateNeutral (.read "renew") := by simp [GateNeutral]
    exact (h.gate ha).imp (·.append hn) (·.append hn)

theorem expire (h : GateOk s) : GateOk s.expire where
  generation := by
    simp only [ManagedRun.expire]
    rw [List.countP_append, h.generation]
    rfl
  stamped m hm := (h.stamped m hm).append _
  renewing := h.renewing
  types := h.types
  gate ha := by cases ha

theorem takeControl (h : GateOk s) {control : LeaseControl} {rest : List LeaseControl}
    (hc : s.controls = control :: rest) : GateOk (s.takeControl control rest) := by
  have hmem : control ∈ s.inFlight := mem_inFlight.mpr (.inr (.inl (by rw [hc]; exact List.mem_cons_self ..)))
  unfold ManagedRun.takeControl
  split
  · refine h.moves rfl rfl rfl (fun m hm => ?_) h.renewing
    rw [mem_inFlight] at hm ⊢
    rw [hc]
    exact hm.imp_right (Or.imp_left (List.mem_cons_of_mem _))
  · rename_i hnot
    refine h.moves rfl rfl rfl (fun m hm => ?_) fun m hm => ?_
    · rw [mem_inFlight] at hm
      rcases hm with hm | hm | hm
      · exact mem_inFlight.mpr (.inl hm)
      · exact mem_inFlight.mpr (.inr (.inl (by rw [hc]; exact List.mem_cons_of_mem _ hm)))
      · cases hm
        exact hmem
    · cases hm
      exact (h.types control hmem).resolve_right hnot

theorem registered (h : GateOk s) {control : LeaseControl} (hs : s.loop = .registering control) (ok : Bool) :
    GateOk (s.registered control ok) := by
  have hmem : control ∈ s.inFlight := mem_inFlight.mpr (.inr (.inr hs))
  have hcount : bumps (GateEntry.registered control.place ok) = false := by simp [bumps]
  have hlog : (s.log ++ [GateEntry.registered control.place ok]).countP bumps = s.admissionGeneration := by
    rw [List.countP_append, h.generation]
    simp [hcount]
  have hfly : ∀ m, s.reader = .sending m ∨ m ∈ s.controls ∨ MainLoop.selecting = .registering m → m ∈ s.inFlight := by
    rintro m (hm | hm | hm)
    · exact mem_inFlight.mpr (.inl hm)
    · exact mem_inFlight.mpr (.inr (.inl hm))
    · cases hm
  cases ok with
  | false =>
    refine ⟨hlog, fun m hm => ?_, fun m hm => (by cases hm), fun m hm => ?_, fun ha => (by cases ha)⟩
    · exact (h.stamped m (hfly m (mem_inFlight.mp hm))).append _
    · exact h.types m (hfly m (mem_inFlight.mp hm))
  | true =>
    unfold ManagedRun.registered
    simp only [Bool.not_true, Bool.false_eq_true, if_false]
    split
    · rename_i hg
      refine ⟨?_, fun m hm => ?_, fun m hm => (by cases hm), fun m hm => ?_, fun _ => ?_⟩
      · rw [List.countP_append, hlog]
        simp [bumps]
      · exact ((h.stamped m (hfly m (mem_inFlight.mp hm))).append _).append _
      · exact h.types m (hfly m (mem_inFlight.mp hm))
      · obtain ⟨before, rest, he, hp, hquiet⟩ := (h.stamped control hmem).quiet (h.generation.trans hg)
        rw [h.renewing control hs] at he
        refine .inr ⟨before, rest, [], by simp [he, hp], fun e hx => ?_, fun e hx => (by cases hx)⟩
        rw [List.append_nil] at hx
        exact not_bumps (hquiet e hx)
    · have hn : GateNeutral (.registered control.place true) := by simp [GateNeutral]
      refine ⟨hlog, fun m hm => ?_, fun m hm => (by cases hm), fun m hm => ?_, fun ha => ?_⟩
      · exact (h.stamped m (hfly m (mem_inFlight.mp hm))).append _
      · exact h.types m (hfly m (mem_inFlight.mp hm))
      · exact (h.gate ha).imp (·.append hn) (·.append hn)

end GateOk

theorem managedStep_gate (s : ManagedRun) (e : ManagedEvent) (s' : ManagedRun) (h : GateOk s)
    (hs : managedMachine.step s e = some s') : GateOk s' := by
  unfold managedMachine at hs
  cases e with
  | read line =>
    simp only [Option.ite_none_right_eq_some, Option.some.injEq] at hs
    obtain ⟨-, rfl⟩ := hs
    rcases readControl_cases s line with hr | ⟨m, ht, hg, hp, hr⟩ | ⟨m, ht, hg, hp, hr⟩
    · rw [hr]
      refine h.moves rfl rfl rfl (fun m hm => ?_) h.renewing
      rw [GateOk.mem_inFlight] at hm ⊢
      rcases hm with hm | hm
      · cases hm
      · exact .inr hm
    · rw [hr]
      exact h.pauseRead ht hg hp
    · rw [hr]
      exact h.renewRead ht hg hp
  | send =>
    simp only at hs
    split at hs
    · rename_i message hr
      simp only [Option.ite_none_right_eq_some, Option.some.injEq] at hs
      obtain ⟨-, rfl⟩ := hs
      refine h.moves rfl rfl rfl (fun m hm => ?_) h.renewing
      rw [GateOk.mem_inFlight] at hm ⊢
      rcases hm with hm | hm | hm
      · cases hm
      · rw [List.mem_append, List.mem_singleton] at hm
        rcases hm with hm | rfl
        · exact .inr (.inl hm)
        · exact .inl hr
      · exact .inr (.inr hm)
    · cases hs
  | giveUp =>
    simp only at hs
    split at hs
    · simp only [Option.ite_none_right_eq_some, Option.some.injEq] at hs
      obtain ⟨-, rfl⟩ := hs
      refine h.moves rfl rfl rfl (fun m hm => ?_) h.renewing
      rw [GateOk.mem_inFlight] at hm ⊢
      rcases hm with hm | hm
      · cases hm
      · exact .inr hm
    · cases hs
  | cancel =>
    cases hs
    exact h.moves rfl rfl rfl (fun _ hm => hm) h.renewing
  | fire =>
    simp only [Option.ite_none_right_eq_some, Option.some.injEq] at hs
    obtain ⟨-, rfl⟩ := hs
    exact h.moves rfl rfl rfl (fun _ hm => hm) h.renewing
  | expire =>
    simp only [Option.ite_none_right_eq_some, Option.some.injEq] at hs
    obtain ⟨-, rfl⟩ := hs
    exact h.expire
  | takeControl =>
    simp only at hs
    split at hs
    · rename_i control rest hc
      simp only [Option.ite_none_right_eq_some, Option.some.injEq] at hs
      obtain ⟨-, rfl⟩ := hs
      exact h.takeControl hc
    · cases hs
  | registered ok =>
    simp only at hs
    split at hs
    · rename_i control hl
      cases hs
      exact h.registered hl ok
    · cases hs
  | returns =>
    simp only [Option.ite_none_right_eq_some, Option.some.injEq] at hs
    obtain ⟨⟨hl, -⟩, rfl⟩ := hs
    refine h.moves rfl rfl rfl (fun m hm => ?_) fun m hm => (by cases hm)
    rw [GateOk.mem_inFlight] at hm ⊢
    rcases hm with hm | hm | hm
    · exact .inl hm
    · exact .inr (.inl hm)
    · cases hm

theorem GateOk.started (address credential : String) : GateOk (startedRun address credential) where
  generation := rfl
  stamped _ hm := by cases hm
  renewing _ hm := by cases hm
  types _ hm := by cases hm
  gate _ := .inl fun _ he => by cases he

/-- While admission is open, the start opened it and nothing has closed it since, or a renewal
opened it that was read after the latest pause and the latest expiry and was registered. -/
theorem admission_renewed {address credential : String} {s : ManagedRun}
    (h : managedMachine.Reachable (startedRun address credential) s) (ha : s.admission = true) :
    StartStands s.log ∨ Renewed s.log :=
  (Machine.reachable_inv _ managedStep_gate h (.started address credential)).gate ha

def renewedEvents : List ManagedEvent :=
  [.read (some { type := "renew" }), .fire, .send, .expire, .takeControl, .registered true,
    .read (some { type := "renew" }), .send, .takeControl, .registered true]

/-- The renewal read before the expiry does not open admission, the one read after it does. -/
def renewedRun : ManagedRun :=
  (managedMachine.run (startedRun "http://127.0.0.1:1" "key") renewedEvents).getD (startedRun "" "")

theorem admission_renewed_run : renewedRun.admission = true ∧ (StartStands renewedRun.log ∨ Renewed renewedRun.log) :=
  ⟨by decide, @admission_renewed "http://127.0.0.1:1" "key" renewedRun ⟨renewedEvents, by decide +kernel⟩ (by decide)⟩

end Webshell
