import Webshell.ProgramStatus

/-!
# Moves of the program status

A move is a byte that is read, or a call of `clear`. What a move does to the
state and its counters follows from the call of `set` or `clear` it comes to.
-/

namespace Webshell

inductive StatusStep
  | byte (ch : UInt8) (offset now : Nat)
  | clear (now : Nat)
  | handOff (busy : Bool) (scanStartedAt now : Nat)

namespace ProgramStatusTracker

def step (s : ProgramStatusTracker) : StatusStep → ProgramStatusTracker
  | .byte ch offset now => { s with outputOffset := offset }.scanByte ch now
  | .clear now => s.clear now
  | .handOff busy scanStartedAt now => s.handOff busy scanStartedAt now

/-- The payload that a byte ends and that is observed then. -/
def handed (s : ProgramStatusTracker) (ch : UInt8) : Option Bytes :=
  if (s.scanner = .osc ∨ s.scanner = .oscEscape) ∧ (ch = bel ∨ (s.scanner = .oscEscape ∧ ch = code '\\')) ∧
      s.overflow = false then
    some s.pending
  else none

end ProgramStatusTracker

/-- A step, with the tracker before and after it. -/
structure StatusMove where
  before : ProgramStatusTracker
  step : StatusStep
  after : ProgramStatusTracker

def statusMoves : ProgramStatusTracker → List StatusStep → List StatusMove
  | _, [] => []
  | s, e :: es => ⟨s, e, s.step e⟩ :: statusMoves (s.step e) es

/-- The source an OSC string speaks for. -/
def oscSource (payload : Bytes) : Nat :=
  match ProgramStatusTracker.cutPayload payload with
  | none => 0
  | some (code, _) =>
    if code = "7501" then 3
    else if code = "21337" ∨ code = "9" then 2
    else if code = "133" ∨ ProgramStatusTracker.isTitle code = true then 1
    else 0

namespace StatusMove

/-- The OSC string that is observed, with the offset behind it. -/
def osc (m : StatusMove) : Option (Nat × Bytes) :=
  match m.step with
  | .byte ch offset _ => (m.before.handed ch).map fun payload => (offset, payload)
  | _ => none

def call (m : StatusMove) : Option StatusCall :=
  match m.step with
  | .byte ch _ _ => (m.before.handed ch).bind m.before.oscCall
  | .clear _ => some .clear
  | .handOff busy scanStartedAt _ =>
    if busy = false ∧ ¬ scanStartedAt < m.before.updatedAt ∧ (m.before.state = .working ∨ m.before.state = .blocked) then
      some .clear
    else none

/-- The state is changed. -/
def changes (m : StatusMove) : Bool := m.before.state ≠ m.after.state

/-- The OSC string that finishes a turn. -/
def completion (m : StatusMove) : Option (Nat × Bytes) := if m.before.completed < m.after.completed then m.osc else none

/-- The state is set, maybe to what it was, for a source. -/
def Sets (m : StatusMove) (source : Nat) : Prop := ∃ state, m.call = some (.set state source) ∧ m.before.source ≤ source

end StatusMove

/-! ## What a call does -/

/-- What a call of `set` or `clear`, or none, does to the status. -/
structure StatusGoes (s s' : ProgramStatusTracker) (offset : Nat) (call : Option StatusCall) : Prop where
  revision : s'.revision = s.revision + if s.state ≠ s'.state then 1 else 0
  completed : (s'.completed = s.completed ∧ s'.completedOffset = s.completedOffset) ∨
    (s'.completed = s.completed + 1 ∧ s'.completedOffset = offset ∧ s.state ≠ s'.state ∧ call ≠ some .clear ∧ call ≠ none)
  source : call ≠ some .clear → s.source ≤ s'.source
  taken : ∀ state source, call = some (.set state source) → s.source ≤ source → s'.source = source
  kept : call = none ∨ (∃ state source, call = some (.set state source) ∧ source < s.source) →
    s'.toProgramStatus = s.toProgramStatus
  highest : s.source ≤ 3 → (∀ state source, call = some (.set state source) → source ≤ 3) → s'.source ≤ 3

namespace ProgramStatusTracker

variable {s s' : ProgramStatusTracker} {now : Nat}

theorem call_none (hstatus : s'.toProgramStatus = s.toProgramStatus) (hsource : s'.source = s.source) (offset : Nat) :
    StatusGoes s s' offset none where
  revision := by rw [hstatus, if_neg (by simp), Nat.add_zero]
  completed := .inl (by rw [hstatus]; exact ⟨rfl, rfl⟩)
  source := fun _ => Nat.le_of_eq hsource.symm
  taken := nofun
  kept := fun _ => hstatus
  highest := fun h _ => by rw [hsource]; exact h

theorem set_goes (state : ProgramState) (source : Nat) :
    StatusGoes s (s.set state source now) s.outputOffset (some (.set state source)) := by
  unfold set
  by_cases hlow : source < s.source
  · rw [if_pos hlow]
    have h := call_none (s := s) rfl rfl s.outputOffset
    refine ⟨h.revision, .inl ⟨rfl, rfl⟩, fun _ => Nat.le_refl _, ?_, fun _ => rfl, fun h3 _ => h3⟩
    intro state' source' he hle
    cases he
    omega
  · rw [if_neg hlow]
    have htaken : ∀ state' source', some (StatusCall.set state source) = some (.set state' source') →
        s.source ≤ source' → source = source' := by
      intro state' source' he _
      cases he
      rfl
    have hkept : ¬ (some (StatusCall.set state source) = none ∨ ∃ state' source',
        some (StatusCall.set state source) = some (.set state' source') ∧ source' < s.source) := by
      rintro (he | ⟨state', source', he, hlt⟩)
      · cases he
      · cases he
        exact hlow hlt
    simp only
    by_cases hsame : state = s.state
    · rw [if_pos hsame]
      refine ⟨by rw [if_neg (by simp), Nat.add_zero], .inl ⟨rfl, rfl⟩, fun _ => Nat.le_of_not_lt hlow, htaken, fun h => absurd h hkept, ?_⟩
      exact fun _ h => h _ _ rfl
    · rw [if_neg hsame]
      have hne : s.state ≠ state := fun he => hsame he.symm
      by_cases hdone : state = .done ∨ (state = .idle ∧ s.state = .working)
      · rw [if_pos hdone]
        refine ⟨by rw [if_pos hne], .inr ⟨rfl, rfl, hne, nofun, nofun⟩, fun _ => Nat.le_of_not_lt hlow, htaken,
          fun h => absurd h hkept, ?_⟩
        exact fun _ h => h _ _ rfl
      · rw [if_neg hdone]
        refine ⟨by rw [if_pos hne], .inl ⟨rfl, rfl⟩, fun _ => Nat.le_of_not_lt hlow, htaken, fun h => absurd h hkept, ?_⟩
        exact fun _ h => h _ _ rfl

theorem clear_goes (offset : Nat) : StatusGoes s (s.clear now) offset (some .clear) := by
  have hsource : (s.clear now).source = 0 := rfl
  refine ⟨?_, ?_, fun h => absurd rfl h, nofun, ?_, fun _ _ => by rw [hsource]; omega⟩
  · unfold clear set
    by_cases he : s.state = .error
    · simp [he]
    · by_cases hu : s.state = .unset
      · simp [hu]
      · have hu' : ¬ ProgramState.unset = s.state := fun h => hu h.symm
        simp [he, hu, hu']
  · unfold clear set
    by_cases he : s.state = .error
    · simp [he]
    · by_cases hu : s.state = .unset
      · simp [hu]
      · have hu' : ¬ ProgramState.unset = s.state := fun h => hu h.symm
        simp [he, hu']
  · rintro (h | ⟨state, source, h, -⟩) <;> cases h

/-- The fields the status depends on. -/
theorem call_goes (call : Option StatusCall) : StatusGoes s (s.call now call) s.outputOffset call := by
  cases call with
  | none => exact call_none rfl rfl _
  | some call =>
    cases call with
    | set state source => exact set_goes state source
    | clear => exact clear_goes _

end ProgramStatusTracker

theorem StatusGoes.congr {s t s' t' : ProgramStatusTracker} {offset : Nat} {call : Option StatusCall}
    (h : StatusGoes s s' offset call) (hs : s.toProgramStatus = t.toProgramStatus) (hs' : s'.toProgramStatus = t'.toProgramStatus)
    (hr : s.source = t.source) (hr' : s'.source = t'.source) : StatusGoes t t' offset call := by
  obtain ⟨h1, h2, h3, h4, h5, h6⟩ := h
  rw [hs, hs'] at *
  rw [hr, hr'] at *
  exact ⟨h1, h2, h3, h4, h5, h6⟩

/-! ## What a move does -/

namespace ProgramStatusTracker

variable {s : ProgramStatusTracker}

theorem oscByte_call (hs : s.scanner = .osc ∨ s.scanner = .oscEscape) (ch : UInt8) (now : Nat) :
    (s.oscByte ch now).toProgramStatus = (s.call now ((s.handed ch).bind s.oscCall)).toProgramStatus ∧
      (s.oscByte ch now).source = (s.call now ((s.handed ch).bind s.oscCall)).source := by
  by_cases hend : ch = bel ∨ (s.scanner = .oscEscape ∧ ch = code '\\')
  · unfold oscByte
    rw [if_pos hend]
    by_cases ho : s.overflow = true
    · have hno : s.handed ch = none := by
        unfold handed
        rw [if_neg fun h => absurd (ho.symm.trans h.2.2) (by decide)]
      rw [if_pos ho, hno]
      exact ⟨rfl, rfl⟩
    · have hyes : s.handed ch = some s.pending := by
        unfold handed
        rw [if_pos ⟨hs, hend, Bool.not_eq_true _ ▸ ho⟩]
      rw [if_neg ho, hyes]
      exact ⟨rfl, rfl⟩
  · have hno : s.handed ch = none := by
      unfold handed
      rw [if_neg fun h => hend h.2.1]
    unfold oscByte
    rw [if_neg hend, hno]
    simp only
    split <;> split <;> first | exact ⟨rfl, rfl⟩ | (split <;> exact ⟨rfl, rfl⟩)

/-- A byte changes the status as the OSC string does that it ends. -/
theorem scanByte_call (ch : UInt8) (now : Nat) :
    (s.scanByte ch now).toProgramStatus = (s.call now ((s.handed ch).bind s.oscCall)).toProgramStatus ∧
      (s.scanByte ch now).source = (s.call now ((s.handed ch).bind s.oscCall)).source := by
  have hnone (h : ¬ (s.scanner = .osc ∨ s.scanner = .oscEscape)) : s.handed ch = none := by
    unfold handed
    rw [if_neg fun hc => h hc.1]
  unfold scanByte
  cases hs : s.scanner with
  | ground =>
    rw [hnone (by simp [hs])]
    simp only
    split <;> exact ⟨rfl, rfl⟩
  | escape =>
    rw [hnone (by simp [hs])]
    simp only
    split
    · exact ⟨rfl, rfl⟩
    · split
      · exact ⟨rfl, rfl⟩
      · split <;> exact ⟨rfl, rfl⟩
  | osc => exact oscByte_call (.inl hs) ch now
  | oscEscape => exact oscByte_call (.inr hs) ch now
  | string =>
    rw [hnone (by simp [hs])]
    simp only
    split <;> exact ⟨rfl, rfl⟩
  | stringEscape =>
    rw [hnone (by simp [hs])]
    simp only
    split
    · exact ⟨rfl, rfl⟩
    · split <;> exact ⟨rfl, rfl⟩

/-- The offset a step completes a turn at. -/
def stepOffset (s : ProgramStatusTracker) : StatusStep → Nat
  | .byte _ offset _ => offset
  | _ => s.outputOffset

theorem step_goes (e : StatusStep) : StatusGoes s (s.step e) (s.stepOffset e) (StatusMove.call ⟨s, e, s.step e⟩) := by
  cases e with
  | byte ch offset now =>
    have hcall : (⟨s, .byte ch offset now, s.step (.byte ch offset now)⟩ : StatusMove).call =
        (({ s with outputOffset := offset }.handed ch).bind { s with outputOffset := offset }.oscCall) := rfl
    obtain ⟨hstatus, hsource⟩ := scanByte_call (s := { s with outputOffset := offset }) ch now
    rw [hcall]
    refine StatusGoes.congr (t := s) (call_goes _) ?_ hstatus.symm ?_ hsource.symm
    · rfl
    · rfl
  | clear now => exact clear_goes _
  | handOff busy scanStartedAt now =>
    simp only [StatusMove.call, step, handOff, stepOffset]
    split
    · exact clear_goes _
    · exact call_none rfl rfl _

end ProgramStatusTracker

/-! ## Which source speaks -/

namespace ProgramStatusTracker

variable {s : ProgramStatusTracker}

/-- A call of `set` is for a source; `clear` is called only where no higher one has set the state. -/
structure SpeaksFor (s : ProgramStatusTracker) (source : Nat) (call : Option StatusCall) : Prop where
  set : ∀ state source', call = some (.set state source') → source' = source
  clear : call = some .clear → s.source ≤ source

theorem SpeaksFor.none (source : Nat) : SpeaksFor s source none := ⟨nofun, nofun⟩

theorem SpeaksFor.some (state : ProgramState) (source : Nat) : SpeaksFor s source (some (.set state source)) :=
  ⟨fun _ _ h => by cases h; rfl, nofun⟩

theorem osc7501_speaks (hs : s.source ≤ 3) (body : String) : SpeaksFor s 3 (osc7501 body) := by
  unfold osc7501
  split
  any_goals exact .some ..
  · exact ⟨nofun, fun _ => hs⟩
  · exact .none _

theorem osc21337_speaks (body : String) : SpeaksFor s 2 (s.osc21337 body) := by
  unfold osc21337
  split
  any_goals exact .some ..
  · split <;> exact .some ..
  · split
    · rename_i hle
      exact ⟨nofun, fun _ => hle⟩
    · exact .none _
  · exact .none _

theorem osc9_speaks (body : String) : SpeaksFor s 2 (s.osc9 body) := by
  unfold osc9
  split
  · split
    any_goals exact .some ..
    · split
      · exact .some ..
      · split
        · exact .some ..
        · exact .none _
    · exact .none _
  · exact .none _

theorem osc133_speaks (body : String) : SpeaksFor s 1 (osc133 body) := by
  unfold osc133
  split
  any_goals exact .some ..
  · split
    · exact .none _
    · split <;> exact .some ..
  · exact .none _

theorem oscTitle_speaks (body : String) : SpeaksFor s 1 (s.oscTitle body) := by
  unfold oscTitle
  split
  · exact .none _
  · simp only
    split
    · exact .some ..
    · split
      · exact .some ..
      · split
        · exact .some ..
        · split
          · split
            · exact .some ..
            · split
              · exact .some ..
              · exact .none _
          · exact .none _

theorem oscCall_speaks (hs : s.source ≤ 3) (payload : Bytes) : SpeaksFor s (oscSource payload) (s.oscCall payload) := by
  unfold oscCall oscSource
  cases cutPayload payload with
  | none => exact .none _
  | some parts =>
    obtain ⟨code, body⟩ := parts
    simp only
    by_cases h1 : code = "7501"
    · rw [if_pos h1, if_pos h1]
      exact osc7501_speaks hs body
    · rw [if_neg h1, if_neg h1]
      by_cases h2 : code = "21337"
      · rw [if_pos h2, if_pos (.inl h2)]
        exact osc21337_speaks body
      · rw [if_neg h2]
        by_cases h3 : code = "9"
        · rw [if_pos h3, if_pos (.inr h3)]
          exact osc9_speaks body
        · rw [if_neg h3, if_neg (by simp [h2, h3])]
          by_cases h4 : code = "133"
          · rw [if_pos h4, if_pos (.inl h4)]
            exact osc133_speaks body
          · rw [if_neg h4]
            by_cases h5 : isTitle code = true
            · rw [if_pos h5, if_pos (.inr h5)]
              exact oscTitle_speaks body
            · rw [if_neg h5, if_neg (by simp [h4, h5])]
              exact .none _

end ProgramStatusTracker

theorem oscSource_le (payload : Bytes) : oscSource payload ≤ 3 := by
  unfold oscSource
  split
  · omega
  · split
    · omega
    · split
      · omega
      · split <;> omega

/-! ## Runs -/

namespace ProgramStatusTracker

def run (s : ProgramStatusTracker) (es : List StatusStep) : ProgramStatusTracker := es.foldl step s

end ProgramStatusTracker

section Runs

variable {s : ProgramStatusTracker} {es : List StatusStep}

open ProgramStatusTracker

theorem statusMoves_inv {I : ProgramStatusTracker → Prop} (hI : ∀ s e, I s → I (s.step e)) {es : List StatusStep} :
    ∀ {s : ProgramStatusTracker}, I s → ∀ m ∈ statusMoves s es, I m.before ∧ m.after = m.before.step m.step := by
  induction es with
  | nil => exact fun _ _ hm => by cases hm
  | cons e es ih =>
    intro s hs m hm
    rcases List.mem_cons.mp hm with rfl | hm
    · exact ⟨hs, rfl⟩
    · exact ih (hI s e hs) m hm

theorem run_inv {I : ProgramStatusTracker → Prop} (hI : ∀ s e, I s → I (s.step e)) {es : List StatusStep} :
    ∀ {s : ProgramStatusTracker}, I s → I (s.run es) := by
  induction es with
  | nil => exact fun hs => hs
  | cons e es ih => exact fun hs => ih (hI _ e hs)

/-- A move in the middle of a run. -/
theorem statusMoves_split {l₁ l₂ : List StatusMove} {m : StatusMove} : ∀ {s : ProgramStatusTracker} {es : List StatusStep},
    statusMoves s es = l₁ ++ m :: l₂ → ∃ es₁ es₂, es = es₁ ++ m.step :: es₂ ∧ l₁ = statusMoves s es₁ ∧
      m.before = s.run es₁ ∧ m.after = m.before.step m.step ∧ l₂ = statusMoves m.after es₂ := by
  induction l₁ with
  | nil =>
    intro s es h
    cases es with
    | nil => cases h
    | cons e es =>
      obtain ⟨rfl, rfl⟩ := List.cons.inj h
      exact ⟨[], es, rfl, rfl, rfl, rfl, rfl⟩
  | cons first l₁ ih =>
    intro s es h
    cases es with
    | nil => cases h
    | cons e es =>
      obtain ⟨hfirst, hrest⟩ := List.cons.inj h
      subst hfirst
      obtain ⟨es₁, es₂, rfl, rfl, hb, ha, hl⟩ := ih hrest
      exact ⟨e :: es₁, es₂, rfl, rfl, hb, ha, hl⟩

/-- What holds of a tracker at any time. -/
structure StatusBounded (s : ProgramStatusTracker) : Prop where
  source : s.source ≤ 3
  completed : s.completed ≤ s.revision
  pending : s.pending.length ≤ maxPendingStatus

theorem call_pending (now : Nat) (call : Option StatusCall) : (s.call now call).pending = s.pending := by
  cases call with
  | none => rfl
  | some call =>
    cases call with
    | set state source =>
      unfold ProgramStatusTracker.call ProgramStatusTracker.set
      simp only
      split
      · rfl
      · split
        · rfl
        · split <;> rfl
    | clear =>
      unfold ProgramStatusTracker.call clear ProgramStatusTracker.set
      simp only
      split
      · split
        · rfl
        · split
          · rfl
          · split <;> rfl
      · rfl

theorem clear_pending (now : Nat) : (s.clear now).pending = s.pending := call_pending now (some .clear)

theorem oscByte_pending (hs : s.pending.length ≤ maxPendingStatus) (ch : UInt8) (now : Nat) :
    (s.oscByte ch now).pending.length ≤ maxPendingStatus := by
  unfold oscByte
  split
  · exact Nat.zero_le _
  · simp only
    have hkept : (if s.scanner = .oscEscape then { s with overflow := true } else s).pending = s.pending := by
      split <;> rfl
    generalize (if s.scanner = .oscEscape then { s with overflow := true } else s) = next at hkept ⊢
    split
    · rw [hkept]
      exact hs
    · split
      · rename_i hroom
        rw [List.length_append]
        exact hroom.1
      · rw [hkept]
        exact hs

theorem scanByte_pending (hs : s.pending.length ≤ maxPendingStatus) (ch : UInt8) (now : Nat) :
    (s.scanByte ch now).pending.length ≤ maxPendingStatus := by
  unfold ProgramStatusTracker.scanByte
  split
  · split <;> exact hs
  · split
    · exact Nat.zero_le _
    · split
      · exact hs
      · split <;> exact hs
  · exact oscByte_pending hs ch now
  · exact oscByte_pending hs ch now
  · split <;> exact hs
  · split
    · exact hs
    · split <;> exact hs

theorem call_le (hs : s.source ≤ 3) (e : StatusStep) {state : ProgramState} {source : Nat}
    (h : StatusMove.call ⟨s, e, s.step e⟩ = some (.set state source)) : source ≤ 3 := by
  cases e with
  | byte ch offset now =>
    obtain ⟨payload, -, hcall⟩ := Option.bind_eq_some_iff.mp h
    rw [(oscCall_speaks hs payload).set _ _ hcall]
    exact oscSource_le payload
  | clear now => cases h
  | handOff busy scanStartedAt now =>
    simp only [StatusMove.call] at h
    split at h <;> cases h

theorem StatusBounded.step (h : StatusBounded s) (e : StatusStep) : StatusBounded (s.step e) := by
  have hgo := step_goes (s := s) e
  refine ⟨hgo.highest h.source fun state source hcall => call_le h.source e hcall, ?_, ?_⟩
  · have hle := h.completed
    rcases hgo.completed with ⟨hc, -⟩ | ⟨hc, -, hne, -⟩
    · rw [hc, hgo.revision]
      omega
    · rw [hc, hgo.revision, if_pos hne]
      omega
  · cases e with
    | byte ch offset now => exact scanByte_pending (s := { s with outputOffset := offset }) h.pending ch now
    | clear now =>
      unfold ProgramStatusTracker.step
      rw [clear_pending]
      exact h.pending
    | handOff busy scanStartedAt now =>
      unfold ProgramStatusTracker.step handOff
      simp only
      split
      · rw [clear_pending]
        exact h.pending
      · exact h.pending

/-- As often as the state has changed. -/
theorem run_revision (es : List StatusStep) : ∀ s : ProgramStatusTracker,
    (s.run es).revision = s.revision + ((statusMoves s es).filter StatusMove.changes).length := by
  induction es with
  | nil => exact fun _ => rfl
  | cons e es ih =>
    intro s
    have hrun : s.run (e :: es) = (s.step e).run es := rfl
    rw [hrun, ih, (step_goes e).revision, statusMoves, List.filter_cons]
    by_cases hne : s.state ≠ (s.step e).state
    · have hch : StatusMove.changes ⟨s, e, s.step e⟩ = true := decide_eq_true hne
      rw [if_pos hne, if_pos hch, List.length_cons]
      omega
    · have hch : ¬ StatusMove.changes ⟨s, e, s.step e⟩ = true := fun h => hne (of_decide_eq_true h)
      rw [if_neg hne, if_neg hch, Nat.add_zero]

/-- A turn is finished by an OSC string, and the offset behind it is kept. -/
theorem step_completion (e : StatusStep) :
    (StatusMove.completion ⟨s, e, s.step e⟩ = none ∧ (s.step e).completed = s.completed ∧
      (s.step e).completedOffset = s.completedOffset) ∨
    ∃ offset payload, StatusMove.completion ⟨s, e, s.step e⟩ = some (offset, payload) ∧
      (s.step e).completed = s.completed + 1 ∧ (s.step e).completedOffset = offset := by
  unfold StatusMove.completion
  simp only
  rcases (step_goes (s := s) e).completed with ⟨hc, ho⟩ | ⟨hc, ho, -, hclear, hnone⟩
  · rw [if_neg (by omega)]
    exact .inl ⟨rfl, hc, ho⟩
  · rw [if_pos (by omega)]
    cases e with
    | byte ch offset now =>
      unfold StatusMove.call at hnone
      simp only at hnone
      cases hh : s.handed ch with
      | none =>
        rw [hh] at hnone
        exact absurd rfl hnone
      | some payload =>
        refine .inr ⟨offset, payload, ?_, hc, ho⟩
        simp only [StatusMove.osc, hh, Option.map_some]
    | clear now => exact absurd rfl hclear
    | handOff busy scanStartedAt now =>
      simp only [StatusMove.call] at hclear hnone
      split at hclear
      · exact absurd rfl hclear
      · rename_i hno
        rw [if_neg hno] at hnone
        exact absurd rfl hnone

theorem run_completed (es : List StatusStep) : ∀ s : ProgramStatusTracker,
    (s.run es).completed = s.completed + ((statusMoves s es).filterMap StatusMove.completion).length ∧
      (s.run es).completedOffset =
        (((statusMoves s es).filterMap StatusMove.completion).getLast?.map Prod.fst).getD s.completedOffset := by
  induction es with
  | nil => exact fun _ => ⟨rfl, rfl⟩
  | cons e es ih =>
    intro s
    obtain ⟨hc, ho⟩ := ih (s.step e)
    have hrun : s.run (e :: es) = (s.step e).run es := rfl
    rw [hrun, hc, ho, statusMoves, List.filterMap_cons]
    rcases step_completion (s := s) e with ⟨hm, hc', ho'⟩ | ⟨offset, payload, hm, hc', ho'⟩
    · rw [hm, hc', ho']
      exact ⟨rfl, rfl⟩
    · rw [hm, hc', ho', List.length_cons]
      refine ⟨by omega, ?_⟩
      rw [List.getLast?_cons]
      cases ((statusMoves (s.step e) es).filterMap StatusMove.completion).getLast? <;> rfl

/-- Without a call of `clear` the source does not get lower. -/
theorem run_source (es : List StatusStep) : ∀ s : ProgramStatusTracker,
    (∀ m ∈ statusMoves s es, m.call ≠ some .clear) → s.source ≤ (s.run es).source := by
  induction es with
  | nil => exact fun _ _ => Nat.le_refl _
  | cons e es ih =>
    intro s h
    have hfirst := (step_goes (s := s) e).source (h _ (List.mem_cons_self ..))
    exact Nat.le_trans hfirst (ih (s.step e) fun m hm => h m (List.mem_cons_of_mem _ hm))

/-- An OSC string changes nothing that was set for a higher source, until the state is cleared. -/
theorem run_priority (hs : StatusBounded s) {l₁ l₂ l₃ : List StatusMove} {x y : StatusMove} {source offset : Nat}
    {payload : Bytes} (h : statusMoves s es = l₁ ++ x :: (l₂ ++ y :: l₃)) (hx : x.Sets source)
    (hc : ∀ m ∈ l₂, m.call ≠ some .clear) (hy : y.osc = some (offset, payload)) (hlow : oscSource payload < source) :
    y.after.toProgramStatus = y.before.toProgramStatus := by
  obtain ⟨es₁, es₂, -, -, hbefore, hafter, hl⟩ := statusMoves_split h
  obtain ⟨es₃, es₄, -, hl₂, hbefore', hafter', -⟩ := statusMoves_split hl.symm
  have hbounded : StatusBounded y.before := by
    rw [hbefore', hafter, hbefore]
    exact run_inv (fun _ e h => h.step e) ((run_inv (fun _ e h => h.step e) hs).step _)
  obtain ⟨state, hcall, hle⟩ := hx
  have hx : x = ⟨x.before, x.step, x.before.step x.step⟩ := by rw [← hafter]
  have hgo := step_goes (s := x.before) x.step
  rw [← hx] at hgo
  have hsource : source ≤ y.before.source := by
    have htaken := hgo.taken state source hcall hle
    rw [← hafter] at htaken
    rw [← htaken, hbefore']
    exact run_source es₃ _ fun m hm => hc m (hl₂ ▸ hm)
  have hy' : y = ⟨y.before, y.step, y.before.step y.step⟩ := by rw [← hafter']
  have hgo := step_goes (s := y.before) y.step
  rw [← hy', ← hafter'] at hgo
  apply hgo.kept
  have hcall : y.call = y.before.oscCall payload := by
    unfold StatusMove.osc at hy
    unfold StatusMove.call
    cases hstep : y.step with
    | byte ch offset now =>
      rw [hstep] at hy
      obtain ⟨payload', hp, he⟩ := Option.map_eq_some_iff.mp hy
      cases he
      simp only [hp, Option.bind_some]
    | clear now => rw [hstep] at hy; cases hy
    | handOff busy scanStartedAt now => rw [hstep] at hy; cases hy
  have hspeaks := oscCall_speaks hbounded.source payload
  rw [← hcall] at hspeaks
  cases hc : y.call with
  | none => exact .inl rfl
  | some call =>
    cases call with
    | set state' source' =>
      rw [hc] at hspeaks
      refine .inr ⟨state', source', rfl, ?_⟩
      rw [hspeaks.set _ _ rfl]
      omega
    | clear =>
      have := hspeaks.clear hc
      omega

end Runs

end Webshell
