import Webshell.JsConversion
import Webshell.Machine
import Webshell.Throwing

/-!
# The browser's replay controller

A replay is begun at a cursor, takes numbered frames whose cursors chain, is
completed at the last frame's end and committed. Arguments are any values, and
those left out default to what the controller holds.
-/

namespace Webshell

open Js Throwing

inductive ReplayPhase
  | idle
  | replaying
  | awaitingCommit
  | committed
  deriving DecidableEq

structure ReplayIdentity where
  selector : List Char := []
  paneID : List Char := []
  historyGeneration : List Char := []
  deriving DecidableEq

/-- An `identity` argument: anything but `undefined` and `null` has properties. -/
inductive IdentityArgument
  | undefined
  | null
  | object (selector paneID pane_id historyGeneration history_generation : Value)

structure ReplayController where
  phase : ReplayPhase := .idle
  requestID : List Char := []
  connectionEpoch : Js.Number := .finite 0
  identity : ReplayIdentity := {}
  /-- `null` under a legacy replay, as is the cursor. -/
  expectedSequence : Option Nat := some 1
  expectedCursor : Option Nat := some 0
  targetCursor : Option Nat := none
  legacy : Bool := false
  deriving DecidableEq

structure BeginArguments where
  requestID : Value := .undefined
  connectionEpoch : Value := .undefined
  identity : IdentityArgument := .undefined
  startCursor : Value := .undefined
  targetCursor : Value := .undefined

structure BinaryArguments where
  sequence : Value := .undefined
  startCursor : Value := .undefined
  endCursor : Value := .undefined
  length : Value := .undefined
  requestID : Value := .undefined
  connectionEpoch : Value := .undefined
  identity : IdentityArgument := .undefined

structure CompleteArguments where
  cursor : Value := .undefined
  requestID : Value := .undefined
  connectionEpoch : Value := .undefined
  identity : IdentityArgument := .undefined

abbrev ReplayMethod := EStateM Thrown ReplayController

def IdentityArgument.ofIdentity (i : ReplayIdentity) : IdentityArgument :=
  .object (.string i.selector) (.string i.paneID) .undefined (.string i.historyGeneration) .undefined

/-- The parameter `identity = this.identity`. -/
def IdentityArgument.orCurrent (identity : IdentityArgument) (i : ReplayIdentity) : IdentityArgument :=
  match identity with
  | .undefined => .ofIdentity i
  | other => other

namespace ReplayController

variable (js : Builtins)

/-- A cursor, or `null` where the text is no decimal. -/
def parseCursor (value : Value) : Except Thrown (Option Nat) := do
  let text ← js.text (value.orNullish (.string []))
  return decimal (trim text)

def normalizeIdentity : IdentityArgument → Except Thrown ReplayIdentity
  | .undefined => return {}
  | .null => throw .conversion
  | .object selector paneID pane_id historyGeneration history_generation => do
    let selector ← js.textOrEmpty selector
    let paneID ← js.textOrEmpty (paneID.orElse pane_id)
    let historyGeneration ← js.textOrEmpty (historyGeneration.orElse history_generation)
    return { selector := selector, paneID := paneID, historyGeneration := historyGeneration }

/-- The cursors `begin` starts from. -/
def cursorRange (a : BeginArguments) : Except Thrown (Nat × Option Nat) := do
  let start ← parseCursor js (a.startCursor.orDefault (.bigint 0))
  let target ← if a.targetCursor.isNullish then pure none else parseCursor js a.targetCursor
  match start with
  | none => throw (.error "invalid replay cursor range")
  | some start =>
    if target.any (fun target => target < start) then throw (.error "invalid replay cursor range")
    else return (start, target)

def begin (a : BeginArguments) : ReplayMethod ReplayController := do
  let range ← lift (cursorRange js a)
  modify fun c => { c with phase := .replaying }
  let requestID ← lift (js.textOrEmpty (a.requestID.orDefault (.string [])))
  modify fun c => { c with requestID := requestID }
  let connectionEpoch ← lift (js.numberOrZero (a.connectionEpoch.orDefault (.number (.finite 0))))
  modify fun c => { c with connectionEpoch := connectionEpoch }
  let identity ← lift (normalizeIdentity js a.identity)
  modify fun c => { c with
    identity := identity, expectedSequence := some 1, expectedCursor := some range.1, targetCursor := range.2
    legacy := false }
  get

def beginLegacy (requestID connectionEpoch : Value) (identity : IdentityArgument) : ReplayMethod ReplayController := do
  modify fun c => { c with phase := .replaying }
  let requestID ← lift (js.textOrEmpty (requestID.orDefault (.string [])))
  modify fun c => { c with requestID := requestID }
  let connectionEpoch ← lift (js.numberOrZero (connectionEpoch.orDefault (.number (.finite 0))))
  modify fun c => { c with connectionEpoch := connectionEpoch }
  let identity ← lift (normalizeIdentity js identity)
  modify fun c => { c with
    identity := identity, expectedSequence := none, expectedCursor := none, targetCursor := none, legacy := true }
  get

/-- `assertCurrent`; the conversions are made as far as the comparisons go. -/
def assertCurrent (requestID connectionEpoch : Value) (identity : IdentityArgument) : ReplayMethod Bool := do
  let c ← get
  let actual ← lift (normalizeIdentity js (identity.orCurrent c.identity))
  let request ← lift (js.textOrEmpty (requestID.orDefault (.string c.requestID)))
  if request ≠ c.requestID then throw (.error "replay identity or connection epoch mismatch") else do
    let epoch ← lift (js.numberOrZero (connectionEpoch.orDefault (.number c.connectionEpoch)))
    if epoch.strictEq c.connectionEpoch = false ∨ actual ≠ c.identity then
      throw (.error "replay identity or connection epoch mismatch")
    else return true

/-- Whether a frame of this sequence, range and length is the next one. -/
def continues (c : ReplayController) : Option Nat → Option Nat → Option Nat → Option Int → Bool
  | some seq, some start, some stop, some size =>
    0 ≤ size ∧ (stop : Int) - start = size ∧ c.expectedSequence = some seq ∧ c.expectedCursor = some start
  | _, _, _, _ => false

def acceptBinary (a : BinaryArguments) : ReplayMethod ReplayController := do
  let _ ← assertCurrent js a.requestID a.connectionEpoch a.identity
  let c ← get
  if c.phase ≠ .replaying then throw (.error "replay binary frame arrived outside replay") else do
    let seq ← lift (parseCursor js a.sequence)
    let start ← lift (parseCursor js a.startCursor)
    let stop ← lift (parseCursor js a.endCursor)
    let size ← lift (js.number a.length)
    if c.continues seq start stop size.safeInteger = false then
      throw (.error "replay binary sequence or cursor discontinuity")
    else do
      set { c with expectedSequence := c.expectedSequence.map (· + 1), expectedCursor := stop }
      get

def complete (a : CompleteArguments) : ReplayMethod ReplayController := do
  let _ ← assertCurrent js a.requestID a.connectionEpoch a.identity
  let stop ← lift (parseCursor js a.cursor)
  let c ← get
  if c.phase ≠ .replaying ∨ stop = none ∨ (c.targetCursor ≠ none ∧ stop ≠ c.targetCursor) ∨ stop ≠ c.expectedCursor then
    throw (.error "replay completion cursor mismatch")
  else do
    set { c with phase := .awaitingCommit }
    get

def completeLegacy (requestID connectionEpoch : Value) (identity : IdentityArgument) :
    ReplayMethod ReplayController := do
  let _ ← assertCurrent js requestID connectionEpoch identity
  let c ← get
  if c.phase ≠ .replaying ∨ c.legacy = false then throw (.error "legacy replay completion is not pending")
  else do
    set { c with phase := .awaitingCommit }
    get

def commit : ReplayMethod ReplayController := do
  let c ← get
  if c.phase ≠ .awaitingCommit then throw (.error "replay commit is not pending")
  else do
    set { c with phase := .committed }
    get

def reset : ReplayMethod ReplayController := do
  set ({} : ReplayController)
  get

end ReplayController

/-! ## Runs -/

/-- A call; without arguments to read, on `null`, it throws at once. -/
inductive ReplayCall
  | begin (a : Option BeginArguments)
  | acceptBinary (a : Option BinaryArguments)
  | complete (a : Option CompleteArguments)
  | commit
  | reset

structure AcceptedFrame where
  requestID : List Char
  connectionEpoch : Js.Number
  identity : ReplayIdentity
  sequence : Nat
  start : Nat
  stop : Nat
  length : Nat

/-- What was accepted since the last `begin` that returned. -/
structure ReplayJournal where
  requestID : List Char
  connectionEpoch : Js.Number
  identity : ReplayIdentity
  start : Nat
  /-- The target as it was given. -/
  target : Value
  frames : List AcceptedFrame := []
  completion : Option Nat := none

/-- Frames numbered from `sequence`, from `start` without a gap to `stop`. -/
def ChainedTo (stop : Nat) : Nat → Nat → List AcceptedFrame → Prop
  | _, start, [] => start = stop
  | sequence, start, f :: fs =>
    f.sequence = sequence ∧ f.start = start ∧ f.start ≤ f.stop ∧ f.length = f.stop - f.start ∧
      ChainedTo stop (sequence + 1) f.stop fs

structure ReplayRun where
  controller : ReplayController := {}
  journal : Option ReplayJournal := none

namespace ReplayCall

variable (js : Builtins)

def method : ReplayCall → ReplayMethod ReplayController
  | .begin (some a) => ReplayController.begin js a
  | .acceptBinary (some a) => ReplayController.acceptBinary js a
  | .complete (some a) => ReplayController.complete js a
  | .commit => ReplayController.commit
  | .reset => ReplayController.reset
  | .begin none | .acceptBinary none | .complete none => throw .conversion

/-- The journal after a call of `c` that returned. -/
def record (c : ReplayController) (journal : Option ReplayJournal) : ReplayCall → Option ReplayJournal
  | .begin (some a) =>
    match ReplayController.cursorRange js a, js.textOrEmpty (a.requestID.orDefault (.string [])),
      js.numberOrZero (a.connectionEpoch.orDefault (.number (.finite 0))), ReplayController.normalizeIdentity js a.identity with
    | .ok range, .ok requestID, .ok connectionEpoch, .ok identity =>
      some { requestID := requestID, connectionEpoch := connectionEpoch, identity := identity, start := range.1
             target := a.targetCursor }
    | _, _, _, _ => none
  | .acceptBinary (some a) =>
    match js.textOrEmpty (a.requestID.orDefault (.string c.requestID)),
      js.numberOrZero (a.connectionEpoch.orDefault (.number c.connectionEpoch)),
      ReplayController.normalizeIdentity js (a.identity.orCurrent c.identity), ReplayController.parseCursor js a.sequence,
      ReplayController.parseCursor js a.startCursor, ReplayController.parseCursor js a.endCursor, js.number a.length with
    | .ok requestID, .ok connectionEpoch, .ok identity, .ok (some sequence), .ok (some start), .ok (some stop), .ok length =>
      journal.map fun j => { j with frames := j.frames ++ [{
        requestID := requestID, connectionEpoch := connectionEpoch, identity := identity, sequence := sequence
        start := start, stop := stop, length := (length.safeInteger.getD 0).toNat }] }
    | _, _, _, _, _, _, _ => none
  | .complete (some a) =>
    match ReplayController.parseCursor js a.cursor with
    | .ok stop => journal.map fun j => { j with completion := stop }
    | .error _ => none
  | .reset => none
  | _ => journal

end ReplayCall

def replayMachine (js : Builtins) : Machine ReplayRun ReplayCall where
  step r call :=
    let m := call.method js
    some { controller := after m r.controller
           journal := if returned m r.controller = true then call.record js r.controller r.journal else r.journal }

/-- What the frames accepted since the last `begin` must be for its replay to be committed. -/
structure ReplayJournal.Committed (js : Builtins) (j : ReplayJournal) : Prop where
  current : ∀ f ∈ j.frames, f.requestID = j.requestID ∧ f.connectionEpoch = j.connectionEpoch ∧ f.identity = j.identity
  chained : ∃ stop, ChainedTo stop 1 j.start j.frames ∧ j.completion = some stop ∧
    (j.target.isNullish = false → ReplayController.parseCursor js j.target = .ok (some stop))

/-- A `begin` whose cursors are in order finds all it converts, and a target it is given is a cursor. -/
def ReplayCall.Orderly (js : Builtins) : ReplayCall → Prop
  | .begin (some a) => ∀ range, ReplayController.cursorRange js a = .ok range →
    (a.targetCursor.isNullish = false → range.2 ≠ none) ∧
    (js.textOrEmpty (a.requestID.orDefault (.string []))).isOk = true ∧
    (js.numberOrZero (a.connectionEpoch.orDefault (.number (.finite 0)))).isOk = true ∧
    (ReplayController.normalizeIdentity js a.identity).isOk = true
  | _ => True

namespace ReplayController

variable {js : Builtins}

/-! ## What a call that returns has found -/

theorem cursorRange_ok {a : BeginArguments} {range : Nat × Option Nat} (h : cursorRange js a = .ok range) :
    (a.targetCursor.isNullish = true → range.2 = none) ∧
      (a.targetCursor.isNullish = false → parseCursor js a.targetCursor = .ok range.2) := by
  unfold cursorRange at h
  cases hs : parseCursor js (a.startCursor.orDefault (.bigint 0)) with
  | error e => rw [hs] at h; cases h
  | ok start =>
    rw [hs] at h
    simp only [bind, Except.bind] at h
    cases hn : a.targetCursor.isNullish with
    | true =>
      rw [hn, if_pos rfl] at h
      refine ⟨fun _ => ?_, nofun⟩
      cases start with
      | none => cases h
      | some start => cases h; rfl
    | false =>
      rw [hn, if_neg (by decide)] at h
      refine ⟨nofun, fun _ => ?_⟩
      cases ht : parseCursor js a.targetCursor with
      | error e => rw [ht] at h; cases h
      | ok target =>
        rw [ht] at h
        cases start with
        | none => cases h
        | some start =>
          simp only at h
          split at h
          · cases h
          · cases h
            rfl

theorem assertCurrent_reads (requestID connectionEpoch : Value) (identity : IdentityArgument) :
    Reads (assertCurrent js requestID connectionEpoch identity) := by
  apply Reads.get.bind
  intro c
  apply (Reads.lift _).bind
  intro actual
  apply (Reads.lift _).bind
  intro request
  apply (Reads.throw _).ite
  apply (Reads.lift _).bind
  intro epoch
  exact (Reads.throw _).ite (.pure _)

theorem assertCurrent_ok {requestID connectionEpoch : Value} {identity : IdentityArgument} {c c' : ReplayController} {b : Bool}
    (h : assertCurrent js requestID connectionEpoch identity c = .ok b c') :
    js.textOrEmpty (requestID.orDefault (.string c.requestID)) = .ok c.requestID ∧
      js.numberOrZero (connectionEpoch.orDefault (.number c.connectionEpoch)) = .ok c.connectionEpoch ∧
      normalizeIdentity js (identity.orCurrent c.identity) = .ok c.identity := by
  have h1 := bind_get_ok.mp h
  obtain ⟨actual, hi, h2⟩ := bind_lift_ok.mp h1
  obtain ⟨request, hr, h3⟩ := bind_lift_ok.mp h2
  split at h3
  · exact (throw_ok h3).elim
  · rename_i hrequest
    obtain ⟨epoch, he, h4⟩ := bind_lift_ok.mp h3
    split at h4
    · exact (throw_ok h4).elim
    · rename_i hrest
      simp only [not_or, Bool.not_eq_false, Decidable.not_not] at hrest hrequest
      rw [hr, he, hi, hrequest, Number.eq_of_strictEq hrest.1, hrest.2]
      exact ⟨rfl, rfl, rfl⟩

theorem continues_ok {c : ReplayController} {seq start stop : Option Nat} {size : Option Int}
    (h : c.continues seq start stop size = true) :
    ∃ x y, start = some x ∧ stop = some y ∧ x ≤ y ∧ size = some ((y - x : Nat) : Int) ∧ seq ≠ none ∧
      c.expectedSequence = seq ∧ c.expectedCursor = some x := by
  unfold continues at h
  split at h
  · rename_i seq start stop size
    obtain ⟨hpos, hsize, hseq, hcur⟩ := of_decide_eq_true h
    exact ⟨start, stop, rfl, rfl, by omega, by congr 1; omega, nofun, hseq, hcur⟩
  · cases h

theorem acceptBinary_ok {a : BinaryArguments} {c c' r : ReplayController} (h : acceptBinary js a c = .ok r c') :
    ∃ seq start stop size, js.textOrEmpty (a.requestID.orDefault (.string c.requestID)) = .ok c.requestID ∧
      js.numberOrZero (a.connectionEpoch.orDefault (.number c.connectionEpoch)) = .ok c.connectionEpoch ∧
      normalizeIdentity js (a.identity.orCurrent c.identity) = .ok c.identity ∧ c.phase = .replaying ∧
      parseCursor js a.sequence = .ok (some seq) ∧ parseCursor js a.startCursor = .ok (some start) ∧
      parseCursor js a.endCursor = .ok (some stop) ∧ js.number a.length = .ok size ∧
      size.safeInteger = some ((stop - start : Nat) : Int) ∧ start ≤ stop ∧ c.expectedSequence = some seq ∧
      c.expectedCursor = some start ∧ c' = { c with expectedSequence := some (seq + 1), expectedCursor := some stop } := by
  obtain ⟨_, ha, h1⟩ := (assertCurrent_reads _ _ _).bind_ok h
  obtain ⟨hrequest, hepoch, hidentity⟩ := assertCurrent_ok ha
  have h2 := bind_get_ok.mp h1
  split at h2
  · exact (throw_ok h2).elim
  · rename_i hphase
    obtain ⟨seq, hseq, h3⟩ := bind_lift_ok.mp h2
    obtain ⟨start, hstart, h4⟩ := bind_lift_ok.mp h3
    obtain ⟨stop, hstop, h5⟩ := bind_lift_ok.mp h4
    obtain ⟨size, hsize, h6⟩ := bind_lift_ok.mp h5
    split at h6
    · exact (throw_ok h6).elim
    · rename_i hc
      obtain ⟨x, y, rfl, rfl, hxy, hsafe, hne, hsequence, hcursor⟩ := continues_ok (Bool.not_eq_false _ ▸ hc)
      obtain ⟨n, rfl⟩ := Option.ne_none_iff_exists'.mp hne
      refine ⟨n, x, y, size, hrequest, hepoch, hidentity, Decidable.not_not.mp hphase, hseq, hstart, hstop, hsize, hsafe, hxy,
        hsequence, hcursor, ?_⟩
      rw [hsequence] at h6
      cases h6
      rfl

theorem complete_ok {a : CompleteArguments} {c c' r : ReplayController} (h : complete js a c = .ok r c') :
    ∃ stop, parseCursor js a.cursor = .ok (some stop) ∧ c.phase = .replaying ∧ c.expectedCursor = some stop ∧
      (c.targetCursor ≠ none → c.targetCursor = some stop) ∧ c' = { c with phase := .awaitingCommit } := by
  obtain ⟨_, ha, h1⟩ := (assertCurrent_reads _ _ _).bind_ok h
  obtain ⟨stop, hstop, h2⟩ := bind_lift_ok.mp h1
  have h3 := bind_get_ok.mp h2
  split at h3
  · exact (throw_ok h3).elim
  · rename_i hc
    simp only [not_or, not_and, Decidable.not_not] at hc
    obtain ⟨hphase, hne, htarget, hcursor⟩ := hc
    obtain ⟨n, rfl⟩ := Option.ne_none_iff_exists'.mp hne
    cases h3
    exact ⟨n, hstop, hphase, hcursor.symm, fun ht => (htarget ht).symm, rfl⟩

theorem commit_ok {c c' r : ReplayController} (h : commit c = .ok r c') :
    c.phase = .awaitingCommit ∧ c' = { c with phase := .committed } := by
  have h1 := bind_get_ok.mp h
  split at h1
  · exact (throw_ok h1).elim
  · rename_i hphase
    cases h1
    exact ⟨Decidable.not_not.mp hphase, rfl⟩

/-! ## Calls that throw -/

theorem set_get_clean (c : ReplayController) : Clean (do set c; get : ReplayMethod ReplayController) :=
  .returns fun _ => rfl

theorem acceptBinary_clean (a : BinaryArguments) : Clean (acceptBinary js a) := by
  apply Clean.bind (assertCurrent_reads _ _ _)
  intro _
  apply Clean.bind .get
  intro c
  apply (Reads.throw _).clean.ite
  apply Clean.bind (.lift _)
  intro seq
  apply Clean.bind (.lift _)
  intro start
  apply Clean.bind (.lift _)
  intro stop
  apply Clean.bind (.lift _)
  intro size
  exact (Reads.throw _).clean.ite (set_get_clean _)

theorem complete_clean (a : CompleteArguments) : Clean (complete js a) := by
  apply Clean.bind (assertCurrent_reads _ _ _)
  intro _
  apply Clean.bind (.lift _)
  intro stop
  apply Clean.bind .get
  intro c
  exact (Reads.throw _).clean.ite (set_get_clean _)

theorem commit_clean : Clean commit := by
  apply Clean.bind .get
  intro c
  exact (Reads.throw _).clean.ite (set_get_clean _)

theorem begin_of_ok {a : BeginArguments} {range : Nat × Option Nat} {requestID : List Char} {connectionEpoch : Js.Number}
    {identity : ReplayIdentity} (hrange : cursorRange js a = .ok range)
    (hrequest : js.textOrEmpty (a.requestID.orDefault (.string [])) = .ok requestID)
    (hepoch : js.numberOrZero (a.connectionEpoch.orDefault (.number (.finite 0))) = .ok connectionEpoch)
    (hidentity : normalizeIdentity js a.identity = .ok identity) (c : ReplayController) :
    ∃ r, begin js a c = .ok r {
      phase := .replaying, requestID := requestID, connectionEpoch := connectionEpoch, identity := identity
      expectedSequence := some 1, expectedCursor := some range.1, targetCursor := range.2, legacy := false } := by
  unfold begin
  rw [hrange, hrequest, hepoch, hidentity]
  exact ⟨_, rfl⟩

end ReplayController

/-! ## What the journal says of the controller -/

theorem chainedTo_snoc {f : AcceptedFrame} (hle : f.start ≤ f.stop) (hlen : f.length = f.stop - f.start) :
    ∀ {fs : List AcceptedFrame} {sequence start : Nat}, ChainedTo f.start sequence start fs →
      f.sequence = sequence + fs.length → ChainedTo f.stop sequence start (fs ++ [f])
  | [], sequence, start, h, hs => ⟨hs, h.symm, hle, hlen, rfl⟩
  | _ :: fs, sequence, start, ⟨h1, h2, h3, h4, h5⟩, hs =>
    ⟨h1, h2, h3, h4, chainedTo_snoc hle hlen h5 (by rw [hs, List.length_cons]; omega)⟩

/-- The controller holds what the journal's `begin` asked for and stands after the journal's frames. -/
structure Underway (js : Builtins) (c : ReplayController) (j : ReplayJournal) : Prop where
  requestID : c.requestID = j.requestID
  connectionEpoch : c.connectionEpoch = j.connectionEpoch
  identity : c.identity = j.identity
  current : ∀ f ∈ j.frames, f.requestID = j.requestID ∧ f.connectionEpoch = j.connectionEpoch ∧ f.identity = j.identity
  sequence : c.expectedSequence = some (1 + j.frames.length)
  chained : ∃ stop, c.expectedCursor = some stop ∧ ChainedTo stop 1 j.start j.frames
  target : j.target.isNullish = false →
    c.targetCursor ≠ none ∧ ReplayController.parseCursor js j.target = .ok c.targetCursor

/-- The completion was at the last frame's end and at the target. -/
structure Completed (c : ReplayController) (j : ReplayJournal) : Prop where
  cursor : j.completion = c.expectedCursor
  target : c.targetCursor ≠ none → c.targetCursor = c.expectedCursor

def ReplayRun.Tracked (js : Builtins) (r : ReplayRun) : Prop :=
  r.controller.phase ≠ .idle → ∃ j, r.journal = some j ∧ Underway js r.controller j ∧
    (r.controller.phase ≠ .replaying → Completed r.controller j)

section Steps

variable {js : Builtins} {r : ReplayRun}

theorem begin_tracked {a : BeginArguments} (ho : (ReplayCall.begin (some a)).Orderly js)
    {range : Nat × Option Nat} (hrange : ReplayController.cursorRange js a = .ok range) :
    ∃ x c, ReplayController.begin js a r.controller = .ok x c ∧
      (ReplayRun.mk c ((ReplayCall.begin (some a)).record js r.controller r.journal)).Tracked js := by
  obtain ⟨htarget, hrequest, hepoch, hidentity⟩ := ho range hrange
  obtain ⟨requestID, hr⟩ := ok_of_isOk hrequest
  obtain ⟨connectionEpoch, he⟩ := ok_of_isOk hepoch
  obtain ⟨identity, hi⟩ := ok_of_isOk hidentity
  obtain ⟨x, hb⟩ := ReplayController.begin_of_ok hrange hr he hi r.controller
  have hrec : (ReplayCall.begin (some a)).record js r.controller r.journal = some
      { requestID := requestID, connectionEpoch := connectionEpoch, identity := identity, start := range.1
        target := a.targetCursor } := by
    simp only [ReplayCall.record, hrange, hr, he, hi]
  refine ⟨x, _, hb, fun _ => ⟨_, hrec, ?_, fun h => absurd rfl h⟩⟩
  exact ⟨rfl, rfl, rfl, nofun, rfl, ⟨range.1, rfl, rfl⟩, fun hn =>
    ⟨htarget hn, (ReplayController.cursorRange_ok hrange).2 hn⟩⟩

theorem acceptBinary_tracked {a : BinaryArguments} (h : r.Tracked js) {x c : ReplayController}
    (hc : ReplayController.acceptBinary js a r.controller = .ok x c) :
    (ReplayRun.mk c ((ReplayCall.acceptBinary (some a)).record js r.controller r.journal)).Tracked js := by
  obtain ⟨seq, start, stop, size, hrequest, hepoch, hidentity, hphase, hseq, hstart, hstop, hsize, hsafe, hle, hsequence,
    hcursor, rfl⟩ := ReplayController.acceptBinary_ok hc
  obtain ⟨j, hj, hu, -⟩ := h (by rw [hphase]; decide)
  obtain ⟨last, hlast, hchain⟩ := hu.chained
  have hstartLast : start = last := Option.some.inj (hcursor.symm.trans hlast)
  have hseqLast : seq = 1 + j.frames.length := Option.some.inj (hsequence.symm.trans hu.sequence)
  have hrec : (ReplayCall.acceptBinary (some a)).record js r.controller r.journal = some { j with
      frames := j.frames ++ [{
        requestID := r.controller.requestID, connectionEpoch := r.controller.connectionEpoch
        identity := r.controller.identity, sequence := seq, start := start, stop := stop, length := stop - start }] } := by
    simp only [ReplayCall.record, hrequest, hepoch, hidentity, hseq, hstart, hstop, hsize, hsafe, hj, Option.map_some,
      Option.getD_some, Int.toNat_natCast]
  refine fun _ => ⟨_, hrec, ?_, fun hn => absurd hphase hn⟩
  refine ⟨hu.requestID, hu.connectionEpoch, hu.identity, ?_, ?_, ⟨stop, rfl, ?_⟩, hu.target⟩
  · intro f hf
    rcases List.mem_append.mp hf with hf | hf
    · exact hu.current f hf
    · rw [List.mem_singleton] at hf
      subst hf
      exact ⟨hu.requestID, hu.connectionEpoch, hu.identity⟩
  · simp only [List.length_append, List.length_singleton, hseqLast]
    rw [Nat.add_assoc]
  · subst hstartLast
    exact chainedTo_snoc (f := ⟨_, _, _, seq, start, stop, stop - start⟩) hle rfl hchain hseqLast

theorem complete_tracked {a : CompleteArguments} (h : r.Tracked js) {x c : ReplayController}
    (hc : ReplayController.complete js a r.controller = .ok x c) :
    (ReplayRun.mk c ((ReplayCall.complete (some a)).record js r.controller r.journal)).Tracked js := by
  obtain ⟨stop, hstop, hphase, hcursor, htarget, rfl⟩ := ReplayController.complete_ok hc
  obtain ⟨j, hj, hu, -⟩ := h (by rw [hphase]; decide)
  have hrec : (ReplayCall.complete (some a)).record js r.controller r.journal = some { j with completion := some stop } := by
    simp only [ReplayCall.record, hstop, hj, Option.map_some]
  refine fun _ => ⟨_, hrec, ⟨hu.requestID, hu.connectionEpoch, hu.identity,
    hu.current, hu.sequence, hu.chained, hu.target⟩, fun _ => ⟨hcursor.symm, fun ht => ?_⟩⟩
  exact (htarget ht).trans hcursor.symm

theorem commit_tracked (h : r.Tracked js) {x c : ReplayController}
    (hc : ReplayController.commit r.controller = .ok x c) :
    (ReplayRun.mk c (ReplayCall.commit.record js r.controller r.journal)).Tracked js := by
  obtain ⟨hphase, rfl⟩ := ReplayController.commit_ok hc
  obtain ⟨j, hj, hu, hdone⟩ := h (by rw [hphase]; decide)
  intro _
  refine ⟨j, hj, ⟨hu.requestID, hu.connectionEpoch, hu.identity, hu.current, hu.sequence, hu.chained, hu.target⟩, fun _ => ?_⟩
  have hd := hdone (by rw [hphase]; decide)
  exact ⟨hd.cursor, hd.target⟩

theorem call_tracked {call : ReplayCall} (h : r.Tracked js) (ho : call.Orderly js) {x c : ReplayController}
    (hc : call.method js r.controller = .ok x c) : (ReplayRun.mk c (call.record js r.controller r.journal)).Tracked js := by
  match call with
  | .begin none | .acceptBinary none | .complete none => exact (throw_ok hc).elim
  | .begin (some a) =>
    obtain ⟨range, hrange, -⟩ := bind_lift_ok.mp hc
    obtain ⟨y, d, hd, ht⟩ := begin_tracked (r := r) ho hrange
    obtain ⟨rfl, rfl⟩ := EStateM.Result.ok.inj (hc.symm.trans hd)
    exact ht
  | .acceptBinary (some a) => exact acceptBinary_tracked h hc
  | .complete (some a) => exact complete_tracked h hc
  | .commit => exact commit_tracked h hc
  | .reset =>
    cases hc
    exact fun hn => absurd rfl hn

theorem begin_clean {a : BeginArguments} (ho : (ReplayCall.begin (some a)).Orderly js) :
    Clean (ReplayController.begin js a) := by
  intro c hc
  cases hrange : ReplayController.cursorRange js a with
  | error e =>
    unfold ReplayController.begin
    rw [hrange]
    rfl
  | ok range =>
    obtain ⟨y, d, hd, -⟩ := begin_tracked (r := ⟨c, none⟩) ho hrange
    unfold returned at hc
    rw [hd] at hc
    cases hc

theorem call_clean {call : ReplayCall} (ho : call.Orderly js) : Clean (call.method js) := by
  match call with
  | .begin none | .acceptBinary none | .complete none => exact (Reads.throw _).clean
  | .begin (some a) => exact begin_clean ho
  | .acceptBinary (some a) => exact ReplayController.acceptBinary_clean a
  | .complete (some a) => exact ReplayController.complete_clean a
  | .commit => exact ReplayController.commit_clean
  | .reset => exact ReplayController.set_get_clean _

theorem step_tracked {call : ReplayCall} {r' : ReplayRun} (h : r.Tracked js) (ho : call.Orderly js)
    (hs : (replayMachine js).step r call = some r') : r'.Tracked js := by
  cases hs
  cases hc : call.method js r.controller with
  | ok x c =>
    unfold after returned
    rw [hc]
    exact call_tracked h ho hc
  | error e c =>
    have hclean := call_clean ho r.controller
    unfold after returned at hclean ⊢
    rw [hc] at hclean ⊢
    obtain rfl := hclean rfl
    exact h

end Steps

theorem ReplayRun.Tracked.committed {js : Builtins} {r : ReplayRun} (h : r.Tracked js)
    (hphase : r.controller.phase = .committed) : ∃ j, r.journal = some j ∧ j.Committed js := by
  obtain ⟨j, hj, hu, hdone⟩ := h (by rw [hphase]; decide)
  have hd := hdone (by rw [hphase]; decide)
  obtain ⟨stop, hcursor, hchain⟩ := hu.chained
  refine ⟨j, hj, hu.current, stop, hchain, hd.cursor.trans hcursor, fun hn => ?_⟩
  obtain ⟨hne, hparse⟩ := hu.target hn
  rw [hparse, hd.target hne, hcursor]

/-- Over any calls whose `begin`s are in order, only a chain of frames from `begin` to completion is
committed, and a call that throws changes nothing. -/
theorem replay_committed (js : Builtins) {calls : List ReplayCall} (ho : ∀ call ∈ calls, call.Orderly js) :
    (∀ r, (replayMachine js).run {} calls = some r → r.controller.phase = .committed →
      ∃ j, r.journal = some j ∧ j.Committed js) ∧
    (replayMachine js).Along (fun r call => returned (call.method js) r.controller = false →
      after (call.method js) r.controller = r.controller) {} calls := by
  have hstart : ReplayRun.Tracked js {} := fun h => absurd rfl h
  have halong := (replayMachine js).along_of_forall ho {}
  constructor
  · intro r hr hphase
    have ht := (replayMachine js).run_inv_along (fun _ _ _ h ho hs => step_tracked h ho hs) hr halong hstart
    exact ht.committed hphase
  · apply (replayMachine js).along_mono _ halong
    exact fun r call ho => call_clean ho r.controller

/-- A replay of one frame, the identity given once and then left out. -/
def replayedCalls : List ReplayCall :=
  [.begin (some { requestID := .string ['r'], startCursor := .string ['5'], targetCursor := .bigint 8
                  identity := .object (.string ['s']) .undefined (.string ['p']) .undefined .undefined }),
   .acceptBinary (some { sequence := .bigint 1, startCursor := .string ['5'], endCursor := .string ['8']
                         length := .number (.finite 3) }),
   .complete (some { cursor := .string ['8'], requestID := .string ['r'] }),
   .commit]

theorem replay_committed_one : ∃ r, (replayMachine .ofDecimals).run {} replayedCalls = some r ∧
    r.controller.phase = .committed ∧ ∃ j, r.journal = some j ∧ j.Committed .ofDecimals := by
  have ho : ∀ call ∈ replayedCalls, call.Orderly .ofDecimals := by
    intro call hc
    simp only [replayedCalls, List.mem_cons, List.not_mem_nil, or_false] at hc
    rcases hc with rfl | rfl | rfl | rfl
    · intro range hr
      cases hr
      exact ⟨fun _ => by decide, rfl, rfl, rfl⟩
    · trivial
    · trivial
    · trivial
  exact ⟨_, rfl, rfl, (replay_committed .ofDecimals ho).1 _ rfl rfl⟩

/-- An identity that is `null` is found out after the phase is set; a target that is no cursor is taken for
none, and a replay that never came to it is committed. -/
theorem begin_half_done :
    (let begun := ReplayCall.method .ofDecimals (.begin (some { identity := .null }))
     returned begun {} = false ∧ (after begun {}).phase = .replaying) ∧
    ∃ r j, (replayMachine .ofDecimals).run {}
      [.begin (some { targetCursor := .string ['x'] }), .complete (some { cursor := .bigint 0 }), .commit] = some r ∧
      r.controller.phase = .committed ∧ r.journal = some j ∧ ¬ j.Committed .ofDecimals := by
  refine ⟨⟨rfl, rfl⟩, _, _, rfl, rfl, rfl, fun h => ?_⟩
  obtain ⟨stop, -, -, ht⟩ := h.chained
  cases ht rfl

end Webshell
