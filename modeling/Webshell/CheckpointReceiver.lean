import Webshell.AttachReplay
import Webshell.JsValue

/-!
# Receiving a checkpoint

The browser collects the parts of a memory checkpoint and takes them with the
start of the replay they came before.
-/

namespace Webshell

open GoText

structure ReceivedParts where
  history : Option Json
  cursor : Option Json
  chunks : List (List Char) := []

/-- A receiver, with the names of its session. -/
structure CheckpointReceiver where
  name : String
  id : String
  state : Option ReceivedParts := none

namespace CheckpointReceiver

/-- A safe integer that is not negative. -/
def wholeNumber (value : Option Json) : Option Nat :=
  match value with
  | some (.num literal) => (Js.decimal literal).filter (· ≤ Js.maxSafeInteger)
  | _ => none

/-- The receiver after a part, and what it throws. -/
def accept (r : CheckpointReceiver) (message : Json) : CheckpointReceiver × Option String :=
  let mismatch := (r, some "Terminal checkpoint part identity/size mismatch")
  if Js.equals (message.get "selector") r.name = false ∨ Js.equals (message.get "pane_id") r.id = false then mismatch
  else
    match message.get "data", wholeNumber (message.get "index") with
    | some (.str data), some index =>
      if 87384 < Js.length data ∨ 256 ≤ index then mismatch
      else
        let state := r.state.getD { history := message.get "history_generation", cursor := message.get "cursor" }
        if index ≠ state.chunks.length ∨ Js.same (message.get "history_generation") state.history = false ∨
            Js.same (message.get "cursor") state.cursor = false then
          ({ r with state := some state }, some "Terminal checkpoint parts are not continuous")
        else ({ r with state := some { state with chunks := state.chunks ++ [data] } }, none)
    | _, _ => mismatch

/-- What is left of `checkpoint.protocol !== ...` and the other comparisons of `take`. -/
def Matches (checkpoint message : Json) (state : ReceivedParts) : Prop :=
  Js.equals (checkpoint.get "protocol") TerminalMemoryCheckpointProtocol = true ∧
    Js.same state.history (message.get "history_generation") = true ∧ Js.same state.cursor (checkpoint.get "cursor") = true ∧
    Js.same (checkpoint.get "cursor") (message.get "delta_from_cursor") = true ∧
    wholeNumber (checkpoint.get "parts") = some state.chunks.length ∧
    Js.same (checkpoint.get "cols") (message.get "cols") = true ∧ Js.same (checkpoint.get "rows") (message.get "rows") = true

instance (checkpoint message : Json) (state : ReceivedParts) : Decidable (Matches checkpoint message state) :=
  inferInstanceAs (Decidable (_ ∧ _))

/-- The receiver after a start, and the checkpoint with its chunks where the start has one. -/
def take (r : CheckpointReceiver) (message : Json) :
    CheckpointReceiver × Except String (Option (Json × List (List Char))) :=
  match message.get "memory_checkpoint" with
  | none => ({ r with state := none }, .ok none)
  | some checkpoint =>
    if Js.truthy checkpoint = false then ({ r with state := none }, .ok none)
    else
      match r.state with
      | none => (r, .error "Terminal checkpoint does not match its replay boundary")
      | some state =>
        if Matches checkpoint message state then ({ r with state := none }, .ok (some (checkpoint, state.chunks)))
        else (r, .error "Terminal checkpoint does not match its replay boundary")

/-- All of `messages`, the first that throws ending them. -/
def acceptAll (r : CheckpointReceiver) : List Json → Except String CheckpointReceiver
  | [] => .ok r
  | message :: messages =>
    match r.accept message with
    | (_, some err) => .error err
    | (r, none) => r.acceptAll messages

end CheckpointReceiver

/-! ## The fields of what the agent writes -/

section Fields

variable {identity : TerminalReplayIdentity} {history : PaneHistorySnapshot} {m : CheckpointMemory} {allowGeneratedInput : Bool}
  {clock : ReplayClock}

theorem get_append (front back : List (List Char × Json)) (key : String) :
    (Json.obj (front ++ back)).get key = ((Json.obj back).get key).or ((Json.obj front).get key) := by
  show (front ++ back).reverse.lookup key.toList = _
  rw [List.reverse_append, List.lookup_append]
  rfl

/-- A field behind all others with its key. -/
theorem get_back {front back : List (List Char × Json)} {key : String} {value : Json}
    (h : (Json.obj back).get key = some value) : (Json.obj (front ++ back)).get key = some value := by
  rw [get_append, h]
  rfl

theorem get_front {front back : List (List Char × Json)} {key : String} (h : (Json.obj back).get key = none) :
    (Json.obj (front ++ back)).get key = (Json.obj front).get key := by
  rw [get_append, h]
  rfl

theorem start_type : (historyReplayStart identity history m allowGeneratedInput clock).get "type" =
    some (jsonString "history-replay-start") := by
  apply get_back
  rfl

theorem start_generation : (historyReplayStart identity history m allowGeneratedInput clock).get "history_generation" =
    some (jsonString history.generation) := by
  apply get_back
  rfl

theorem start_from : (historyReplayStart identity history m allowGeneratedInput clock).get "delta_from_cursor" =
    some (jsonCursor history.deltaFrom) := by
  apply get_back
  rfl

theorem start_grid : (historyReplayStart identity history m allowGeneratedInput clock).get "cols" = some (jsonInt history.cols) ∧
    (historyReplayStart identity history m allowGeneratedInput clock).get "rows" = some (jsonInt history.rows) := by
  constructor
  · apply get_back
    rfl
  · apply get_back
    rfl

theorem start_checkpoint {checkpoint : TerminalMemoryCheckpoint} (h : history.checkpoint = some checkpoint) :
    (historyReplayStart identity history m allowGeneratedInput clock).get "memory_checkpoint" = some (checkpoint.json m) := by
  unfold historyReplayStart
  rw [get_front rfl]
  apply get_back
  unfold baselineFields
  rw [h]
  rfl

theorem complete_type (replayFrames : Nat) : (historyReplayComplete identity history replayFrames clock).get "type" =
    some (jsonString "history-replay-complete") := by
  apply get_back
  rfl

theorem complete_cursor (replayFrames : Nat) : (historyReplayComplete identity history replayFrames clock).get "history_cursor" =
    some (jsonCursor history.deltaTo) := by
  apply get_back
  rfl

theorem jsonInt_natural {x : Int} {n : Nat} (h : x.bmod uint64Limit = n) : jsonInt x = jsonUint n := by
  unfold jsonInt
  split
  · rename_i m hm
    rw [h] at hm
    cases hm
    rfl
  · rename_i m hm
    rw [h] at hm
    cases hm

theorem jsonInt_small {n : Nat} (h : n < 2 ^ 63) : jsonInt n = jsonUint n := by
  have hb : (n : Int).bmod uint64Limit = n := by
    apply Int.bmod_eq_of_le
    · unfold uint64Limit
      omega
    · unfold uint64Limit
      omega
  exact jsonInt_natural hb

theorem same_jsonInt (n : Int) : Js.same (some (jsonInt n)) (some (jsonInt n)) = true := by
  unfold jsonInt
  split <;> exact Js.same_num _

theorem wholeNumber_jsonInt {n : Nat} (h : n ≤ Js.maxSafeInteger) : CheckpointReceiver.wholeNumber (some (jsonInt n)) = some n := by
  rw [jsonInt_small (Nat.lt_of_le_of_lt h (by decide))]
  unfold CheckpointReceiver.wholeNumber jsonUint
  simp only [Js.decimal_toDigits]
  rw [Option.filter_some, if_pos (decide_eq_true h)]

/-! ## What the agent writes is received -/

theorem equals_jsonString (s : String) : Js.equals (some (jsonString s)) s = true := decide_eq_true rfl

theorem encode_units (data : Bytes) : Js.length (Base64.encode data) = (Base64.encode data).length := by
  apply Js.length_of_small
  intro c hc
  have halphabet : Base64.alphabet.all (fun c => c.toNat < 0x10000) = true := by decide +kernel
  rcases Base64.encode_chars data c hc with hc | rfl
  · exact of_decide_eq_true (List.all_eq_true.mp halphabet c hc)
  · decide

/-- The receiver of the session a replay is for, with the first parts in it. -/
def receiving (identity : TerminalReplayIdentity) (generation : String) (c : TerminalMemoryCheckpoint) (parts : List Bytes) :
    CheckpointReceiver where
  name := identity.selector
  id := identity.paneID
  state :=
    if parts = [] then none
    else some { history := some (jsonString generation), cursor := some (jsonCursor c.cursor), chunks := parts.map Base64.encode }

variable (identity) in
theorem accept_part (generation : String) (c : TerminalMemoryCheckpoint) (parts : List Bytes) {part : Bytes}
    (hlen : part.length ≤ 65536) (hindex : parts.length < 256) :
    (receiving identity generation c parts).accept (checkpointPart identity generation c parts.length part) =
      (receiving identity generation c (parts ++ [part]), none) := by
  have hdata : ¬ (87384 < Js.length (Base64.encode part) ∨ 256 ≤ parts.length) := by
    rw [encode_units, Base64.encode_length]
    omega
  have hfields : (checkpointPart identity generation c parts.length part).get "selector" = some (jsonString identity.selector) ∧
      (checkpointPart identity generation c parts.length part).get "pane_id" = some (jsonString identity.paneID) ∧
      (checkpointPart identity generation c parts.length part).get "history_generation" = some (jsonString generation) ∧
      (checkpointPart identity generation c parts.length part).get "cursor" = some (jsonCursor c.cursor) ∧
      (checkpointPart identity generation c parts.length part).get "index" = some (jsonInt parts.length) ∧
      (checkpointPart identity generation c parts.length part).get "data" = some (.str (Base64.encode part)) :=
    ⟨rfl, rfl, rfl, rfl, rfl, rfl⟩
  generalize checkpointPart identity generation c parts.length part = message at hfields ⊢
  obtain ⟨hselector, hpane, hgeneration, hcursor, hindex', hdata'⟩ := hfields
  have hwhole : CheckpointReceiver.wholeNumber (some (jsonInt parts.length)) = some parts.length :=
    wholeNumber_jsonInt (Nat.le_trans (Nat.le_of_lt hindex) (by decide))
  have hstate : (receiving identity generation c parts).state.getD
      { history := some (jsonString generation), cursor := some (jsonCursor c.cursor) } =
      { history := some (jsonString generation), cursor := some (jsonCursor c.cursor), chunks := parts.map Base64.encode } := by
    unfold receiving
    split
    · rename_i hp
      rw [hp]
      rfl
    · rfl
  have hsame : ¬ (parts.length ≠ (parts.map Base64.encode).length ∨ Js.same (some (jsonString generation)) (some (jsonString generation)) = false ∨
      Js.same (some (jsonCursor c.cursor)) (some (jsonCursor c.cursor)) = false) := by
    rw [List.length_map, jsonString, jsonCursor, jsonString, Js.same_str, Js.same_str]
    simp
  have hname : (receiving identity generation c parts).name = identity.selector ∧
      (receiving identity generation c parts).id = identity.paneID := ⟨rfl, rfl⟩
  unfold CheckpointReceiver.accept
  simp only [hselector, hpane, hgeneration, hcursor, hindex', hdata', hwhole, hname.1, hname.2, equals_jsonString,
    Bool.true_eq_false, or_self, if_false, if_neg hdata, hstate, if_neg hsame]
  unfold receiving
  simp only [List.append_eq_nil_iff, List.cons_ne_nil, and_false, if_false, List.map_append, List.map_cons, List.map_nil]

variable (identity) in
theorem accept_parts (generation : String) (c : TerminalMemoryCheckpoint) (received parts : List Bytes)
    (hlen : ∀ part ∈ parts, part.length ≤ 65536) (hcount : received.length + parts.length ≤ 256) :
    (receiving identity generation c received).acceptAll
        (parts.mapIdx fun index part => checkpointPart identity generation c ((received.length + index : Nat)) part) =
      .ok (receiving identity generation c (received ++ parts)) := by
  induction parts generalizing received with
  | nil => rw [List.append_nil]; rfl
  | cons part parts ih =>
    rw [List.length_cons] at hcount
    have hone := accept_part identity generation c received (hlen part (List.mem_cons_self ..)) (by omega)
    have hrest := ih (received ++ [part]) (fun p hp => hlen p (List.mem_cons_of_mem _ hp)) (by
      rw [List.length_append, List.length_singleton]
      omega)
    simp only [List.length_append, List.length_singleton, List.append_assoc, List.singleton_append] at hrest
    rw [List.mapIdx_cons, CheckpointReceiver.acceptAll, Nat.add_zero, hone]
    simp only [← hrest, Nat.add_comm 1, Nat.add_assoc]

/-- The messages of a replay's checkpoint. -/
def partMessages (identity : TerminalReplayIdentity) (generation : String) (c : TerminalMemoryCheckpoint) (m : CheckpointMemory) :
    List Json :=
  m.parts.mapIdx fun index part => checkpointPart identity generation c index part

/-- The parts are accepted and taken with the start, and their bytes are the compressed memory. -/
theorem checkpoint_received {checkpoint : TerminalMemoryCheckpoint} (h : Described history)
    (hc : history.checkpoint = some checkpoint) : ∃ r chunks,
      CheckpointReceiver.acceptAll { name := identity.selector, id := identity.paneID }
        (partMessages identity history.generation checkpoint m) = .ok r ∧
      r.take (historyReplayStart identity history m allowGeneratedInput clock) =
        ({ name := identity.selector, id := identity.paneID }, .ok (some (checkpoint.json m, chunks))) ∧
      ∃ pieces, chunks.mapM Base64.atob = some pieces ∧ pieces.flatten = m.compressed := by
  have hcount : m.parts.length ≤ 256 := by
    rw [m.parts_length]
    exact m.partCount_bounds.2
  have haccept := accept_parts identity history.generation checkpoint [] m.parts m.parts_piece (by simpa using hcount)
  simp only [List.length_nil, Nat.zero_add, List.nil_append] at haccept
  have hne : m.parts ≠ [] := by
    intro hp
    have hpos := m.partCount_bounds.1
    rw [← m.parts_length, hp] at hpos
    cases hpos
  refine ⟨_, m.parts.map Base64.encode, haccept, ?_, m.parts, ?_, m.parts_flatten⟩
  · obtain ⟨hcursor, hcols, hrows⟩ := h.checkpoint checkpoint hc
    have hparts : CheckpointReceiver.wholeNumber ((checkpoint.json m).get "parts") = some (m.parts.map Base64.encode).length := by
      rw [List.length_map, m.parts_length]
      exact wholeNumber_jsonInt (Nat.le_trans m.partCount_bounds.2 (by decide))
    have hmatches : CheckpointReceiver.Matches (checkpoint.json m) (historyReplayStart identity history m allowGeneratedInput clock)
        { history := some (jsonString history.generation), cursor := some (jsonCursor checkpoint.cursor)
          chunks := m.parts.map Base64.encode } := by
      refine ⟨equals_jsonString _, ?_, Js.same_str _, ?_, hparts, ?_, ?_⟩
      · rw [start_generation]
        exact Js.same_str _
      · rw [start_from, ← hcursor]
        exact Js.same_str _
      · rw [start_grid.1, ← hcols]
        exact same_jsonInt _
      · rw [start_grid.2, ← hrows]
        exact same_jsonInt _
    unfold CheckpointReceiver.take receiving
    rw [start_checkpoint hc, if_neg hne]
    have htruthy : ¬ Js.truthy (checkpoint.json m) = false := by
      rw [show Js.truthy (checkpoint.json m) = true from rfl]
      decide
    simp only [if_neg htruthy, if_pos hmatches]
  · have hdecode : ∀ parts : List Bytes, (parts.map Base64.encode).mapM Base64.atob = some parts := by
      intro parts
      induction parts with
      | nil => rfl
      | cons part parts ih =>
        rw [List.map_cons, List.mapM_cons, Base64.atob_encode, ih]
        rfl
    exact hdecode m.parts

end Fields

end Webshell
