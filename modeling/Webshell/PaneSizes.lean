import Webshell.PaneReplay

/-!
# The size at every byte

A resize holds the output lock from the moment it stores the new geometry until
it has told the clients, but gives up the pane's lock in between, so a client
may attach at any point of it. Reading on from the geometry of its snapshot, a
client knows at every byte what size the pane had when the byte was appended.
-/

namespace Webshell

open Slice

/-- Columns and rows. -/
abbrev Size := Int × Int

def Geometry.size (g : Geometry) : Size := (g.cols, g.rows)

def PaneHistorySnapshot.size (h : PaneHistorySnapshot) : Size := (h.cols, h.rows)

/-! ## Walking a client's queue -/

/-- The size after the messages, from `size` on. -/
def sizeAfter : Size → List PaneOutbound → Size
  | size, [] => size
  | size, o :: os =>
    match o.payload with
    | .text (.resizeApplied _ geometry) _ => sizeAfter geometry.size os
    | _ => sizeAfter size os

/-- The size at each binary byte of the messages. -/
def walk : Size → List PaneOutbound → List Size
  | _, [] => []
  | size, o :: os =>
    match o.payload with
    | .binary data => List.replicate data.length size ++ walk size os
    | .text (.resizeApplied _ geometry) _ => walk geometry.size os
    | .text .. => walk size os

theorem sizeAfter_append (size : Size) (os more : List PaneOutbound) :
    sizeAfter size (os ++ more) = sizeAfter (sizeAfter size os) more := by
  induction os generalizing size with
  | nil => rfl
  | cons o os ih =>
    rw [List.cons_append, sizeAfter, sizeAfter]
    split <;> exact ih _

theorem walk_append (size : Size) (os more : List PaneOutbound) :
    walk size (os ++ more) = walk size os ++ walk (sizeAfter size os) more := by
  induction os generalizing size with
  | nil => rfl
  | cons o os ih =>
    rw [List.cons_append, walk, walk, sizeAfter]
    cases o.payload with
    | binary data => simp only; rw [ih, List.append_assoc]
    | text control n => cases control <;> exact ih _

/-- Merged or not, a message is walked the same. -/
theorem mergeLast_walk : ∀ {pending pending' : List PaneOutbound} {outbound : PaneOutbound},
    mergeLast pending outbound = some pending' → ∀ size,
      walk size pending' = walk size (pending ++ [outbound]) ∧
        sizeAfter size pending' = sizeAfter size (pending ++ [outbound])
  | [], _, _, h, _ => by cases h
  | [last], pending', outbound, h, size => by
    rw [mergeLast] at h
    split at h
    · rename_i a b ha hb
      split at h
      · cases h
        simp [walk, sizeAfter, ha, hb]
      · cases h
    · cases h
  | o :: p :: rest, pending', outbound, h, size => by
    rw [mergeLast] at h
    · obtain ⟨merged, hm, rfl⟩ := Option.map_eq_some_iff.mp h
      have ih := mergeLast_walk hm
      rw [List.cons_append, walk, walk, sizeAfter, sizeAfter]
      cases o.payload with
      | binary data => simp only; exact ⟨by rw [(ih size).1], (ih size).2⟩
      | text control n => cases control <;> exact ih _
    · rintro ⟨⟩

namespace PaneClient

/-- What is enqueued is walked behind everything else, or the client is closed. -/
theorem enqueue_walk (c : PaneClient) (outbound : PaneOutbound) (size : Size) :
    ((c.enqueue outbound).2 = false ∧ (c.enqueue outbound).1.accepted = c.accepted ∧
      (c.enqueue outbound).1.done = true) ∨
    ((c.enqueue outbound).2 = true ∧
      walk size (c.enqueue outbound).1.accepted = walk size (c.accepted ++ [outbound]) ∧
        sizeAfter size (c.enqueue outbound).1.accepted = sizeAfter size (c.accepted ++ [outbound])) := by
  unfold enqueue
  split
  · rename_i hd
    exact .inl ⟨rfl, rfl, hd⟩
  · split
    · exact .inl ⟨rfl, rfl, rfl⟩
    · simp only
      split
      · rename_i hroom
        refine .inr ⟨rfl, ?_⟩
        simp [accepted, hroom.1]
      · split
        · rename_i pending hm
          refine .inr ⟨rfl, ?_⟩
          simp only [accepted]
          generalize c.received ++ c.send = front
          rw [List.append_assoc front, walk_append, walk_append, sizeAfter_append, sizeAfter_append]
          have hm := mergeLast_walk hm (sizeAfter size front)
          exact ⟨by rw [hm.1], hm.2⟩
        · split
          · exact .inl ⟨rfl, rfl, rfl⟩
          · exact .inr ⟨rfl, by simp [accepted]⟩

theorem enqueue_open {c : PaneClient} {outbound : PaneOutbound} (h : (c.enqueue outbound).1.done = false) :
    c.done = false ∧ (c.enqueue outbound).2 = true := by
  obtain ⟨-, hrej, hacc⟩ := c.enqueue_binary outbound
  cases hok : (c.enqueue outbound).2 with
  | false => rw [hrej hok] at h; cases h
  | true => exact ⟨(hacc hok).1, rfl⟩

end PaneClient

/-! ## The resize in its steps -/

/-- Where a resize that holds the output lock has got to. -/
inductive ResizePhase
  /-- The geometry is stored and the PTY has taken it. -/
  | stored (epoch source : Nat)
  /-- The epoch is recorded; these clients are still to be told. -/
  | telling (epoch : Nat) (geometry : Geometry) (clients : List Nat)
  deriving DecidableEq

structure TracedPane where
  pane : TerminalPane
  resizing : Option ResizePhase
  /-- The size the pane had when each byte of `pane.out` was appended. -/
  sizes : List Size

namespace TerminalPane

/-- `applyResize` for a request with an epoch, up to the success of `platform.ResizePTY`. -/
def storeResize (p : TerminalPane) (message : TerminalControlMessage) (source : Nat) (answers : PaneAnswers) :
    Option (Nat × TerminalPane) :=
  match parseTerminalResizeEpoch message.ResizeEpoch with
  | none => none
  | some epoch =>
    let g := normalizeGeometry p.geometry message.Cols message.Rows message.PixelWidth message.PixelHeight
    if epoch < p.resizeEpoch then none
    else if epoch = p.resizeEpoch ∧ g ≠ p.geometry then none
    else if p.resizeOwner ≠ none ∧ message.Claim = false ∧ epoch ≠ p.resizeEpoch ∧ p.resizeOwner ≠ some source then none
    else
      match p.resizeWithPixelsUnlocked g.cols g.rows g.pixelWidth g.pixelHeight answers with
      | (_, some _) => none
      | (p, none) => some (epoch, p)

end TerminalPane

inductive TracedEvent
  | attach (request : HistorySyncRequest) (answers : PaneAnswers)
  | output (filtered : Bytes) (answers : PaneAnswers)
  | deliver (client : Nat)
  | storeResize (message : TerminalControlMessage) (source : Nat) (answers : PaneAnswers)
  | recordResize
  | tellResize (client : Nat) (answers : PaneAnswers)
  | unlockResize
  | receive (client : Nat)
  | dequeued (client : Nat) (size : Int)

namespace TracedPane

/-- The bytes appended by a step have the size the pane has at it. -/
def grow (m : TracedPane) (pane : TerminalPane) : TracedPane :=
  { m with pane := pane, sizes := m.sizes ++ List.replicate (pane.out.length - m.pane.out.length) pane.geometry.size }

def pass (m : TracedPane) (e : PaneEvent) : Option TracedPane := (paneMachine.step m.pane e).map m.grow

def storeResize (m : TracedPane) (message : TerminalControlMessage) (source : Nat) (answers : PaneAnswers) :
    Option TracedPane :=
  -- the resize lock and the output lock
  if m.resizing = none ∧ m.pane.inflight = [] ∧ source ∈ m.pane.clients then
    (m.pane.storeResize message source answers).map fun r =>
      { m with pane := r.2, resizing := some (.stored r.1 source) }
  else none

def recordResize (m : TracedPane) : Option TracedPane :=
  match m.resizing with
  | some (.stored epoch source) =>
    some { m with
      pane := { m.pane with resizeEpoch := epoch, resizeOwner := some source }
      resizing := some (.telling epoch m.pane.geometry m.pane.clients) }
  | _ => none

/-- The clients are told in no particular order. -/
def tellResize (m : TracedPane) (client : Nat) (answers : PaneAnswers) : Option TracedPane :=
  match m.resizing with
  | some (.telling epoch geometry clients) =>
    if client ∈ clients then
      some { m with
        pane := m.pane.enqueueText answers (.resizeApplied epoch geometry) false [client]
        resizing := some (.telling epoch geometry (clients.erase client)) }
    else none
  | _ => none

def unlockResize (m : TracedPane) : Option TracedPane :=
  match m.resizing with
  | some (.telling _ _ []) => some { m with resizing := none }
  | _ => none

def start (generation : String) (cols rows limit : Int) (localPTY : Bool) : TracedPane where
  pane := .start generation cols rows limit localPTY
  resizing := none
  sizes := []

end TracedPane

/-- Attaches, output and successful resizes. What only takes the pane's lock may happen at
any point of a resize, an append may not. -/
def tracedMachine : Machine TracedPane TracedEvent where
  step m
    | .attach request answers => m.pass (.attach request answers)
    | .output filtered answers => if m.resizing = none then m.pass (.output filtered answers) else none
    | .deliver client => m.pass (.deliver client)
    | .storeResize message source answers => m.storeResize message source answers
    | .recordResize => m.recordResize
    | .tellResize client answers => m.tellResize client answers
    | .unlockResize => m.unlockResize
    | .receive client => m.pass (.receive client)
    | .dequeued client size => m.pass (.dequeued client size)

/-! ## What does not change a client's size -/

/-- Messages that carry neither bytes nor a size: the client is walked as before. -/
structure SilentTo (s s' : Subscriber) : Prop where
  snapshot : s'.snapshot = s.snapshot
  binary : s'.client.binary = s.client.binary
  walked : ∀ size, walk size s'.client.accepted = walk size s.client.accepted
  open_ : s'.client.done = false → s.client.done = false
  after : s'.client.done = false → ∀ size, sizeAfter size s'.client.accepted = sizeAfter size s.client.accepted

structure Silent (before after : List Subscriber) : Prop where
  length : after.length = before.length
  same : ∀ (c : Nat) (s' : Subscriber), after[c]? = some s' → ∃ s, before[c]? = some s ∧ SilentTo s s'

theorem SilentTo.refl (s : Subscriber) : SilentTo s s := ⟨rfl, rfl, fun _ => rfl, fun h => h, fun _ _ => rfl⟩

theorem Silent.refl (subscribers : List Subscriber) : Silent subscribers subscribers :=
  ⟨rfl, fun _ s hs => ⟨s, hs, .refl s⟩⟩

theorem Silent.trans {a b c : List Subscriber} (h₁ : Silent a b) (h₂ : Silent b c) : Silent a c := by
  refine ⟨h₂.length.trans h₁.length, fun i s'' hs'' => ?_⟩
  obtain ⟨s', hs', h'⟩ := h₂.same i s'' hs''
  obtain ⟨s, hs, h⟩ := h₁.same i s' hs'
  refine ⟨s, hs, h'.snapshot.trans h.snapshot, h'.binary.trans h.binary, ?_, fun ho => h.open_ (h'.open_ ho), ?_⟩
  · exact fun size => (h'.walked size).trans (h.walked size)
  · exact fun ho size => (h'.after ho size).trans (h.after (h'.open_ ho) size)

theorem silent_modify (subscribers : List Subscriber) (client : Nat) (f : PaneClient → PaneClient)
    (hf : ∀ s, subscribers[client]? = some s → SilentTo s { s with client := f s.client }) :
    Silent subscribers (subscribers.modify client fun s => { s with client := f s.client }) := by
  refine ⟨List.length_modify .., fun c s' hs' => ?_⟩
  rw [List.getElem?_modify] at hs'
  obtain ⟨s, hs, rfl⟩ := Option.map_eq_some_iff.mp hs'
  refine ⟨s, hs, ?_⟩
  split
  · rename_i hc
    subst hc
    exact hf s hs
  · exact .refl s

/-- The writer's side of a queue. -/
theorem silentTo_accepted {s : Subscriber} {c : PaneClient} (ha : c.accepted = s.client.accepted)
    (hd : c.done = s.client.done) : SilentTo s { s with client := c } where
  snapshot := rfl
  binary := congrArg (List.flatMap PaneOutbound.bytes) ha
  walked size := by rw [ha]
  open_ h := by rw [← hd]; exact h
  after _ size := by rw [ha]

theorem silentTo_diagnostic (s : Subscriber) (n : Nat) (closeAfter : Bool) :
    SilentTo s { s with client := (s.client.enqueue ⟨.text .checkpointDiagnostic n, closeAfter⟩).1 } where
  snapshot := rfl
  binary := PaneClient.enqueue_text_binary ..
  walked size := by
    rcases s.client.enqueue_walk ⟨.text .checkpointDiagnostic n, closeAfter⟩ size with ⟨-, ha, -⟩ | ⟨-, hw, -⟩
    · exact congrArg (walk size) ha
    · rw [walk_append] at hw
      exact hw.trans (List.append_nil _)
  open_ h := (PaneClient.enqueue_open h).1
  after h size := by
    rcases s.client.enqueue_walk ⟨.text .checkpointDiagnostic n, closeAfter⟩ size with ⟨-, ha, -⟩ | ⟨-, -, hz⟩
    · exact congrArg (sizeAfter size) ha
    · rw [sizeAfter_append] at hz
      exact hz

theorem diagnostic_silent (p : TerminalPane) (answers : PaneAnswers) (clients : List Nat) :
    ∃ subscribers, p.enqueueText answers .checkpointDiagnostic false clients = { p with subscribers := subscribers } ∧
      Silent p.subscribers subscribers := by
  unfold TerminalPane.enqueueText
  induction clients generalizing p with
  | nil => exact ⟨_, rfl, .refl _⟩
  | cons client clients ih =>
    obtain ⟨subscribers, he, ht⟩ :=
      ih (p.enqueueTo client ⟨.text .checkpointDiagnostic (answers.textSize .checkpointDiagnostic), false⟩)
    refine ⟨subscribers, he, Silent.trans ?_ ht⟩
    exact silent_modify p.subscribers client (fun c => (c.enqueue _).1) fun s _ => silentTo_diagnostic s _ _

theorem recordCheckpointFailure_silent (p : TerminalPane) (operation : String)
    (batchFrom batchTo pendingBefore : Nat) (answers : PaneAnswers) : ∃ subscribers failure,
      p.recordCheckpointFailureLocked operation batchFrom batchTo pendingBefore answers =
        { p with subscribers := subscribers, checkpointFailure := failure } ∧ Silent p.subscribers subscribers := by
  unfold TerminalPane.recordCheckpointFailureLocked
  split
  · exact ⟨_, _, rfl, .refl _⟩
  · split
    · exact ⟨_, _, rfl, .refl _⟩
    · split
      · exact ⟨_, _, rfl, .refl _⟩
      · obtain ⟨subscribers, he, ht⟩ := diagnostic_silent { p with checkpointFailure := some _ } answers p.clients
        exact ⟨subscribers, _, he, ht⟩

theorem resizeCheckpoint_silent (p : TerminalPane) (cols rows lines : Int) (answers : PaneAnswers) :
    ∃ subscribers engine failure, p.resizeCheckpointLocked cols rows lines answers =
      { p with subscribers := subscribers, checkpoint := engine, checkpointFailure := failure } ∧
        Silent p.subscribers subscribers := by
  unfold TerminalPane.resizeCheckpointLocked
  split
  · exact ⟨_, _, _, rfl, .refl _⟩
  · rename_i e he
    obtain ⟨subscribers, failure, hr, hs⟩ := recordCheckpointFailure_silent
      { p with checkpoint := some (e.resize cols rows lines answers.parser) } "resize" p.history.stop p.history.stop
      e.pending.length answers
    exact ⟨subscribers, _, failure, hr, hs⟩

theorem resizeWithPixels_silent (p : TerminalPane) (cols rows pixelWidth pixelHeight : Int) (answers : PaneAnswers) :
    ∃ subscribers engine failure geometry ptyGeometry,
      (p.resizeWithPixelsUnlocked cols rows pixelWidth pixelHeight answers).1 =
        { p with
          subscribers := subscribers, checkpoint := engine, checkpointFailure := failure, geometry := geometry
          ptyGeometry := ptyGeometry } ∧ Silent p.subscribers subscribers := by
  unfold TerminalPane.resizeWithPixelsUnlocked
  split
  · exact ⟨_, _, _, _, _, rfl, .refl _⟩
  · simp only
    generalize normalizeGeometry p.geometry cols rows pixelWidth pixelHeight = g
    split
    · exact ⟨_, _, _, _, _, rfl, .refl _⟩
    · obtain ⟨subscribers, engine, failure, hr, hs⟩ := resizeCheckpoint_silent { p with geometry := g } g.cols g.rows
        (p.historyLimitBytes / averageHistoryBytesPerLine) answers
      rw [hr]
      refine ⟨subscribers, engine, failure, g, ?_⟩
      split
      · exact ⟨_, rfl, hs⟩
      · split
        · exact ⟨_, rfl, hs⟩
        · exact ⟨_, rfl, hs⟩

/-- What an append changes, if the pane still takes output. -/
theorem appendOutput_silent (p : TerminalPane) (filtered : Bytes) (answers : PaneAnswers) :
    p.appendOutput filtered answers = p ∨
    ∃ subscribers engine failure history limit inflight, p.appendOutput filtered answers =
      { p with
        subscribers := subscribers, checkpoint := engine, checkpointFailure := failure, history := history
        historyLimitBytes := limit, out := p.out ++ filtered, inflight := inflight } ∧
          Silent p.subscribers subscribers := by
  unfold TerminalPane.appendOutput
  split
  · exact .inl rfl
  · refine .inr ?_
    simp only [TerminalPane.trimHistoryLocked]
    generalize hq : TerminalPane.recordCheckpointFailureLocked _ _ _ _ _ _ = q
    obtain ⟨subscribers, failure, hr, hs⟩ := recordCheckpointFailure_silent _ "write" _ _ _ answers
    rw [hr] at hq
    subst hq
    exact ⟨subscribers, _, failure, _, _, _, rfl, hs⟩

/-- A snapshot carries the size of the pane. -/
theorem attachHistory_size {p : TerminalPane} {request : HistorySyncRequest} {answers : PaneAnswers}
    {history : PaneHistorySnapshot} (h : p.attachHistory request answers = .ok history) :
    history.size = p.geometry.size := by
  have hfull : ∀ {history}, p.checkpointHistory request answers = .ok history → history.size = p.geometry.size := by
    intro history h
    unfold TerminalPane.checkpointHistory at h
    simp only at h
    split at h
    · cases h; rfl
    · split at h
      · split at h
        · cases h
        · cases h; rfl
        · cases h; rfl
      · cases h; rfl
  unfold TerminalPane.attachHistory at h
  split at h
  · cases h
  · rename_i hc
    split at h
    · cases h; rfl
    · cases h; exact hfull hc

/-- An attach adds a client with the pane's size, or changes nothing that clients see. -/
theorem attachClient_cases (p : TerminalPane) (request : HistorySyncRequest) (answers : PaneAnswers) :
    (∃ generation, (p.attachClient request answers).1 = { p with historyGeneration := generation }) ∨
    ∃ generation history, history.size = p.geometry.size ∧ (p.attachClient request answers).1 =
      { p with
        historyGeneration := generation, hasAttached := true
        subscribers := p.subscribers ++ [{ client := .new, snapshot := history }]
        clients := p.clients ++ [p.subscribers.length] } := by
  unfold TerminalPane.attachClient
  split
  · exact .inl ⟨_, rfl⟩
  · split
    · exact .inl ⟨_, rfl⟩
    · rename_i generation _
      simp only
      cases ha : TerminalPane.attachHistory { p with historyGeneration := generation } request answers with
      | error err => exact .inl ⟨generation, rfl⟩
      | ok history =>
        have hsize := attachHistory_size ha
        exact .inr ⟨generation, history, hsize, rfl⟩

/-! ## The steps together are the resize -/

theorem run_tellResize (answers : PaneAnswers) (epoch : Nat) (geometry : Geometry) (sizes : List Size) :
    ∀ (clients : List Nat) (p : TerminalPane),
      tracedMachine.run ⟨p, some (.telling epoch geometry clients), sizes⟩
        ((clients.map fun c => TracedEvent.tellResize c answers) ++ [.unlockResize]) =
          some ⟨p.enqueueText answers (.resizeApplied epoch geometry) false clients, none, sizes⟩
  | [], p => rfl
  | c :: clients, p => by
    have hstep : tracedMachine.step ⟨p, some (.telling epoch geometry (c :: clients)), sizes⟩ (.tellResize c answers) =
        some ⟨p.enqueueText answers (.resizeApplied epoch geometry) false [c], some (.telling epoch geometry clients),
          sizes⟩ := by
      simp only [tracedMachine, TracedPane.tellResize, List.mem_cons, true_or, if_true, List.erase_cons_head]
    rw [List.map_cons, List.cons_append, Machine.run_cons_of_step _ _ hstep]
    exact run_tellResize answers epoch geometry sizes clients _

/-- With nothing in between, the steps of a resize are `applyResize`. -/
theorem run_applyResize {p : TerminalPane} {message : TerminalControlMessage} {source : Nat} {answers : PaneAnswers}
    (hs : source ∈ p.clients) (hf : p.inflight = []) {applied : Nat × Geometry}
    (ha : (p.applyResize message source answers).applied = some applied) (sizes : List Size) :
    tracedMachine.run ⟨p, none, sizes⟩ (.storeResize message source answers :: .recordResize ::
      ((p.clients.map fun c => TracedEvent.tellResize c answers) ++ [.unlockResize])) =
        some ⟨(p.applyResize message source answers).pane, none, sizes⟩ := by
  unfold TerminalPane.applyResize at ha ⊢
  split at ha
  · split at ha
    · cases ha
    · split at ha
      · unfold TerminalPane.resizeAndOwn at ha
        split at ha <;> cases ha
      · cases ha
  · rename_i epoch hepoch
    simp only at ha ⊢
    generalize hg : normalizeGeometry p.geometry message.Cols message.Rows message.PixelWidth message.PixelHeight = g
      at ha ⊢
    split at ha
    · cases ha
    · split at ha
      · cases ha
      · split at ha
        · cases ha
        · rename_i hlt hconf hown
          cases hr : p.resizeWithPixelsUnlocked g.cols g.rows g.pixelWidth g.pixelHeight answers with
          | mk p' err =>
            rw [hr] at ha
            cases err with
            | some err => cases ha
            | none =>
              have hstore : p.storeResize message source answers = some (epoch, p') := by
                unfold TerminalPane.storeResize
                rw [hepoch]
                simp only [hg, hr]
                rw [if_neg hlt, if_neg hconf, if_neg hown]
              have hclients : p'.clients = p.clients := by
                obtain ⟨_, _, _, _, _, he, -⟩ :=
                  resizeWithPixels_silent p g.cols g.rows g.pixelWidth g.pixelHeight answers
                rw [hr] at he
                exact (congrArg TerminalPane.clients he :)
              have hstep : tracedMachine.step ⟨p, none, sizes⟩ (.storeResize message source answers) =
                  some ⟨p', some (.stored epoch source), sizes⟩ := by
                simp only [tracedMachine, TracedPane.storeResize]
                rw [if_pos ⟨trivial, hf, hs⟩, hstore]
                rfl
              rw [Machine.run_cons_of_step _ _ hstep, Machine.run_cons_of_step _ _ rfl, ← hclients,
                if_neg hlt, if_neg hconf, if_neg hown]
              exact run_tellResize answers epoch p'.geometry sizes p'.clients _

/-! ## The invariant -/

/-- A resize has nothing more to tell the client. -/
def Informed (resizing : Option ResizePhase) (client : Nat) : Prop :=
  match resizing with
  | none => True
  | some (.stored ..) => False
  | some (.telling _ _ clients) => client ∉ clients

/-- How far into the output a client has been sent. -/
def Subscriber.upto (s : Subscriber) : Nat := s.snapshot.deltaTo + s.client.binary.length

structure Walked (sizes : List Size) (size : Size) (informed : Prop) (s : Subscriber) : Prop where
  walked : walk s.snapshot.size s.client.accepted = slice sizes s.snapshot.deltaTo s.upto
  current : s.client.done = false → informed → sizeAfter s.snapshot.size s.client.accepted = size
  /-- All that it misses was appended at the current size. -/
  ahead : s.client.done = false → ∀ x ∈ sizes.drop s.upto, x = size

structure TracedInv (m : TracedPane) : Prop where
  pane : PaneInv m.pane
  length : m.sizes.length = m.pane.out.length
  attached : ∀ c < m.pane.subscribers.length, c ∈ m.pane.clients
  locked : m.resizing ≠ none → m.pane.inflight = []
  telling : ∀ epoch geometry clients, m.resizing = some (.telling epoch geometry clients) →
    geometry = m.pane.geometry ∧ ∀ c ∈ clients, c < m.pane.subscribers.length
  each : ∀ c s, m.pane.subscribers[c]? = some s → Walked m.sizes m.pane.geometry.size (Informed m.resizing c) s

theorem Received.upto_eq {out : Bytes} {attached : Prop} {flight : Bytes} {s : Subscriber} {upto : Nat}
    (h : Received out attached flight s upto) : s.upto = upto := by
  have hlen := congrArg List.length h.live
  rw [length_slice h.upto_le] at hlen
  have := h.to_le
  unfold Subscriber.upto
  omega

theorem PaneInv.received {p : TerminalPane} (h : PaneInv p) {c : Nat} {s : Subscriber} (hs : p.subscribers[c]? = some s) :
    Received p.out (c ∈ p.clients) (flightFor c p.inflight) s s.upto := by
  obtain ⟨upto, hr⟩ := h.each c s hs
  rw [hr.upto_eq]
  exact hr

namespace Walked

variable {sizes : List Size} {size : Size} {informed informed' : Prop} {s s' : Subscriber}

theorem silent (h : Walked sizes size informed s) (hs : SilentTo s s') (hi : informed' → informed) :
    Walked sizes size informed' s' := by
  have hu : s'.upto = s.upto := by unfold Subscriber.upto; rw [hs.snapshot, hs.binary]
  refine ⟨?_, ?_, ?_⟩
  · rw [hs.walked, hs.snapshot, hu]
    exact h.walked
  · intro ho hinf
    rw [hs.after ho, hs.snapshot]
    exact h.current (hs.open_ ho) (hi hinf)
  · intro ho
    rw [hu]
    exact h.ahead (hs.open_ ho)

/-- Output at the client's size. -/
theorem grow (h : Walked sizes size informed s) (hu : s.upto ≤ sizes.length) (n : Nat) :
    Walked (sizes ++ List.replicate n size) size informed s where
  walked := h.walked.trans (slice_append hu ..).symm
  current := h.current
  ahead := by
    intro ho x hx
    rw [List.drop_append_of_le_length hu] at hx
    rcases List.mem_append.mp hx with hx | hx
    · exact h.ahead ho x hx
    · exact List.eq_of_mem_replicate hx

/-- A chunk in flight reaches the client. -/
theorem chunk (h : Walked sizes size informed s) (hi : informed) (data : Bytes)
    (hu : s.client.done = false → s.upto + data.length ≤ sizes.length) :
    Walked sizes size informed { s with client := (s.client.enqueue ⟨.binary data, false⟩).1 } := by
  obtain ⟨hb, hrej, hacc⟩ := s.client.enqueue_binary ⟨.binary data, false⟩
  rcases s.client.enqueue_walk ⟨.binary data, false⟩ s.snapshot.size with ⟨-, ha, hd⟩ | ⟨hok, hw, hz⟩
  · have hupto : Subscriber.upto { s with client := (s.client.enqueue ⟨.binary data, false⟩).1 } = s.upto := by
      unfold Subscriber.upto PaneClient.binary
      rw [ha]
    refine ⟨?_, fun hf => ?_, fun hf => ?_⟩
    · rw [hupto, ha]
      exact h.walked
    · rw [hd] at hf; cases hf
    · rw [hd] at hf; cases hf
  · have ho := (hacc hok).1
    have hupto : Subscriber.upto { s with client := (s.client.enqueue ⟨.binary data, false⟩).1 } =
        s.upto + data.length := by
      rw [hok, if_pos rfl] at hb
      unfold Subscriber.upto
      rw [hb, List.length_append, ← Nat.add_assoc]
      rfl
    have hcur := h.current ho hi
    refine ⟨?_, fun _ _ => ?_, fun _ x hx => ?_⟩
    · rw [hupto]
      have hs := slice_replicate (Nat.le_add_right s.snapshot.deltaTo s.client.binary.length) (hu ho) (h.ahead ho)
      rw [walk_append, hcur] at hw
      refine hw.trans ?_
      rw [h.walked]
      simp only [walk, List.append_nil]
      exact hs.symm
    · rw [sizeAfter_append, hcur] at hz
      exact hz
    · rw [hupto, ← List.drop_drop] at hx
      exact h.ahead ho x (List.mem_of_mem_drop hx)

/-- The client is told the new size. -/
theorem told (h : Walked sizes size informed s) {epoch : Nat} {geometry : Geometry} (hg : geometry.size = size) (n : Nat) :
    Walked sizes size informed' { s with client := (s.client.enqueue ⟨.text (.resizeApplied epoch geometry) n, false⟩).1 } := by
  have hupto : Subscriber.upto
      { s with client := (s.client.enqueue ⟨.text (.resizeApplied epoch geometry) n, false⟩).1 } = s.upto := by
    unfold Subscriber.upto
    rw [PaneClient.enqueue_text_binary]
  have hw := s.client.enqueue_walk ⟨.text (.resizeApplied epoch geometry) n, false⟩ s.snapshot.size
  refine ⟨?_, fun ho _ => ?_, fun ho => ?_⟩
  · rw [hupto, ← h.walked]
    rcases hw with ⟨-, ha, -⟩ | ⟨-, hw, -⟩
    · exact congrArg (walk _) ha
    · rw [walk_append] at hw
      exact hw.trans (List.append_nil _)
  · rcases hw with ⟨-, -, hd⟩ | ⟨-, -, hz⟩
    · exact absurd ho (by rw [hd]; decide)
    · rw [sizeAfter_append] at hz
      exact hz.trans hg
  · rw [hupto]
    exact h.ahead (PaneClient.enqueue_open ho).1

end Walked

theorem TracedPane.grow_same (m : TracedPane) {p' : TerminalPane} (ho : p'.out = m.pane.out) :
    m.grow p' = { m with pane := p' } := by
  unfold grow
  rw [ho, Nat.sub_self, List.replicate_zero, List.append_nil]

namespace TracedInv

variable {m m' : TracedPane} {p' : TerminalPane}

/-- Clients told nothing about bytes or sizes. -/
theorem silent (h : TracedInv m) (hp : PaneInv p') (hc : p'.clients = m.pane.clients)
    (hf : p'.inflight = m.pane.inflight) (ho : p'.out = m.pane.out) (hg : p'.geometry = m.pane.geometry)
    (hs : Silent m.pane.subscribers p'.subscribers) : TracedInv { m with pane := p' } where
  pane := hp
  length := by rw [ho]; exact h.length
  attached := by rw [hs.length, hc]; exact h.attached
  locked := by rw [hf]; exact h.locked
  telling := by rw [hg, hs.length]; exact h.telling
  each := by
    intro c s' hs'
    obtain ⟨s, hb, ht⟩ := hs.same c s' hs'
    rw [hg]
    exact (h.each c s hb).silent ht fun hi => hi

theorem attach (h : TracedInv m) (request : HistorySyncRequest) (answers : PaneAnswers) :
    TracedInv (m.grow (m.pane.attachClient request answers).1) := by
  have hp := h.pane.attachClient request answers
  rcases attachClient_cases m.pane request answers with ⟨generation, he⟩ | ⟨generation, history, hsize, he⟩
  · rw [m.grow_same (by rw [he])]
    rw [he] at hp ⊢
    exact h.silent hp rfl rfl rfl rfl (.refl _)
  · rw [m.grow_same (by rw [he])]
    rw [he] at hp ⊢
    refine ⟨hp, h.length, ?_, h.locked, ?_, ?_⟩
    · intro c hc
      simp only [List.length_append, List.length_singleton] at hc
      rcases Nat.lt_or_ge c m.pane.subscribers.length with hlt | hge
      · exact List.mem_append_left _ (h.attached c hlt)
      · have hceq : c = m.pane.subscribers.length := by omega
        exact List.mem_append_right _ (List.mem_singleton.mpr hceq)
    · intro epoch geometry clients hr
      obtain ⟨hg, hk⟩ := h.telling epoch geometry clients hr
      refine ⟨hg, fun c hc => ?_⟩
      have := hk c hc
      simp only [List.length_append, List.length_singleton]
      omega
    · intro c s hs
      have hr := hp.received hs
      simp only at hs hr ⊢
      rcases Nat.lt_or_ge c m.pane.subscribers.length with hlt | hge
      · rw [List.getElem?_append_left hlt] at hs
        exact h.each c s hs
      · have hlt := (List.getElem?_eq_some_iff.mp hs).1
        rw [List.length_append, List.length_singleton] at hlt
        have hceq : c = m.pane.subscribers.length := by omega
        subst hceq
        rw [List.getElem?_append_right (Nat.le_refl _), Nat.sub_self] at hs
        cases hs
        refine ⟨(slice_self ..).symm, fun _ _ => hsize, fun _ x hx => ?_⟩
        -- the snapshot reaches to the end
        have hmiss := hr.missing rfl (List.mem_append_right _ (List.mem_singleton_self _))
        rw [h.pane.flightFor_new, List.drop_eq_nil_iff, ← h.length, ← List.drop_eq_nil_iff] at hmiss
        rw [hmiss] at hx
        cases hx

theorem output (h : TracedInv m) (hr : m.resizing = none) (hf : m.pane.inflight = []) (filtered : Bytes)
    (answers : PaneAnswers) : TracedInv (m.grow (m.pane.appendOutput filtered answers)) := by
  have hp := h.pane.appendOutput hf filtered answers
  rcases appendOutput_silent m.pane filtered answers with he | ⟨subscribers, engine, failure, history, limit, inflight, he, hs⟩
  · rw [m.grow_same (by rw [he]), he]
    exact h
  · rw [he] at hp ⊢
    have hgrow : TracedInv (m.grow _) := {
      pane := hp
      length := by
        simp only [TracedPane.grow, List.length_append, List.length_replicate, h.length]
        omega
      attached := by
        intro c hc
        simp only [TracedPane.grow] at hc
        rw [hs.length] at hc
        exact h.attached c hc
      locked := fun hn => absurd hr hn
      telling := by
        intro epoch geometry clients ht
        have ht : m.resizing = some (.telling epoch geometry clients) := ht
        rw [hr] at ht; cases ht
      each := by
        intro c s' hs'
        obtain ⟨s, hb, ht⟩ := hs.same c s' hs'
        have hu : s.upto ≤ m.sizes.length := by
          rw [h.length]
          exact (h.pane.received hb).upto_le
        exact ((h.each c s hb).silent ht fun hi => hi).grow (by
          unfold Subscriber.upto
          rw [ht.snapshot, ht.binary]
          exact hu) _ }
    exact hgrow

theorem deliver (h : TracedInv m) {client : Nat} (hd : m.pane.deliver client = some p') : TracedInv (m.grow p') := by
  have hp := h.pane.deliver hd
  unfold TerminalPane.deliver at hd
  split at hd
  · cases hd
  · rename_i chunk rest ht
    have ho : p'.out = m.pane.out := by cases hd; rfl
    rw [m.grow_same ho]
    cases hd
    obtain ⟨hown, -, -, f, hf, -⟩ := takeFlight_spec ht
    have hr : m.resizing = none := by
      by_contra hn
      rw [h.locked hn] at hf
      cases hf
    refine ⟨hp, h.length, ?_, fun hn => absurd hr hn, ?_, ?_⟩
    · intro c hc
      simp only [TerminalPane.enqueueTo, TerminalPane.modifyClient, List.length_modify] at hc
      exact h.attached c hc
    · intro epoch geometry clients ht
      have ht : m.resizing = some (.telling epoch geometry clients) := ht
      rw [hr] at ht; cases ht
    · intro c s' hs'
      simp only [TerminalPane.enqueueTo, TerminalPane.modifyClient, List.getElem?_modify] at hs' ⊢
      obtain ⟨s, hs, rfl⟩ := Option.map_eq_some_iff.mp hs'
      have hw := h.each c s hs
      split
      · rename_i hc
        subst hc
        refine hw.chunk (by rw [hr]; trivial) chunk fun ho => ?_
        have hrec := h.pane.received hs
        have hfly := (hrec.flying ho).length_le
        rw [hown, List.length_append, List.length_drop] at hfly
        have := hrec.upto_le
        rw [h.length]
        omega
      · exact hw

/-- A new size is stored: no client knows of it yet, and none misses a byte. -/
theorem stored (h : TracedInv m) (hf : m.pane.inflight = []) (hp : PaneInv p') (hc : p'.clients = m.pane.clients)
    (hi : p'.inflight = m.pane.inflight) (ho : p'.out = m.pane.out) (hs : Silent m.pane.subscribers p'.subscribers)
    {epoch source : Nat} : TracedInv { m with pane := p', resizing := some (.stored epoch source) } where
  pane := hp
  length := by rw [ho]; exact h.length
  attached := by rw [hs.length, hc]; exact h.attached
  locked := fun _ => hi.trans hf
  telling := fun _ _ _ ht => by cases ht
  each := by
    intro c s' hs'
    obtain ⟨s, hb, ht⟩ := hs.same c s' hs'
    have hw := (h.each c s hb).silent ht fun hi : False => hi.elim
    refine ⟨hw.walked, fun _ hi => hi.elim, fun hopen x hx => ?_⟩
    have hmiss := (hp.received hs').missing hopen (by rw [hc]; exact h.attached c (List.getElem?_eq_some_iff.mp hb).1)
    rw [hi, hf, ho] at hmiss
    have hend := List.drop_eq_nil_iff.mp hmiss
    rw [← h.length] at hend
    rw [List.drop_of_length_le hend] at hx
    cases hx

theorem storeResize (h : TracedInv m) {message : TerminalControlMessage} {source : Nat} {answers : PaneAnswers}
    (hs : m.storeResize message source answers = some m') : TracedInv m' := by
  unfold TracedPane.storeResize at hs
  split at hs
  · rename_i hfree
    obtain ⟨hr, hf, -⟩ := hfree
    obtain ⟨⟨epoch, p'⟩, hst, rfl⟩ := Option.map_eq_some_iff.mp hs
    unfold TerminalPane.storeResize at hst
    split at hst
    · cases hst
    · simp only at hst
      generalize normalizeGeometry m.pane.geometry message.Cols message.Rows message.PixelWidth message.PixelHeight = g at hst
      split at hst
      · cases hst
      · split at hst
        · cases hst
        · split at hst
          · cases hst
          · split at hst
            · cases hst
            · rename_i hres
              cases hst
              have hp := h.pane.resizeWithPixels g.cols g.rows g.pixelWidth g.pixelHeight answers
              obtain ⟨subscribers, engine, failure, geometry, ptyGeometry, he, hq⟩ :=
                resizeWithPixels_silent m.pane g.cols g.rows g.pixelWidth g.pixelHeight answers
              rw [hres] at hp he
              simp only at hp he
              subst he
              exact h.stored hf hp rfl rfl rfl hq
  · cases hs

theorem recordResize (h : TracedInv m) (hs : m.recordResize = some m') : TracedInv m' := by
  unfold TracedPane.recordResize at hs
  split at hs
  · rename_i epoch source hr
    cases hs
    refine ⟨h.pane.frame rfl rfl rfl rfl rfl rfl, h.length, h.attached, ?_, ?_, ?_⟩
    · exact fun _ => h.locked (by rw [hr]; simp)
    · intro epoch' geometry clients ht
      cases ht
      exact ⟨rfl, h.pane.known⟩
    · intro c s hs
      have hw := h.each c s hs
      -- every client is still to be told
      refine ⟨hw.walked, fun _ hi => ?_, hw.ahead⟩
      exact absurd (h.attached c (List.getElem?_eq_some_iff.mp hs).1) hi
  · cases hs

theorem tellResize (h : TracedInv m) {client : Nat} {answers : PaneAnswers}
    (hs : m.tellResize client answers = some m') : TracedInv m' := by
  unfold TracedPane.tellResize at hs
  split at hs
  · rename_i epoch geometry clients hr
    obtain ⟨hg, hk⟩ := h.telling epoch geometry clients hr
    split at hs
    · cases hs
      have hp := h.pane.enqueueText answers (.resizeApplied epoch geometry) false [client]
      refine ⟨hp, h.length, ?_, ?_, ?_, ?_⟩
      · intro c hc
        simp only [TerminalPane.enqueueText, List.foldl, TerminalPane.enqueueTo, TerminalPane.modifyClient,
          List.length_modify] at hc
        exact h.attached c hc
      · exact fun _ => h.locked (by rw [hr]; simp)
      · intro epoch' geometry' clients' ht
        cases ht
        refine ⟨hg, fun c hc => ?_⟩
        simp only [TerminalPane.enqueueText, List.foldl, TerminalPane.enqueueTo, TerminalPane.modifyClient,
          List.length_modify]
        exact hk c (List.mem_of_mem_erase hc)
      · intro c s' hs'
        simp only [TerminalPane.enqueueText, List.foldl, TerminalPane.enqueueTo, TerminalPane.modifyClient,
          List.getElem?_modify] at hs' ⊢
        obtain ⟨s, hs, rfl⟩ := Option.map_eq_some_iff.mp hs'
        have hw := h.each c s hs
        rw [hr] at hw
        split
        · exact hw.told (congrArg Geometry.size hg) _
        · rename_i hc
          refine ⟨hw.walked, fun ho hi => hw.current ho fun hmem => hi ?_, hw.ahead⟩
          exact (List.mem_erase_of_ne (Ne.symm hc)).mpr hmem
    · cases hs
  · cases hs

theorem unlockResize (h : TracedInv m) (hs : m.unlockResize = some m') : TracedInv m' := by
  unfold TracedPane.unlockResize at hs
  split at hs
  · rename_i epoch geometry hr
    cases hs
    refine ⟨h.pane, h.length, h.attached, fun hn => absurd rfl hn, ?_, fun c s hs => ?_⟩
    · intro epoch' geometry' clients ht
      cases ht
    · have hw := h.each c s hs
      rw [hr] at hw
      exact ⟨hw.walked, fun ho _ => hw.current ho List.not_mem_nil, hw.ahead⟩
  · cases hs

/-- The client's writer takes a message, or reports one written. -/
theorem writer (h : TracedInv m) (client : Nat) (f : PaneClient → PaneClient)
    (hf : ∀ s, m.pane.subscribers[client]? = some s →
      (f s.client).accepted = s.client.accepted ∧ (f s.client).done = s.client.done) :
    TracedInv (m.grow (m.pane.modifyClient client f)) := by
  have ho : (m.pane.modifyClient client f).out = m.pane.out := rfl
  rw [m.grow_same ho]
  refine h.silent (h.pane.modifyClient client fun s hs => ?_) rfl rfl rfl rfl ?_
  · obtain ⟨ha, hd⟩ := hf s hs
    exact ⟨congrArg (List.flatMap PaneOutbound.bytes) ha, fun hc => by rw [← hd]; exact hc⟩
  · refine silent_modify m.pane.subscribers client f fun s hs => ?_
    obtain ⟨ha, hd⟩ := hf s hs
    exact silentTo_accepted ha hd

theorem step (h : TracedInv m) {e : TracedEvent} (hs : tracedMachine.step m e = some m') : TracedInv m' := by
  cases e with
  | attach request answers => cases hs; exact h.attach request answers
  | output filtered answers =>
    simp only [tracedMachine, TracedPane.pass, paneMachine] at hs
    split at hs
    · rename_i hr
      split at hs
      · cases hs
        rw [m.grow_same rfl]
        exact h
      · split at hs
        · rename_i hf
          cases hs; exact h.output hr hf filtered answers
        · cases hs
    · cases hs
  | deliver client =>
    obtain ⟨p', hd, rfl⟩ := Option.map_eq_some_iff.mp hs
    exact h.deliver hd
  | storeResize message source answers => exact h.storeResize hs
  | recordResize => exact h.recordResize hs
  | tellResize client answers => exact h.tellResize hs
  | unlockResize => exact h.unlockResize hs
  | receive client =>
    obtain ⟨p', hd, rfl⟩ := Option.map_eq_some_iff.mp hs
    simp only [paneMachine] at hd
    split at hd
    · cases hd
    · rename_i s hsub
      obtain ⟨c, hc, rfl⟩ := Option.map_eq_some_iff.mp hd
      refine h.writer client _ fun s' hs' => ?_
      rw [hsub] at hs'; cases hs'
      exact PaneClient.receive_accepted hc
  | dequeued client size =>
    cases hs
    exact h.writer client _ fun s _ => s.client.dequeued_accepted size

theorem start (generation : String) (cols rows limit : Int) (localPTY : Bool) :
    TracedInv (.start generation cols rows limit localPTY) where
  pane := .start ..
  length := rfl
  attached := fun c hc => by cases hc
  locked := fun hn => absurd rfl hn
  telling := fun _ _ _ ht => by cases ht
  each := fun c s hs => by cases hs

end TracedInv

/-- The client's binary messages are the output from its snapshot on, and reading on from the
snapshot's size it has each byte at the size the pane had at that byte's append. -/
structure SizesAgree (m : TracedPane) (s : Subscriber) : Prop where
  bytes : s.client.binary = slice m.pane.out s.snapshot.deltaTo s.upto
  sizes : walk s.snapshot.size s.client.accepted = slice m.sizes s.snapshot.deltaTo s.upto
  within : s.upto ≤ m.pane.out.length
  length : m.sizes.length = m.pane.out.length

theorem sizes_agree {generation : String} {cols rows limit : Int} {localPTY : Bool} {es : List TracedEvent}
    {m : TracedPane} (h : tracedMachine.run (.start generation cols rows limit localPTY) es = some m) {c : Nat}
    {s : Subscriber} (hs : m.pane.subscribers[c]? = some s) : SizesAgree m s := by
  have hi := tracedMachine.run_inv (fun m e m' hi hs => hi.step hs) h (TracedInv.start ..)
  have hr := hi.pane.received hs
  exact ⟨hr.live, (hi.each c s hs).walked, hr.upto_le, hi.length⟩

/-- Clients attach before, in the middle of and after a resize between two pieces of output. -/
def attachAroundResize : List TracedEvent :=
  [.attach {} {}, .output [0x61, 0x62] {}, .deliver 0,
    .storeResize { type := .resize, Cols := 100, Rows := 30, ResizeEpoch := "1" } 0 {}, .attach {} {}, .recordResize,
    .attach {} {}, .tellResize 1 {}, .tellResize 0 {}, .unlockResize, .output [0x63] {}, .deliver 0, .deliver 2, .deliver 1]

theorem sizes_agree_attachAroundResize : ∃ m,
    tracedMachine.run (.start "g" 80 24 0 true) attachAroundResize = some m ∧
      (m.pane.subscribers.map fun s => walk s.snapshot.size s.client.accepted) =
        [[(80, 24), (80, 24), (100, 30)], [(100, 30)], [(100, 30)]] ∧ ∀ s ∈ m.pane.subscribers, SizesAgree m s := by
  have h : (tracedMachine.run (.start "g" 80 24 0 true) attachAroundResize).map
      (fun m => m.pane.subscribers.map fun s => walk s.snapshot.size s.client.accepted) =
        some [[(80, 24), (80, 24), (100, 30)], [(100, 30)], [(100, 30)]] := by decide +kernel
  obtain ⟨m, hm, hw⟩ := Option.map_eq_some_iff.mp h
  refine ⟨m, hm, hw, fun s hs => ?_⟩
  obtain ⟨c, hc⟩ := List.getElem?_of_mem hs
  exact sizes_agree hm hc

end Webshell
