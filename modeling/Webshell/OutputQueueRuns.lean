import Webshell.Logs
import Webshell.OutputQueue
import Mathlib.Algebra.GroupWithZero.Nat

/-!
# What a queue hands to the terminal

A log of what is accepted, handed over and confirmed. Since the queue was last
emptied, what was accepted is what was confirmed and then what is still queued.
-/

namespace Webshell

open OutputState (outputPieces)

inductive OutputMark
  | accepted (entry : QueuedEntry)
  | passed (batch : PassedBatch)
  | confirmed (batch : PassedBatch)
  /-- A turn throws the queue away. -/
  | emptied
  | discarded

structure OutputRun where
  state : OutputState
  log : List OutputMark := []

/-- The batch that a turn waits for. -/
def DrainStage.batch : DrainStage → Option PassedBatch
  | .awaiting batch => some batch
  | .returned batch _ => some batch
  | _ => none

def OutputState.flight (s : OutputState) : Option PassedBatch := s.inFlight.bind fun t => t.stage.batch

/-- What an event does, from the states before and after it. -/
def outputMarks (s s' : OutputState) : OutputEvent → List OutputMark
  | .write .. => (s'.outputQueue.drop s.outputQueue.length).map .accepted
  | .flush .. => if s'.outputQueue = s.outputQueue then [] else [.emptied]
  | .round _ => s'.flight.toList.map .passed
  | .resumed => s.confirming.toList.map .confirmed
  | .discard | .disposeSession | .dispose =>
    if s'.outputQueueGeneration = s.outputQueueGeneration then [] else [.discarded]
  | _ => []

def outputRunMachine : Machine OutputRun OutputEvent where
  step r e := (r.state.next e).map fun s' => ⟨s', r.log ++ outputMarks r.state s' e⟩

/-- The marks after the last one that resets. -/
def sinceMark (resets : OutputMark → Bool) (log : List OutputMark) : List OutputMark :=
  log.foldl (fun kept mark => if resets mark = true then [] else kept ++ [mark]) []

def OutputMark.isDiscarded : OutputMark → Bool
  | .discarded => true
  | _ => false

def OutputMark.resets : OutputMark → Bool
  | .discarded | .emptied => true
  | _ => false

def OutputMark.acceptedEntry : OutputMark → Option QueuedEntry
  | .accepted entry => some entry
  | _ => none

def OutputMark.confirmedBatch : OutputMark → Option PassedBatch
  | .confirmed batch => some batch
  | _ => none

def acceptedEntries (log : List OutputMark) : List QueuedEntry := log.filterMap OutputMark.acceptedEntry

def confirmedBatches (log : List OutputMark) : List PassedBatch := log.filterMap OutputMark.confirmedBatch

def confirmedEntries (log : List OutputMark) : List QueuedEntry := (confirmedBatches log).flatMap PassedBatch.entries

/-- Code units and bytes. -/
def dataItems : OutputData → List (UInt16 ⊕ UInt8)
  | .text units => units.map .inl
  | .bytes data => data.map .inr

def entryItems (entries : List QueuedEntry) : List (UInt16 ⊕ UInt8) := entries.flatMap fun entry => dataItems entry.data

/-- What an entry of the queue is. -/
structure QueuedEntry.Fits (entry : QueuedEntry) (generation : Nat) : Prop where
  kind : entry.kind = terminalOutputKind entry.data
  byteLength : entry.byteLength = terminalOutputByteLength entry.data
  generation : entry.queueGeneration = generation

/-- A batch is its entries, put together. -/
structure PassedBatch.Joins (batch : PassedBatch) : Prop where
  data : dataItems batch.data = entryItems batch.entries
  byteLength : batch.byteLength = (batch.entries.map QueuedEntry.byteLength).sum
  historyEndCursor : batch.historyEndCursor = batch.entries.getLast?.bind QueuedEntry.historyEndCursor
  generation : batch.queueGeneration = batch.generation

/-! ## Pieces -/

theorem firstCodePoint_append : ∀ units : List UInt16, (firstCodePoint units).1 ++ (firstCodePoint units).2 = units
  | [] => rfl
  | [_] => rfl
  | high :: low :: rest => by
    rw [firstCodePoint]
    split <;> rfl

theorem firstCodePoint_rest {units : List UInt16} (h : units ≠ []) : (firstCodePoint units).2.length < units.length := by
  match units with
  | [] => exact absurd rfl h
  | [_] => exact Nat.one_pos
  | high :: low :: rest =>
    rw [firstCodePoint]
    split
    · simp only [List.length_cons]
      omega
    · exact Nat.lt_succ_self _

theorem utf8ByteLength_pos (text : List UInt16) : 0 < utf8ByteLengthForCodePoint text := by
  unfold utf8ByteLengthForCodePoint
  split
  · split
    · omega
    · split <;> omega
  · omega

theorem measureText_pos {units : List UInt16} (h : units ≠ []) : 0 < measureText units.length units := by
  cases units with
  | nil => exact absurd rfl h
  | cons unit units =>
    have hsome (stop : Nat) : 0 < if stop = 0 then min (unit :: units).length 1 else stop := by
      split
      · rw [List.length_cons]
        omega
      · omega
    have hpos : 0 < measureEnd (unit :: units) := hsome _
    obtain ⟨n, hn⟩ := Nat.exists_eq_succ_of_ne_zero (Nat.ne_of_gt hpos)
    rw [List.length_cons, measureText, if_neg h, hn, List.take_succ_cons, encodedLength]
    have := utf8ByteLength_pos (firstCodePoint (unit :: units.take n)).1
    omega

theorem byteLength_zero {data : OutputData} (h : terminalOutputByteLength data = 0) : dataItems data = [] := by
  cases data with
  | text units =>
    by_cases hne : units = []
    · rw [hne]
      rfl
    · have := measureText_pos hne
      simp only [terminalOutputByteLength] at h
      omega
  | bytes data =>
    rw [List.length_eq_zero_iff.mp h]
    rfl

theorem chunkEnd_gt {data : Bytes} {start maxBytes : Nat} (hs : start < data.length) (hm : 0 < maxBytes) :
    start < terminalOutputByteChunkEnd data start maxBytes := by
  unfold terminalOutputByteChunkEnd
  simp only
  split
  · omega
  · split
    · assumption
    · omega

/-- The pieces are the bytes. -/
theorem byteChunks_flatten {data : Bytes} {maxBytes : Nat} (hm : 0 < maxBytes) : ∀ {fuel offset : Nat},
    data.length ≤ fuel + offset → (byteChunks data maxBytes fuel offset).flatten = data.drop offset
  | 0, offset, hf => by
    rw [byteChunks, List.drop_of_length_le (by omega)]
    rfl
  | fuel + 1, offset, hf => by
    rw [byteChunks]
    split
    · rename_i hlt
      have hgt := chunkEnd_gt hlt hm
      rw [List.flatten_cons, byteChunks_flatten hm (by omega), List.drop_take]
      have hsplit : data.drop (terminalOutputByteChunkEnd data offset maxBytes) =
          (data.drop offset).drop (terminalOutputByteChunkEnd data offset maxBytes - offset) := by
        rw [List.drop_drop]
        congr 1
        omega
      rw [hsplit, List.take_append_drop]
    · rw [List.drop_of_length_le (by omega)]
      rfl

theorem splitText_flatten {maxBytes : Nat} : ∀ {fuel : Nat} {units chunk : List UInt16} {chunkBytes : Nat},
    units.length ≤ fuel → (splitTextFrom maxBytes fuel units chunk chunkBytes).flatten = chunk ++ units
  | 0, units, chunk, _, hf => by
    rw [List.length_eq_zero_iff.mp (Nat.le_zero.mp hf), splitTextFrom]
    split
    · rename_i h
      rw [h]
      rfl
    · rw [List.flatten_singleton, List.append_nil]
  | fuel + 1, units, chunk, chunkBytes, hf => by
    rw [splitTextFrom]
    by_cases hu : units = []
    · rw [if_pos hu, hu]
      split
      · rename_i h
        rw [h]
        rfl
      · rw [List.flatten_singleton, List.append_nil]
    · rw [if_neg hu]
      have hlt := firstCodePoint_rest hu
      have happend := firstCodePoint_append units
      generalize firstCodePoint units = parts at hlt happend ⊢
      obtain ⟨text, rest⟩ := parts
      simp only at hlt happend ⊢
      split
      · rw [List.flatten_cons, splitText_flatten (by omega), happend]
      · rw [splitText_flatten (by omega), List.append_assoc, happend]

theorem flatMap_dataItems_bytes (chunks : List Bytes) :
    (chunks.map OutputData.bytes).flatMap dataItems = dataItems (.bytes chunks.flatten) := by
  rw [List.flatMap_map, List.flatMap_def]
  exact List.map_flatten.symm

theorem flatMap_dataItems_text (chunks : List (List UInt16)) :
    (chunks.map OutputData.text).flatMap dataItems = dataItems (.text chunks.flatten) := by
  rw [List.flatMap_map, List.flatMap_def]
  exact List.map_flatten.symm

theorem outputPieces_items (data : OutputData) {chunkBytes : Nat} (hc : 0 < chunkBytes) :
    (outputPieces data chunkBytes).flatMap dataItems = dataItems data := by
  unfold outputPieces
  cases data with
  | text units =>
    simp only
    split
    · rw [flatMap_dataItems_text, splitTerminalOutputText, splitText_flatten (Nat.le_refl _), List.nil_append]
    · rw [List.flatMap_singleton]
  | bytes data =>
    simp only
    split
    · rw [flatMap_dataItems_bytes, byteChunks_flatten hc (Nat.le_refl _), List.drop_zero]
    · rw [List.flatMap_singleton]

theorem outputPieces_kind (data : OutputData) (chunkBytes : Nat) :
    ∀ piece ∈ outputPieces data chunkBytes, terminalOutputKind piece = terminalOutputKind data := by
  unfold outputPieces
  cases data with
  | text units =>
    simp only
    split
    · intro piece hm
      obtain ⟨chunk, -, rfl⟩ := List.mem_map.mp hm
      rfl
    · exact fun piece hm => congrArg terminalOutputKind (List.mem_singleton.mp hm)
  | bytes data =>
    simp only
    split
    · intro piece hm
      obtain ⟨chunk, -, rfl⟩ := List.mem_map.mp hm
      rfl
    · exact fun piece hm => congrArg terminalOutputKind (List.mem_singleton.mp hm)

/-! ## Writing -/

/-- Entries are put behind the queue. -/
structure Wrote (s s' : OutputState) (entries : List QueuedEntry) : Prop where
  queue : s'.outputQueue = s.outputQueue ++ entries
  size : s'.outputQueueSize = s.outputQueueSize + (entries.map QueuedEntry.byteLength).sum
  generation : s'.outputQueueGeneration = s.outputQueueGeneration
  applied : s'.appliedHistoryCursor = s.appliedHistoryCursor
  inFlight : s'.inFlight = s.inFlight
  fits : ∀ entry ∈ entries, entry.Fits s.outputQueueGeneration

/-- Nothing of the queue changes. -/
structure SameQueue (s s' : OutputState) : Prop where
  queue : s'.outputQueue = s.outputQueue
  size : s'.outputQueueSize = s.outputQueueSize
  generation : s'.outputQueueGeneration = s.outputQueueGeneration
  applied : s'.appliedHistoryCursor = s.appliedHistoryCursor

theorem SameQueue.refl (s : OutputState) : SameQueue s s := ⟨rfl, rfl, rfl, rfl⟩

theorem SameQueue.trans {s t u : OutputState} (h : SameQueue s t) (h' : SameQueue t u) : SameQueue s u :=
  ⟨h'.queue.trans h.queue, h'.size.trans h.size, h'.generation.trans h.generation, h'.applied.trans h.applied⟩

section Writing

variable {s s' : OutputState}

theorem Wrote.none (h : SameQueue s s') (hf : s'.inFlight = s.inFlight) : Wrote s s' [] where
  queue := by rw [h.queue, List.append_nil]
  size := by rw [h.size]; rfl
  generation := h.generation
  applied := h.applied
  inFlight := hf
  fits := fun _ hm => absurd hm List.not_mem_nil

theorem Wrote.trans {t : OutputState} {entries more : List QueuedEntry} (h : Wrote s s' entries) (h' : Wrote s' t more) :
    Wrote s t (entries ++ more) where
  queue := by rw [h'.queue, h.queue, List.append_assoc]
  size := by rw [h'.size, h.size, List.map_append, List.sum_append, Nat.add_assoc]
  generation := h'.generation.trans h.generation
  applied := h'.applied.trans h.applied
  inFlight := h'.inFlight.trans h.inFlight
  fits := by
    intro entry hm
    rcases List.mem_append.mp hm with hm | hm
    · exact h.fits entry hm
    · exact h.generation ▸ h'.fits entry hm

theorem handleOverload_same (s : OutputState) : SameQueue s s.handleOverload ∧ s.handleOverload.inFlight = s.inFlight := by
  unfold OutputState.handleOverload
  split <;> exact ⟨⟨rfl, rfl, rfl, rfl⟩, rfl⟩

theorem getBatch_same (s : OutputState) : SameQueue s s.getBatch.2 ∧ s.getBatch.2.inFlight = s.inFlight := by
  unfold OutputState.getBatch
  split
  · exact ⟨.refl s, rfl⟩
  · split <;> exact ⟨⟨rfl, rfl, rfl, rfl⟩, rfl⟩

/-- What enqueuing answers: whether all went well, with the entries it has put in. -/
theorem enqueueEntry_wrote {flags : EntryFlags} {next next' : Option Int} {data : OutputData} {ok : Bool}
    (hk : flags.kind = terminalOutputKind data) (h : s.enqueueEntry flags next data = (ok, s', next')) :
    ∃ entries, Wrote s s' entries ∧ (ok = true → entryItems entries = dataItems data) := by
  unfold OutputState.enqueueEntry at h
  simp only at h
  split at h
  · rename_i hzero
    cases h
    refine ⟨[], .none (.refl s) rfl, fun _ => ?_⟩
    rw [byteLength_zero hzero]
    rfl
  · split at h
    · cases h
      exact ⟨[], .none (handleOverload_same s).1 (handleOverload_same s).2, nofun⟩
    · cases h
      refine ⟨[_], ⟨rfl, rfl, rfl, rfl, rfl, ?_⟩, fun _ => ?_⟩
      · intro entry hm
        cases List.mem_singleton.mp hm
        exact ⟨hk, rfl, rfl⟩
      · unfold entryItems
        rw [List.flatMap_singleton]

theorem entryItems_append (entries more : List QueuedEntry) :
    entryItems (entries ++ more) = entryItems entries ++ entryItems more := by
  unfold entryItems
  rw [List.flatMap_append]

theorem enqueueEntries_wrote {flags : EntryFlags} {ok : Bool} {pieces : List OutputData} :
    ∀ {s : OutputState} {next next' : Option Int}, (∀ piece ∈ pieces, flags.kind = terminalOutputKind piece) →
    s.enqueueEntries flags next pieces = (ok, s', next') →
    ∃ entries, Wrote s s' entries ∧ (ok = true → entryItems entries = pieces.flatMap dataItems) := by
  induction pieces with
  | nil =>
    intro s next next' _ h
    cases h
    exact ⟨[], .none (.refl _) rfl, fun _ => rfl⟩
  | cons piece pieces ih =>
    intro s next next' hk h
    rw [OutputState.enqueueEntries] at h
    cases he : s.enqueueEntry flags next piece with
    | mk first rest =>
      obtain ⟨mid, next₁⟩ := rest
      obtain ⟨entries, hw, hitems⟩ := enqueueEntry_wrote (hk piece (List.mem_cons_self ..)) he
      rw [he] at h
      cases first with
      | false =>
        cases h
        exact ⟨entries, hw, nofun⟩
      | true =>
        obtain ⟨more, hw', hitems'⟩ := ih (fun piece hm => hk piece (List.mem_cons_of_mem _ hm)) h
        refine ⟨entries ++ more, hw.trans hw', fun hok => ?_⟩
        rw [entryItems_append, hitems rfl, hitems' hok, List.flatMap_cons]

/-- A write puts entries behind the queue; if it is not refused they are what is written. -/
theorem write_wrote {data : Option OutputData} {options : OutputOptions} {resizing : Bool} {result : WriteResult}
    (h : s.write data options resizing = (result, s')) :
    ∃ entries, Wrote s s' entries ∧ (result ≠ .refused → ∃ written, data = some written ∧ entryItems entries = dataItems written) := by
  unfold OutputState.write at h
  split at h
  · cases h
    exact ⟨[], .none (.refl s) rfl, fun hr => absurd rfl hr⟩
  · cases data with
    | none =>
      cases h
      exact ⟨[], .none (.refl s) rfl, fun hr => absurd rfl hr⟩
    | some data =>
      simp only at h
      split at h
      · cases h
        exact ⟨[], .none (handleOverload_same s).1 (handleOverload_same s).2, fun hr => absurd rfl hr⟩
      · obtain ⟨hsame, hflight⟩ := getBatch_same s
        generalize s.getBatch = got at h hsame hflight
        obtain ⟨batch, mid⟩ := got
        simp only at h hsame hflight
        generalize hchunk : min TERMINAL_OUTPUT_WRITE_SLICE_BYTES _ = chunkBytes at h
        have hpos : 0 < chunkBytes := by
          rw [← hchunk]
          split <;> decide
        split at h
        · rename_i t next he
          cases h
          obtain ⟨entries, hw, -⟩ := enqueueEntries_wrote (fun piece hm => (outputPieces_kind data _ piece hm).symm) he
          exact ⟨entries, Wrote.trans (.none hsame hflight) hw, fun hr => absurd rfl hr⟩
        · rename_i t next he
          obtain ⟨entries, hw, hitems⟩ := enqueueEntries_wrote (fun piece hm => (outputPieces_kind data _ piece hm).symm) he
          have hdata : entryItems entries = dataItems data := (hitems rfl).trans (outputPieces_items data hpos)
          have hwrote := Wrote.trans (.none hsame hflight) hw
          split at h
          · cases h
            exact ⟨entries, hwrote, fun _ => ⟨data, rfl, hdata⟩⟩
          · split at h
            · cases h
              have hover := handleOverload_same t
              refine ⟨entries ++ [], hwrote.trans (.none hover.1 hover.2), fun _ => ⟨data, rfl, ?_⟩⟩
              rw [List.append_nil]
              exact hdata
            · cases h
              exact ⟨entries, hwrote, fun _ => ⟨data, rfl, hdata⟩⟩

end Writing

/-! ## Batches -/

theorem text_items {chunks : List OutputData} (hk : ∀ chunk ∈ chunks, terminalOutputKind chunk = .text) :
    dataItems (.text (chunks.flatMap dataUnits)) = chunks.flatMap dataItems := by
  induction chunks with
  | nil => rfl
  | cons chunk chunks ih =>
    have hrest := ih fun c hm => hk c (List.mem_cons_of_mem _ hm)
    have hfirst := hk chunk (List.mem_cons_self ..)
    cases chunk with
    | text units =>
      rw [List.flatMap_cons, List.flatMap_cons, ← hrest]
      exact List.map_append
    | bytes data => cases hfirst

theorem bytes_items {chunks : List OutputData} (hk : ∀ chunk ∈ chunks, terminalOutputKind chunk = .bytes) :
    dataItems (.bytes (chunks.flatMap dataBytes)) = chunks.flatMap dataItems ∧
      (chunks.flatMap dataBytes).length = (chunks.map terminalOutputByteLength).sum := by
  induction chunks with
  | nil => exact ⟨rfl, rfl⟩
  | cons chunk chunks ih =>
    obtain ⟨hitems, hlength⟩ := ih fun c hm => hk c (List.mem_cons_of_mem _ hm)
    have hfirst := hk chunk (List.mem_cons_self ..)
    cases chunk with
    | text units => cases hfirst
    | bytes data =>
      rw [List.flatMap_cons, List.flatMap_cons, ← hitems]
      refine ⟨List.map_append, ?_⟩
      rw [List.length_append, hlength, List.map_cons, List.sum_cons]
      rfl

theorem coalesce_items {chunks : List OutputData} {kind : OutputKind} {byteLength : Nat}
    (hk : ∀ chunk ∈ chunks, terminalOutputKind chunk = kind)
    (hn : byteLength = (chunks.map terminalOutputByteLength).sum) :
    dataItems (coalesceTerminalOutputBatch chunks kind byteLength) = chunks.flatMap dataItems := by
  unfold coalesceTerminalOutputBatch
  split
  · rw [List.flatMap_singleton]
  · exact text_items hk
  · obtain ⟨hitems, hlength⟩ := bytes_items hk
    simp only
    rw [hn, ← hlength, List.take_left' rfl]
    exact hitems

/-- The batch is the front of the queue, and of one kind. -/
theorem collect_takes {t : DrainTurn} {first : QueuedEntry} {elapsedMs : Nat → Nat} {queue : List QueuedEntry} :
    ∀ {batch : CollectedBatch}, (batch.entries = [] → queue.head? = some first) →
    ∃ taken rest, queue = taken ++ rest ∧ (batch.entries = [] → taken ≠ []) ∧ (∀ entry ∈ taken, entry.kind = first.kind) ∧
      (t.collect first elapsedMs batch queue).entries = batch.entries ++ taken ∧
      (t.collect first elapsedMs batch queue).byteLength = batch.byteLength + (taken.map QueuedEntry.byteLength).sum ∧
      (t.collect first elapsedMs batch queue).historyEndCursor =
        (taken.getLast?.map QueuedEntry.historyEndCursor).getD batch.historyEndCursor := by
  induction queue with
  | nil =>
    intro batch hfirst
    refine ⟨[], [], rfl, fun h => ?_, fun _ hm => absurd hm List.not_mem_nil, (List.append_nil _).symm, rfl, rfl⟩
    cases hfirst h
  | cons entry rest ih =>
    intro batch hfirst
    rw [DrainTurn.collect]
    by_cases hcut : batch.entries ≠ [] ∧ t.cutsBefore first batch entry (elapsedMs batch.entries.length) = true
    · rw [if_pos hcut]
      exact ⟨[], entry :: rest, rfl, fun h => absurd h hcut.1, fun _ hm => absurd hm List.not_mem_nil,
        (List.append_nil _).symm, rfl, rfl⟩
    · rw [if_neg hcut]
      have hkind : entry.kind = first.kind := by
        by_cases hempty : batch.entries = []
        · rw [Option.some.inj (hfirst hempty)]
        · have hgoes : t.cutsBefore first batch entry (elapsedMs batch.entries.length) ≠ true := fun h => hcut ⟨hempty, h⟩
          by_contra hne
          apply hgoes
          unfold DrainTurn.cutsBefore
          simp [Ne.symm hne]
      have hmore : batch.entries ++ [entry] ≠ [] := by simp
      obtain ⟨taken, after, hq, -, hkinds, he, hb, hc⟩ := @ih {
        entries := batch.entries ++ [entry], byteLength := batch.byteLength + entry.byteLength
        historyEndCursor := entry.historyEndCursor } fun h => absurd h hmore
      refine ⟨entry :: taken, after, by rw [hq, List.cons_append], fun _ => List.cons_ne_nil _ _, ?_, ?_, ?_, ?_⟩
      · intro e hm
        rcases List.mem_cons.mp hm with rfl | hm
        · exact hkind
        · exact hkinds e hm
      · rw [he, List.append_assoc]
        rfl
      · rw [hb, List.map_cons, List.sum_cons, Nat.add_assoc]
      · rw [hc, List.getLast?_cons]
        cases taken.getLast? <;> rfl

theorem passBatch_same (s : OutputState) (t : DrainTurn) (batch : PassedBatch) :
    SameQueue s (s.passBatch t batch) ∧ (s.passBatch t batch).flight = some batch := by
  unfold OutputState.passBatch
  simp only
  split
  · exact ⟨⟨rfl, rfl, rfl, rfl⟩, rfl⟩
  · split <;> exact ⟨⟨rfl, rfl, rfl, rfl⟩, rfl⟩

/-- What a round does: the turn ends, or the front of the queue is handed over. -/
theorem round_cases {s : OutputState} (hf : ∀ entry ∈ s.outputQueue, entry.Fits s.outputQueueGeneration) (t : DrainTurn)
    (answers : RoundAnswers) : SameQueue s (s.round t answers) ∧ ((s.round t answers).flight = none ∨
      ∃ batch rest, (s.round t answers).flight = some batch ∧ batch.Joins ∧ batch.pending = none ∧
        batch.generation = s.outputQueueGeneration ∧ s.outputQueue = batch.entries ++ rest) := by
  have hends (t : DrainTurn) : SameQueue s { s with inFlight := some { t with stage := .ended } } := ⟨rfl, rfl, rfl, rfl⟩
  unfold OutputState.round
  split
  · exact ⟨hends t, .inl rfl⟩
  · rename_i first queue hq
    simp only
    split
    · exact ⟨hends t, .inl rfl⟩
    · obtain ⟨taken, rest, htaken, hne, hkinds, he, hb, hc⟩ := @collect_takes t first answers.entryElapsedMs
        (first :: queue) { historyEndCursor := first.historyEndCursor } fun _ => rfl
      rw [← hq] at he hb hc htaken
      generalize t.collect first answers.entryElapsedMs { historyEndCursor := first.historyEndCursor } s.outputQueue = batch
        at he hb hc ⊢
      rw [htaken] at hf
      have hfits : ∀ entry ∈ batch.entries, entry.Fits s.outputQueueGeneration := by
        intro entry hm
        rw [he] at hm
        exact hf entry (List.mem_append_left _ hm)
      have hkind : ∀ chunk ∈ batch.entries.map QueuedEntry.data, terminalOutputKind chunk = first.kind := by
        intro chunk hm
        obtain ⟨entry, hentry, rfl⟩ := List.mem_map.mp hm
        rw [← (hfits entry hentry).kind]
        rw [he] at hentry
        exact hkinds entry hentry
      have hlengths : batch.entries.map QueuedEntry.byteLength =
          (batch.entries.map QueuedEntry.data).map terminalOutputByteLength := by
        rw [List.map_map]
        exact List.map_congr_left fun entry hm => (hfits entry hm).byteLength
      have hbytes : batch.byteLength = (batch.entries.map QueuedEntry.byteLength).sum := by
        rw [hb, he]
        exact Nat.zero_add _
      have hlast : batch.historyEndCursor = batch.entries.getLast?.bind QueuedEntry.historyEndCursor := by
        rw [hc, he, List.nil_append]
        cases hl : taken.getLast? with
        | none => exact absurd (List.getLast?_eq_none_iff.mp hl) (hne rfl)
        | some last => rfl
      have hgeneration : first.queueGeneration = s.outputQueueGeneration := by
        cases taken with
        | nil => exact absurd rfl (hne rfl)
        | cons entry taken =>
          obtain ⟨rfl, -⟩ := List.cons.inj (hq.symm.trans htaken)
          exact (hf first (List.mem_cons_self ..)).generation
      refine ⟨(passBatch_same ..).1, .inr ⟨_, rest, (passBatch_same ..).2, ⟨?_, hbytes, hlast, hgeneration⟩, rfl, rfl, ?_⟩⟩
      · rw [coalesce_items hkind (hbytes.trans (congrArg List.sum hlengths)), List.flatMap_map]
        rfl
      · rw [htaken, he]
        rfl

/-! ## The invariant -/

/-- The end cursors of the batches that were confirmed and had one. -/
def confirmedCursors (log : List OutputMark) : List Int :=
  (confirmedBatches log).filterMap PassedBatch.historyEndCursor

/-- The marks of this queue. -/
def liveMarks (log : List OutputMark) : List OutputMark := sinceMark OutputMark.resets log

theorem sinceMark_append (resets : OutputMark → Bool) (log marks : List OutputMark)
    (h : ∀ mark ∈ marks, resets mark = false) : sinceMark resets (log ++ marks) = sinceMark resets log ++ marks := by
  unfold sinceMark
  rw [List.foldl_append]
  generalize log.foldl _ [] = kept
  induction marks generalizing kept with
  | nil => rw [List.append_nil]; rfl
  | cons mark marks ih =>
    rw [List.foldl_cons, if_neg (by simp [h mark (List.mem_cons_self ..)]),
      ih (fun m hm => h m (List.mem_cons_of_mem _ hm)), List.append_assoc]
    rfl

theorem sinceMark_reset (resets : OutputMark → Bool) (log : List OutputMark) {mark : OutputMark} (h : resets mark = true) :
    sinceMark resets (log ++ [mark]) = [] := by
  unfold sinceMark
  rw [List.foldl_append, List.foldl_cons, if_pos h]
  rfl

/-- A batch under way is the front of the queue, unless the queue has been discarded. -/
structure FlightFits (s : OutputState) (batch : PassedBatch) : Prop where
  joins : batch.Joins
  generation : batch.generation ≤ s.outputQueueGeneration
  front : batch.generation = s.outputQueueGeneration → batch.pending = none ∧ batch.entries <+: s.outputQueue

structure OutputInv (applied : Int) (r : OutputRun) : Prop where
  queue : acceptedEntries (liveMarks r.log) = confirmedEntries (liveMarks r.log) ++ r.state.outputQueue
  size : r.state.outputQueueSize = (r.state.outputQueue.map QueuedEntry.byteLength).sum
  fits : ∀ entry ∈ r.state.outputQueue, entry.Fits r.state.outputQueueGeneration
  flight : ∀ batch, r.state.flight = some batch → FlightFits r.state batch
  joins : ∀ batch ∈ confirmedBatches r.log, batch.Joins
  applied : r.state.appliedHistoryCursor = (confirmedCursors r.log).getLast?.getD applied
  passed : ∀ before batch after, r.log = before ++ .passed batch :: after → batch.Joins ∧
    ∃ rest, acceptedEntries (liveMarks before) = confirmedEntries (liveMarks before) ++ batch.entries ++ rest

section Steps

variable {r : OutputRun} {s' : OutputState} {applied : Int}

/-- Nothing is accepted, handed over or confirmed. -/
theorem OutputInv.quiet (h : OutputInv applied r) (hs : SameQueue r.state s')
    (hf : s'.flight = none ∨ s'.flight = r.state.flight) : OutputInv applied ⟨s', r.log ++ []⟩ := by
  rw [List.append_nil]
  refine ⟨by rw [hs.queue]; exact h.queue, by rw [hs.size, hs.queue]; exact h.size, ?_, ?_, h.joins,
    by rw [hs.applied]; exact h.applied, h.passed⟩
  · simp only [hs.queue, hs.generation]
    exact h.fits
  · intro batch hb
    rcases hf with hf | hf
    · rw [hf] at hb
      cases hb
    · obtain ⟨hj, hg, hfront⟩ := h.flight batch (hf.symm.trans hb)
      exact ⟨hj, by simp only [hs.generation]; exact hg, by simp only [hs.generation, hs.queue]; exact hfront⟩

/-- The marks of an event that is no reset, after the others. -/
theorem liveMarks_append (log marks : List OutputMark) (h : ∀ mark ∈ marks, mark.resets = false) :
    liveMarks (log ++ marks) = liveMarks log ++ marks := sinceMark_append _ _ _ h

theorem passed_append {log marks : List OutputMark} (hn : ∀ batch, .passed batch ∉ marks) {before after : List OutputMark}
    {batch : PassedBatch} (h : log ++ marks = before ++ .passed batch :: after) :
    ∃ after', log = before ++ .passed batch :: after' := by
  have hmarks {front : List OutputMark} : marks ≠ front ++ .passed batch :: after := by
    intro heq
    apply hn batch
    rw [heq]
    exact List.mem_append_right _ (List.mem_cons_self ..)
  rcases List.append_eq_append_iff.mp h with ⟨front, -, heq⟩ | ⟨more, hlog, heq⟩
  · exact absurd heq hmarks
  · cases more with
    | nil => exact absurd heq.symm (@hmarks [])
    | cons mark more =>
      obtain ⟨rfl, -⟩ := List.cons.inj heq
      exact ⟨more, hlog⟩

theorem acceptedEntries_append (log marks : List OutputMark) :
    acceptedEntries (log ++ marks) = acceptedEntries log ++ acceptedEntries marks := List.filterMap_append

theorem confirmedBatches_append (log marks : List OutputMark) :
    confirmedBatches (log ++ marks) = confirmedBatches log ++ confirmedBatches marks := List.filterMap_append

theorem confirmedEntries_append (log marks : List OutputMark) :
    confirmedEntries (log ++ marks) = confirmedEntries log ++ confirmedEntries marks := by
  unfold confirmedEntries
  rw [confirmedBatches_append, List.flatMap_append]

theorem accepted_marks (entries : List QueuedEntry) :
    acceptedEntries (entries.map .accepted) = entries ∧ confirmedBatches (entries.map .accepted) = [] := by
  induction entries with
  | nil => exact ⟨rfl, rfl⟩
  | cons entry entries ih =>
    obtain ⟨ha, hc⟩ := ih
    exact ⟨congrArg (entry :: ·) ha, hc⟩

theorem OutputInv.write (h : OutputInv applied r) {data : Option OutputData} {options : OutputOptions} {resizing : Bool} :
    OutputInv applied ⟨(r.state.write data options resizing).2,
      r.log ++ outputMarks r.state (r.state.write data options resizing).2 (.write data options resizing)⟩ := by
  cases hw : r.state.write data options resizing with
  | mk result t =>
    obtain ⟨entries, hwrote, -⟩ := write_wrote hw
    have hm : outputMarks r.state t (.write data options resizing) = entries.map .accepted := by
      simp only [outputMarks, hwrote.queue, List.drop_left]
    obtain ⟨ha, hc⟩ := accepted_marks entries
    have hquiet : ∀ mark ∈ entries.map OutputMark.accepted, mark.resets = false := by
      intro mark hmem
      obtain ⟨entry, -, rfl⟩ := List.mem_map.mp hmem
      rfl
    simp only [hm]
    refine ⟨?_, ?_, ?_, ?_, ?_, ?_, ?_⟩
    · simp only [liveMarks_append _ _ hquiet, acceptedEntries_append, confirmedEntries_append, ha, hwrote.queue, h.queue]
      unfold confirmedEntries
      rw [hc, List.flatMap_nil, List.append_nil, List.append_assoc]
    · simp only [hwrote.size, hwrote.queue, h.size, List.map_append, List.sum_append]
    · intro entry hmem
      simp only [hwrote.queue, hwrote.generation] at hmem ⊢
      rcases List.mem_append.mp hmem with hmem | hmem
      · exact h.fits entry hmem
      · exact hwrote.fits entry hmem
    · intro batch hb
      simp only [OutputState.flight, hwrote.inFlight] at hb
      obtain ⟨hj, hg, hfront⟩ := h.flight batch hb
      refine ⟨hj, by simp only [hwrote.generation]; exact hg, ?_⟩
      simp only [hwrote.generation, hwrote.queue]
      intro heq
      obtain ⟨hp, hpre⟩ := hfront heq
      exact ⟨hp, hpre.trans (List.prefix_append ..)⟩
    · simp only [confirmedBatches_append, hc, List.append_nil]
      exact h.joins
    · simp only [confirmedCursors, confirmedBatches_append, hc, List.append_nil, hwrote.applied]
      exact h.applied
    · intro before batch after heq
      have hn (b : PassedBatch) : OutputMark.passed b ∉ entries.map OutputMark.accepted := by simp
      obtain ⟨after', hlog⟩ := passed_append hn heq
      exact h.passed before batch after' hlog

/-- The queue is emptied; a batch under way is not of the next one. -/
theorem OutputInv.reset (h : OutputInv applied r) {mark : OutputMark} (hm : mark.resets = true)
    (hq : s'.outputQueue = []) (hs : s'.outputQueueSize = 0)
    (ha : s'.appliedHistoryCursor = r.state.appliedHistoryCursor)
    (hf : ∀ batch, s'.flight = some batch → batch.Joins ∧ batch.generation < s'.outputQueueGeneration) :
    OutputInv applied ⟨s', r.log ++ [mark]⟩ := by
  have hc : confirmedBatches [mark] = [] := by cases mark <;> first | rfl | cases hm
  refine ⟨?_, ?_, ?_, ?_, ?_, ?_, ?_⟩
  · simp only [liveMarks, sinceMark_reset _ _ hm, hq]
    rfl
  · simp only [hq, hs]
    rfl
  · simp only [hq]
    exact fun _ hm => absurd hm List.not_mem_nil
  · intro batch hb
    obtain ⟨hj, hlt⟩ := hf batch hb
    exact ⟨hj, Nat.le_of_lt hlt, fun heq => absurd heq (Nat.ne_of_lt hlt)⟩
  · simp only [confirmedBatches_append, hc, List.append_nil]
    exact h.joins
  · simp only [confirmedCursors, confirmedBatches_append, hc, List.append_nil, ha]
    exact h.applied
  · intro before batch after heq
    have hn (b : PassedBatch) : OutputMark.passed b ∉ [mark] := by
      cases mark <;> simp
      cases hm
    obtain ⟨after', hlog⟩ := passed_append hn heq
    exact h.passed before batch after' hlog

theorem OutputInv.pass (h : OutputInv applied r) (hs : SameQueue r.state s') {batch : PassedBatch} {rest : List QueuedEntry}
    (hf : s'.flight = some batch) (hj : batch.Joins) (hp : batch.pending = none)
    (hg : batch.generation = r.state.outputQueueGeneration) (hq : r.state.outputQueue = batch.entries ++ rest) :
    OutputInv applied ⟨s', r.log ++ [.passed batch]⟩ := by
  have hlive : liveMarks (r.log ++ [.passed batch]) = liveMarks r.log ++ [.passed batch] :=
    liveMarks_append _ _ fun mark hm => by cases List.mem_singleton.mp hm; rfl
  have hc : confirmedBatches (r.log ++ [.passed batch]) = confirmedBatches r.log := by
    rw [confirmedBatches_append]
    exact List.append_nil _
  refine ⟨?_, ?_, ?_, ?_, ?_, ?_, ?_⟩
  · simp only [hlive, acceptedEntries_append, confirmedEntries_append, hs.queue]
    rw [show acceptedEntries [.passed batch] = [] from rfl, show confirmedEntries [.passed batch] = [] from rfl,
      List.append_nil, List.append_nil]
    exact h.queue
  · simp only [hs.size, hs.queue]
    exact h.size
  · simp only [hs.queue, hs.generation]
    exact h.fits
  · intro b hb
    obtain rfl := Option.some.inj (hf.symm.trans hb)
    refine ⟨hj, Nat.le_of_eq (hg.trans hs.generation.symm), fun _ => ⟨hp, ?_⟩⟩
    simp only [hs.queue, hq]
    exact List.prefix_append ..
  · simp only [hc]
    exact h.joins
  · simp only [confirmedCursors, hc, hs.applied]
    exact h.applied
  · apply Log.concat_kind h.passed
    rintro _ ⟨⟩
    refine ⟨hj, rest, ?_⟩
    rw [h.queue, hq, List.append_assoc]

theorem confirming_cases {s : OutputState} {batch : PassedBatch} (h : s.confirming = some batch) :
    s.flight = some batch ∧ s.outputQueueGeneration = batch.queueGeneration := by
  unfold OutputState.confirming at h
  split at h
  · rename_i hflight
    split at h
    · cases h
    · rename_i hn
      cases h
      refine ⟨?_, by_contra fun hne => hn (.inr hne)⟩
      unfold OutputState.flight
      rw [hflight]
      rfl
  · cases h

theorem batchApplied_same (s : OutputState) : SameQueue s s.batchApplied ∧ s.batchApplied.inFlight = s.inFlight := by
  have hgot := getBatch_same s
  unfold OutputState.batchApplied
  generalize s.getBatch = got at hgot
  obtain ⟨batch, t⟩ := got
  cases batch with
  | none => exact hgot
  | some batch =>
    simp only at hgot ⊢
    split
    · exact hgot
    · exact ⟨hgot.1.trans ⟨rfl, rfl, rfl, rfl⟩, hgot.2⟩

/-- What a confirmed batch takes from the queue. -/
theorem resumed_confirmed {s : OutputState} {t : DrainTurn} {batch : PassedBatch} {rest : List QueuedEntry}
    (hc : s.confirming = some batch) (hp : batch.pending = none) (hq : s.outputQueue = batch.entries ++ rest) :
    (s.resumed t).outputQueue = rest ∧ (s.resumed t).outputQueueSize = s.outputQueueSize - batch.byteLength ∧
      (s.resumed t).outputQueueGeneration = s.outputQueueGeneration ∧
      (s.resumed t).appliedHistoryCursor = batch.historyEndCursor.getD s.appliedHistoryCursor ∧
      (s.resumed t).flight = none := by
  unfold OutputState.resumed
  rw [hc]
  simp only [hp, Option.getD_none, hq, List.drop_left]
  split
  · obtain ⟨⟨hqueue, hsize, hgen, happlied⟩, hflight⟩ := batchApplied_same { s with
      outputQueue := rest
      outputQueueSize := s.outputQueueSize - batch.byteLength
      parsedBytes := s.parsedBytes + batch.byteLength
      appliedEntries := s.appliedEntries + batch.entries.length
      appliedHistoryCursor := batch.historyEndCursor.getD s.appliedHistoryCursor
      inFlight := some { t with stage := .looping } }
    refine ⟨hqueue, hsize, hgen, happlied, ?_⟩
    unfold OutputState.flight
    rw [hflight]
    rfl
  · exact ⟨rfl, rfl, rfl, rfl, rfl⟩

theorem OutputInv.confirm (h : OutputInv applied r) {t : DrainTurn} {batch : PassedBatch}
    (hc : r.state.confirming = some batch) : OutputInv applied ⟨r.state.resumed t, r.log ++ [.confirmed batch]⟩ := by
  obtain ⟨hflight, hgen⟩ := confirming_cases hc
  obtain ⟨hj, -, hfront⟩ := h.flight batch hflight
  obtain ⟨hp, rest, hq⟩ := hfront (hj.generation.symm.trans hgen.symm)
  obtain ⟨hqueue, hsize, hsame, happlied, hnone⟩ := resumed_confirmed (t := t) hc hp hq.symm
  have hlive : liveMarks (r.log ++ [.confirmed batch]) = liveMarks r.log ++ [.confirmed batch] :=
    liveMarks_append _ _ fun mark hm => by cases List.mem_singleton.mp hm; rfl
  have hb : confirmedBatches (r.log ++ [.confirmed batch]) = confirmedBatches r.log ++ [batch] := by
    rw [confirmedBatches_append]
    rfl
  refine ⟨?_, ?_, ?_, ?_, ?_, ?_, ?_⟩
  · have he : confirmedEntries [.confirmed batch] = batch.entries := List.flatMap_singleton _ _
    simp only [hlive, acceptedEntries_append, confirmedEntries_append, hqueue, he]
    rw [show acceptedEntries [.confirmed batch] = [] from rfl, List.append_nil, h.queue, ← hq, List.append_assoc]
  · have hsum := h.size
    rw [← hq, List.map_append, List.sum_append, ← hj.byteLength] at hsum
    simp only [hsize, hqueue]
    omega
  · simp only [hqueue, hsame]
    intro entry hm
    apply h.fits entry
    rw [← hq]
    exact List.mem_append_right _ hm
  · intro b hfb
    cases hnone.symm.trans hfb
  · simp only [hb]
    intro b hm
    rcases List.mem_append.mp hm with hm | hm
    · exact h.joins b hm
    · cases List.mem_singleton.mp hm
      exact hj
  · simp only [happlied, confirmedCursors, hb, List.filterMap_append]
    cases hcur : batch.historyEndCursor with
    | none =>
      rw [List.filterMap_cons_none hcur, List.filterMap_nil, List.append_nil]
      exact h.applied
    | some cursor =>
      rw [List.filterMap_cons_some hcur, List.filterMap_nil, List.getLast?_concat]
      rfl
  · intro before b after heq
    have hn (b' : PassedBatch) : OutputMark.passed b' ∉ [OutputMark.confirmed batch] := by simp
    obtain ⟨after', hlog⟩ := passed_append hn heq
    exact h.passed before b after' hlog

theorem interruptBatch_same (s : OutputState) : SameQueue s s.interruptBatch ∧ s.interruptBatch.inFlight = s.inFlight := by
  have hgot := getBatch_same s
  unfold OutputState.interruptBatch
  generalize s.getBatch = got at hgot
  obtain ⟨batch, t⟩ := got
  cases batch with
  | none => exact hgot
  | some batch =>
    simp only at hgot ⊢
    split
    · exact ⟨hgot.1.trans ⟨rfl, rfl, rfl, rfl⟩, hgot.2⟩
    · exact hgot

theorem completeReplayBatch_same (s : OutputState) :
    SameQueue s s.completeReplayBatch ∧ s.completeReplayBatch.inFlight = s.inFlight := by
  have hgot := getBatch_same s
  unfold OutputState.completeReplayBatch
  generalize s.getBatch = got at hgot
  obtain ⟨batch, t⟩ := got
  cases batch with
  | none => exact hgot
  | some batch => exact ⟨hgot.1.trans ⟨rfl, rfl, rfl, rfl⟩, hgot.2⟩

theorem beginReplayBatch_same (s : OutputState) (bytes : Nat) (snapshot : Bool) (start stop : Option Int) :
    SameQueue s (s.beginReplayBatch bytes snapshot start stop) ∧
      (s.beginReplayBatch bytes snapshot start stop).inFlight = s.inFlight := by
  unfold OutputState.beginReplayBatch
  simp only
  split
  · split <;> exact ⟨⟨rfl, rfl, rfl, rfl⟩, rfl⟩
  · exact ⟨⟨rfl, rfl, rfl, rfl⟩, rfl⟩

/-- A queue that does not belong to the session any more is thrown away; nothing else is done to it. -/
structure Emptied (s s' : OutputState) : Prop where
  before : s.outputQueue ≠ []
  queue : s'.outputQueue = []
  size : s'.outputQueueSize = 0
  generation : s'.outputQueueGeneration = s.outputQueueGeneration
  applied : s'.appliedHistoryCursor = s.appliedHistoryCursor

theorem drain_cases (s : OutputState) (options : FlushOptions) (answers : FlushAnswers) :
    (s.drain options answers).flight = none ∧
      (SameQueue s (s.drain options answers) ∨ Emptied s (s.drain options answers)) := by
  unfold OutputState.drain
  simp only
  split
  · exact ⟨rfl, .inl ⟨rfl, rfl, rfl, rfl⟩⟩
  · rename_i first rest hq
    have hne : s.outputQueue ≠ [] := by simp [hq]
    split
    · exact ⟨rfl, .inr ⟨hne, rfl, rfl, rfl, rfl⟩⟩
    · split
      · exact ⟨rfl, .inr ⟨hne, rfl, rfl, rfl, rfl⟩⟩
      · split
        · exact ⟨rfl, .inl ⟨rfl, rfl, rfl, rfl⟩⟩
        · exact ⟨rfl, .inl ((getBatch_same s).1.trans ⟨rfl, rfl, rfl, rfl⟩)⟩

theorem SameQueue.emptied {t u : OutputState} (h : SameQueue s' t) (he : Emptied t u) : Emptied s' u :=
  ⟨h.queue ▸ he.before, he.queue, he.size, he.generation.trans h.generation, he.applied.trans h.applied⟩

theorem flush_cases (s : OutputState) (options : FlushOptions) (answers : FlushAnswers) :
    ((s.flush options answers).flight = none ∨ (s.flush options answers).flight = s.flight) ∧
      (SameQueue s (s.flush options answers) ∨
        (s.flush options answers).flight = none ∧ Emptied s (s.flush options answers)) := by
  unfold OutputState.flush
  simp only
  split
  · exact ⟨.inr rfl, .inl (.refl s)⟩
  · have hforced : SameQueue s (if options.force = true then s.interruptBatch else s) ∧
        (if options.force = true then s.interruptBatch else s).inFlight = s.inFlight := by
      split
      · exact interruptBatch_same s
      · exact ⟨.refl s, rfl⟩
    generalize (if options.force = true then s.interruptBatch else s) = t at hforced ⊢
    obtain ⟨hst, hft⟩ := hforced
    obtain ⟨htu, hfu⟩ := getBatch_same t
    generalize t.getBatch = got at htu hfu ⊢
    obtain ⟨batch, u⟩ := got
    simp only at htu hfu ⊢
    have hsu := hst.trans htu
    have hflight : u.flight = s.flight := by
      unfold OutputState.flight
      rw [hfu, hft]
    split
    · exact ⟨.inr hflight, .inl hsu⟩
    · split
      · exact ⟨.inr hflight, .inl hsu⟩
      · split
        · exact ⟨.inr hflight, .inl hsu⟩
        · obtain ⟨hnone, hsame | hempty⟩ := drain_cases u options answers
          · exact ⟨.inl hnone, .inl (hsu.trans hsame)⟩
          · exact ⟨.inl hnone, .inr ⟨hnone, hsu.emptied hempty⟩⟩

theorem OutputInv.flush (h : OutputInv applied r) {options : FlushOptions} {answers : FlushAnswers} :
    OutputInv applied ⟨r.state.flush options answers,
      r.log ++ outputMarks r.state (r.state.flush options answers) (.flush options answers)⟩ := by
  obtain ⟨hf, hsame | ⟨hnone, hempty⟩⟩ := flush_cases r.state options answers
  · simp only [outputMarks, hsame.queue, if_true]
    exact h.quiet hsame hf
  · have hne : (r.state.flush options answers).outputQueue ≠ r.state.outputQueue := by
      rw [hempty.queue]
      exact hempty.before.symm
    simp only [outputMarks, if_neg hne]
    apply h.reset rfl hempty.queue hempty.size hempty.applied
    intro batch hb
    cases hnone.symm.trans hb

/-- A batch under way stays as it was handed over. -/
theorem discard_flight {s : OutputState} {batch : PassedBatch} (h : s.discard.flight = some batch) :
    ∃ was pending, s.flight = some was ∧ batch = { was with pending := pending } := by
  have hdetach : s.discard.flight = s.detach.bind fun t => t.stage.batch := rfl
  rw [hdetach] at h
  unfold OutputState.detach at h
  unfold OutputState.flight
  cases hf : s.inFlight with
  | none =>
    rw [hf] at h
    cases h
  | some t =>
    simp only [hf, Option.map_some, Option.bind_some] at h ⊢
    cases hs : t.stage with
    | looping =>
      simp only [hs] at h
      cases h
    | ended =>
      simp only [hs] at h
      cases h
    | awaiting was =>
      simp only [hs] at h
      cases h
      exact ⟨was, _, rfl, rfl⟩
    | returned was written =>
      simp only [hs] at h
      cases h
      exact ⟨was, _, rfl, rfl⟩

theorem OutputInv.discard (h : OutputInv applied r) (hs : SameQueue r.state.discard s')
    (hf : s'.flight = r.state.discard.flight) : OutputInv applied ⟨s', r.log ++ [.discarded]⟩ := by
  refine h.reset rfl hs.queue hs.size hs.applied ?_
  intro batch hb
  obtain ⟨was, pending, hwas, rfl⟩ := discard_flight (hf.symm.trans hb)
  obtain ⟨hj, hle, -⟩ := h.flight was hwas
  refine ⟨⟨hj.data, hj.byteLength, hj.historyEndCursor, hj.generation⟩, ?_⟩
  rw [hs.generation]
  exact Nat.lt_succ_of_le hle

theorem disposeSession_cases (s : OutputState) : s.disposeSession = s ∨
    s.disposeSession = { s.discard with disposedSession := true } := by
  unfold OutputState.disposeSession
  split
  · exact .inl rfl
  · exact .inr rfl

theorem dispose_cases (s : OutputState) : SameQueue s s.dispose ∧ s.dispose.flight = s.flight ∨
    SameQueue s.discard s.dispose ∧ s.dispose.flight = s.discard.flight := by
  unfold OutputState.dispose
  split
  · exact .inl ⟨.refl s, rfl⟩
  · split
    · exact .inl ⟨⟨rfl, rfl, rfl, rfl⟩, rfl⟩
    · exact .inr ⟨⟨rfl, rfl, rfl, rfl⟩, rfl⟩

/-- A discard, or nothing. -/
theorem OutputInv.discarding (h : OutputInv applied r)
    (hc : SameQueue r.state s' ∧ s'.flight = r.state.flight ∨
      SameQueue r.state.discard s' ∧ s'.flight = r.state.discard.flight) : OutputInv applied ⟨s', r.log ++
        if s'.outputQueueGeneration = r.state.outputQueueGeneration then [] else [.discarded]⟩ := by
  rcases hc with ⟨hs, hf⟩ | ⟨hs, hf⟩
  · rw [if_pos hs.generation]
    exact h.quiet hs (.inr hf)
  · have hne : s'.outputQueueGeneration ≠ r.state.outputQueueGeneration := by
      rw [hs.generation]
      exact Nat.succ_ne_self _
    rw [if_neg hne]
    exact h.discard hs hf

theorem finishWrite_same (s : OutputState) (batch : PassedBatch) : SameQueue s (s.finishWrite batch) := by
  unfold OutputState.finishWrite
  split
  · exact ⟨rfl, rfl, rfl, rfl⟩
  · exact .refl s

theorem threw_same (s : OutputState) (t : DrainTurn) (cancelled : Bool) :
    SameQueue s (s.threw t cancelled) ∧ (s.threw t cancelled).flight = none := by
  unfold OutputState.threw
  simp only
  split
  · split <;> exact ⟨(finishWrite_same s _).trans ⟨rfl, rfl, rfl, rfl⟩, rfl⟩
  · split <;> exact ⟨⟨rfl, rfl, rfl, rfl⟩, rfl⟩

theorem OutputInv.step {e : OutputEvent} (h : OutputInv applied r) (hs : r.state.next e = some s') :
    OutputInv applied ⟨s', r.log ++ outputMarks r.state s' e⟩ := by
  cases e with
  | write data options resizing =>
    cases hs
    exact h.write
  | flush options answers =>
    cases hs
    exact h.flush
  | round answers =>
    simp only [OutputState.next] at hs
    split at hs
    · rename_i t _
      split at hs
      · cases hs
        obtain ⟨hsame, hnone | ⟨batch, rest, hf, hj, hp, hg, hq⟩⟩ := round_cases h.fits t answers
        · simp only [outputMarks, hnone]
          exact h.quiet hsame (.inl hnone)
        · simp only [outputMarks, hf]
          exact h.pass hsame hf hj hp hg hq
      · cases hs
    · cases hs
  | parsed =>
    simp only [OutputState.next] at hs
    split at hs
    · rename_i t hflight
      split at hs
      · rename_i batch hstage
        cases hs
        refine h.quiet ((finishWrite_same r.state batch).trans ⟨rfl, rfl, rfl, rfl⟩) (.inr ?_)
        unfold OutputState.flight
        simp only [OutputState.parsed, hflight, Option.bind_some, hstage]
        rfl
      · cases hs
    · cases hs
  | resumed =>
    simp only [OutputState.next] at hs
    split at hs
    · rename_i t hflight
      split at hs
      · cases hs
        cases hc : r.state.confirming with
        | none =>
          simp only [outputMarks, OutputState.resumed, hc]
          exact h.quiet ⟨rfl, rfl, rfl, rfl⟩ (.inl rfl)
        | some batch =>
          simp only [outputMarks, hc]
          exact h.confirm hc
      · cases hs
    · cases hs
  | threw cancelled =>
    simp only [OutputState.next] at hs
    split at hs
    · rename_i t _
      split at hs
      · cases hs
      · cases hs
        obtain ⟨hsame, hnone⟩ := threw_same r.state t cancelled
        exact h.quiet hsame (.inl hnone)
    · cases hs
  | settled =>
    simp only [OutputState.next] at hs
    split at hs
    · split at hs
      · cases hs
        exact h.quiet ⟨rfl, rfl, rfl, rfl⟩ (.inl rfl)
      · cases hs
    · cases hs
  | discard =>
    cases hs
    exact h.discarding (.inr ⟨.refl _, rfl⟩)
  | disposeSession =>
    cases hs
    rcases disposeSession_cases r.state with heq | heq
    · rw [heq]
      exact h.discarding (.inl ⟨.refl _, rfl⟩)
    · rw [heq]
      exact h.discarding (.inr ⟨⟨rfl, rfl, rfl, rfl⟩, rfl⟩)
  | dispose =>
    cases hs
    exact h.discarding (dispose_cases r.state)
  | beginReplayBatch bytes snapshot start stop =>
    cases hs
    obtain ⟨hsame, hf⟩ := beginReplayBatch_same r.state bytes snapshot start stop
    exact h.quiet hsame (.inr (congrArg (Option.bind · _) hf))
  | completeReplayBatch =>
    cases hs
    obtain ⟨hsame, hf⟩ := completeReplayBatch_same r.state
    exact h.quiet hsame (.inr (congrArg (Option.bind · _) hf))
  | clearOverload =>
    cases hs
    exact h.quiet ⟨rfl, rfl, rfl, rfl⟩ (.inr rfl)
  | changed page receivedHistoryCursor allowGeneratedInputDuringReplay =>
    cases hs
    exact h.quiet ⟨rfl, rfl, rfl, rfl⟩ (.inr rfl)

end Steps

/-! ## Whole runs -/

theorem OutputInv.start (page : OutputPage) (received applied : Int) : OutputInv applied
    ⟨{ page := page, receivedHistoryCursor := received, appliedHistoryCursor := applied }, []⟩ where
  queue := rfl
  size := rfl
  fits := fun _ hm => absurd hm List.not_mem_nil
  flight := fun _ hb => by cases hb
  joins := fun _ hm => absurd hm List.not_mem_nil
  applied := rfl
  passed := fun _ _ _ h => by simp at h

theorem OutputInv.run {applied : Int} {r r' : OutputRun} {es : List OutputEvent} (h : OutputInv applied r)
    (hr : outputRunMachine.run r es = some r') : OutputInv applied r' := by
  refine outputRunMachine.run_inv ?_ hr h
  intro r e r' hi hstep
  obtain ⟨s', hs, rfl⟩ := Option.map_eq_some_iff.mp hstep
  exact hi.step hs

/-- The data of batches that join their entries is the data of the entries. -/
theorem confirmed_items {log : List OutputMark} (h : ∀ batch ∈ confirmedBatches log, batch.Joins) :
    (confirmedBatches log).flatMap (fun batch => dataItems batch.data) = entryItems (confirmedEntries log) := by
  unfold confirmedEntries
  generalize confirmedBatches log = batches at h
  induction batches with
  | nil => rfl
  | cons batch batches ih =>
    rw [List.flatMap_cons, List.flatMap_cons, entryItems_append, (h batch (List.mem_cons_self ..)).data,
      ih fun b hm => h b (List.mem_cons_of_mem _ hm)]

theorem sinceMark_subset (resets : OutputMark → Bool) (log : List OutputMark) : sinceMark resets log ⊆ log := by
  have h (kept : List OutputMark) :
      log.foldl (fun kept mark => if resets mark = true then [] else kept ++ [mark]) kept ⊆ kept ++ log := by
    induction log generalizing kept with
    | nil =>
      rw [List.append_nil]
      exact List.Subset.refl _
    | cons mark log ih =>
      rw [List.foldl_cons]
      split
      · exact List.Subset.trans (ih []) (List.Subset.trans (List.subset_cons_self ..) (List.subset_append_right ..))
      · rw [List.append_cons kept mark log]
        exact ih _
  exact h []

theorem output_queue {page : OutputPage} {received applied : Int} {es : List OutputEvent} {r : OutputRun}
    (hr : outputRunMachine.run
      ⟨{ page := page, receivedHistoryCursor := received, appliedHistoryCursor := applied }, []⟩ es = some r) :
    acceptedEntries (liveMarks r.log) = confirmedEntries (liveMarks r.log) ++ r.state.outputQueue ∧
      (confirmedBatches (liveMarks r.log)).flatMap (fun batch => dataItems batch.data) =
        entryItems (confirmedEntries (liveMarks r.log)) ∧
      r.state.outputQueueSize = (r.state.outputQueue.map fun entry => terminalOutputByteLength entry.data).sum ∧
      r.state.appliedHistoryCursor = (confirmedCursors r.log).getLast?.getD applied ∧
      (∀ before batch after, r.log = before ++ .passed batch :: after → dataItems batch.data = entryItems batch.entries ∧
        ∃ rest, acceptedEntries (liveMarks before) = confirmedEntries (liveMarks before) ++ batch.entries ++ rest) ∧
      ∀ data options resizing result s', r.state.write data options resizing = (result, s') → result ≠ .refused →
        ∃ written, data = some written ∧
          entryItems (acceptedEntries (outputMarks r.state s' (.write data options resizing))) = dataItems written := by
  have h := (OutputInv.start page received applied).run hr
  refine ⟨h.queue, ?_, ?_, h.applied, fun before batch after heq => ?_, fun data options resizing result s' hw hne => ?_⟩
  · apply confirmed_items
    intro batch hm
    obtain ⟨mark, hmark, hb⟩ := List.mem_filterMap.mp hm
    exact h.joins batch (List.mem_filterMap.mpr ⟨mark, sinceMark_subset _ _ hmark, hb⟩)
  · rw [h.size]
    exact congrArg List.sum (List.map_congr_left fun entry hm => (h.fits entry hm).byteLength)
  · obtain ⟨hj, hrest⟩ := h.passed before batch after heq
    exact ⟨hj.data, hrest⟩
  · obtain ⟨entries, hwrote, hitems⟩ := write_wrote hw
    obtain ⟨written, hdata, heq⟩ := hitems hne
    refine ⟨written, hdata, ?_⟩
    simp only [outputMarks, hwrote.queue, List.drop_left]
    rw [(accepted_marks entries).1]
    exact heq

/-- More is written while a turn waits for its batch. -/
theorem output_queue_awaiting :
    let page : OutputPage := { identity := { name := "work" }, activeName := "work" }
    let written (byte : UInt8) : OutputEvent := .write (some (.bytes [byte])) {} false
    ∃ r, outputRunMachine.run ⟨{ page := page, receivedHistoryCursor := 0, appliedHistoryCursor := 0 }, []⟩
        [written 97, .flush {} {}, .round {}, written 98, .parsed, .resumed] = some r ∧
      acceptedEntries (liveMarks r.log) = confirmedEntries (liveMarks r.log) ++ r.state.outputQueue ∧
      entryItems (confirmedEntries (liveMarks r.log)) = [.inr 97] ∧ r.state.outputQueueSize = 1 := by
  intro page written
  have hruns : (outputRunMachine.run ⟨{ page := page, receivedHistoryCursor := 0, appliedHistoryCursor := 0 }, []⟩
      [written 97, .flush {} {}, .round {}, written 98, .parsed, .resumed]).map
      (fun r => (entryItems (confirmedEntries (liveMarks r.log)), r.state.outputQueueSize)) = some ([.inr 97], 1) := by
    decide
  obtain ⟨r, hr, heq⟩ := Option.map_eq_some_iff.mp hruns
  exact ⟨r, hr, (output_queue hr).1, congrArg Prod.fst heq, congrArg Prod.snd heq⟩

/-- The session that was shown is shown again after a turn. -/
theorem output_queue_dropped :
    let page : OutputPage := { identity := { name := "work" }, activeName := "work" }
    let written (byte : UInt8) : OutputEvent := .write (some (.bytes [byte])) {} false
    (outputRunMachine.run ⟨{ page := page }, []⟩ [written 97, .changed { page with activeName := "other" } 0 false,
      .flush {} {}, .settled, .changed page 0 false, written 98, .flush {} {}, .round {}, .parsed, .resumed]).map
      (fun r =>
        (entryItems (acceptedEntries (sinceMark OutputMark.isDiscarded r.log)),
          (confirmedBatches (sinceMark OutputMark.isDiscarded r.log)).flatMap fun batch => dataItems batch.data,
          r.state.outputQueue)) = some ([.inr 97, .inr 98], [.inr 98], []) := by
  decide

end Webshell
