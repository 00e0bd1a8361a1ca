import Webshell.KittyStream

/-!
# Streams consumed in pieces

Runs of `consumeText` beside everything else that happens to the graphics, with
what was consumed and what was handed on. However the stream is cut, the
items are those of the whole stream.
-/

namespace Webshell

/-- The stream is as it was. -/
structure SameStream (g g' : KittyGraphics) : Prop where
  inputBuffer : g'.inputBuffer = g.inputBuffer
  discardingCommand : g'.discardingCommand = g.discardingCommand
  consuming : g'.consuming = g.consuming

/-- The call of `consumeText` may have come to wait for a cursor's movement. -/
structure StreamGoes (g g' : KittyGraphics) : Prop where
  inputBuffer : g'.inputBuffer = g.inputBuffer
  discardingCommand : g'.discardingCommand = g.discardingCommand
  consuming : g'.consuming = g.consuming ∨ g'.consuming.isMoving = true

namespace SameStream

variable {number : List Char → Option Rat} {g g' g'' : KittyGraphics}

theorem refl (g : KittyGraphics) : SameStream g g := ⟨rfl, rfl, rfl⟩

theorem trans (h : SameStream g g') (h' : SameStream g' g'') : SameStream g g'' :=
  ⟨h'.inputBuffer.trans h.inputBuffer, h'.discardingCommand.trans h.discardingCommand, h'.consuming.trans h.consuming⟩

theorem goes (h : SameStream g g') : StreamGoes g g' := ⟨h.inputBuffer, h.discardingCommand, .inl h.consuming⟩

theorem goesOn (h : SameStream g g') (h' : StreamGoes g' g'') : StreamGoes g g'' := by
  refine ⟨h'.inputBuffer.trans h.inputBuffer, h'.discardingCommand.trans h.discardingCommand, ?_⟩
  rw [← h.consuming]
  exact h'.consuming

theorem place (image : KittyImage) (imageId : Rat) (attributes : KittyAttributes) (cursor : KittyCursor) :
    SameStream g (g.place number image imageId attributes cursor) := by
  unfold KittyGraphics.place
  simp only
  split <;> split <;> exact ⟨rfl, rfl, rfl⟩

theorem put (imageId : Rat) (attributes : KittyAttributes) (cursor : KittyCursor) :
    SameStream g (g.put number imageId attributes cursor) := by
  unfold KittyGraphics.put
  split
  · exact place ..
  · split <;> exact ⟨rfl, rfl, rfl⟩

theorem putReady (p : KittyPut) : SameStream g (g.putReady number p) := by
  unfold KittyGraphics.putReady
  split
  · split
    · exact place ..
    · exact refl g
  · exact refl g

theorem delete (attributes : KittyAttributes) (imageId : Rat) : SameStream g (g.delete number attributes imageId) := by
  unfold KittyGraphics.delete
  simp only
  split
  · exact ⟨rfl, rfl, rfl⟩
  · split
    · exact ⟨rfl, rfl, rfl⟩
    · split
      · split <;> exact ⟨rfl, rfl, rfl⟩
      · split <;> exact ⟨rfl, rfl, rfl⟩

theorem query (attributes : KittyAttributes) (imageId : Rat) : SameStream g (g.query number attributes imageId) := by
  unfold KittyGraphics.query
  simp only
  split
  · exact ⟨rfl, rfl, rfl⟩
  · split
    · exact ⟨rfl, rfl, rfl⟩
    · split <;> exact ⟨rfl, rfl, rfl⟩

theorem startDecode (transfer : KittyTransfer) (cursor : KittyCursor) (generation placementGeneration : Nat) :
    SameStream g (g.startDecode transfer cursor generation placementGeneration) := by
  unfold KittyGraphics.startDecode
  split <;> exact ⟨rfl, rfl, rfl⟩

theorem finishTransfer (transfer : KittyTransfer) (attributes : KittyAttributes) (imageId : Rat) (answers : KittyAnswers) :
    StreamGoes g (g.finishTransfer number transfer attributes imageId answers) := by
  unfold KittyGraphics.finishTransfer
  simp only
  split
  · exact ⟨rfl, rfl, .inl rfl⟩
  · split
    · exact ⟨rfl, rfl, .inl rfl⟩
    · split
      · split
        · exact ⟨rfl, rfl, .inl rfl⟩
        · exact (startDecode ..).goes
        · exact ⟨rfl, rfl, .inr rfl⟩
      · exact (startDecode ..).goes

theorem receive (transfer : KittyTransfer) (attributes : KittyAttributes) (imageId : Rat) (payload : List Char) (more : Bool)
    (answers : KittyAnswers) : StreamGoes g (g.receive number transfer attributes imageId payload more answers) := by
  unfold KittyGraphics.receive
  simp only
  split
  · exact ⟨rfl, rfl, .inl rfl⟩
  · split
    · exact ⟨rfl, rfl, .inl rfl⟩
    · refine goesOn ?_ (finishTransfer ..)
      exact ⟨rfl, rfl, rfl⟩

theorem transmit (action : List Char) (attributes : KittyAttributes) (imageId : Rat) (payload : List Char) (more : Bool)
    (answers : KittyAnswers) : StreamGoes g (g.transmit number action attributes imageId payload more answers) := by
  unfold KittyGraphics.transmit
  split
  · exact receive ..
  · split
    · exact ⟨rfl, rfl, .inl rfl⟩
    · exact receive ..

theorem impliedImageId : SameStream g g.impliedImageId.2 := by
  unfold KittyGraphics.impliedImageId
  split
  · split <;> exact ⟨rfl, rfl, rfl⟩
  · exact ⟨rfl, rfl, rfl⟩

theorem handleCommand (body : List Char) (answers : KittyAnswers) : StreamGoes g (g.handleCommand number body answers) := by
  unfold KittyGraphics.handleCommand
  simp only
  have hid (imageId : Rat) : SameStream g (if imageId = 0 then g.impliedImageId.2 else g) := by
    split
    · exact impliedImageId
    · exact refl g
  refine goesOn (hid (KittyGraphics.numeric number (parseAttributes (body.takeWhile (· ≠ ';'))) "i" 0)) ?_
  generalize (if KittyGraphics.numeric number (parseAttributes (body.takeWhile (· ≠ ';'))) "i" 0 = 0 then g.impliedImageId.2
    else g) = next
  split
  · exact (delete ..).goes
  · split
    · exact (query ..).goes
    · split
      · exact (put ..).goes
      · split
        · exact (refl next).goes
        · exact transmit ..

theorem decodedImage (d : KittyDecode) (image : KittyImage) : SameStream g (g.decodedImage number d image) := by
  unfold KittyGraphics.decodedImage
  simp only
  split
  · exact ⟨rfl, rfl, rfl⟩
  · split
    · exact ⟨rfl, rfl, rfl⟩
    · cases g.images.get d.transfer.imageId with
      | none =>
        simp only
        split
        · refine trans ?_ (place ..)
          exact ⟨rfl, rfl, rfl⟩
        · exact ⟨rfl, rfl, rfl⟩
      | some old =>
        simp only
        split
        · refine trans ?_ (place ..)
          exact ⟨rfl, rfl, rfl⟩
        · exact ⟨rfl, rfl, rfl⟩

theorem decodeDone (d : KittyDecode) (width height : Nat) : SameStream g (g.decodeDone number d width height) := by
  refine trans ?_ (decodedImage ..)
  exact ⟨rfl, rfl, rfl⟩

theorem decodeFailed (d : KittyDecode) : SameStream g (g.decodeFailed number d) := by
  unfold KittyGraphics.decodeFailed
  split <;> exact ⟨rfl, rfl, rfl⟩

end SameStream

/-! ## What is handed on -/

/-- The texts written in a step. -/
def newText (g g' : KittyGraphics) : List KittyItem := (g'.written.drop g.written.length).flatten.map .text

/-- What `sequence` at the front of the buffer stands for. -/
def sequenceItems (sequence buffer : List Char) : List KittyItem :=
  if sequence = WINDOW_PIXEL_SIZE_QUERY then [.query]
  else
    match indexOf KITTY_END (buffer.drop KITTY_START.length) with
    | none => []
    | some length => [.command ((buffer.drop KITTY_START.length).take length)]

/-- What a step hands on; what a command writes is the cursor's movement. -/
def KittyGraphics.handed (g g' : KittyGraphics) : KittyEvent → List KittyItem
  | .consumeText _ => newText g g'
  | .resume _ =>
    match g.consuming with
    | .loop =>
      match nextInterceptedSequence g.inputBuffer with
      | some (0, sequence) => sequenceItems sequence g.inputBuffer
      | _ => newText g g'
    | .wroteBefore index sequence => sequenceItems sequence (g.inputBuffer.drop index)
    | _ => []
  | _ => []

structure KittyRun where
  graphics : KittyGraphics := {}
  consumed : List Char := []
  items : List KittyItem := []

def KittyEvent.text : KittyEvent → List Char
  | .consumeText data => data
  | _ => []

/-- The graphics are not reset and the terminal takes what is written. -/
def KittyEvent.Goes : KittyEvent → Prop
  | .clear | .writeFailed _ => False
  | _ => True

def kittyRunMachine (number : List Char → Option Rat) : Machine KittyRun KittyEvent where
  step r e :=
    (r.graphics.step number e).map fun g =>
      { graphics := g, consumed := r.consumed ++ e.text, items := r.items ++ r.graphics.handed g e }

/-- No command of the stream is longer than the buffer may get. -/
def KittyShort (stream : List Char) : Prop :=
  ∀ body, KittyItem.command body ∈ kittyItems stream → Js.length (KittyItem.command body).source ≤ KITTY_MAX_COMMAND_CHARS

/-- What is still to be read, of a buffer, for a call that stands there. -/
inductive KittyRest : Consuming → List Char → List Char → Prop
  | idle {buffer : List Char} : KittyWaits buffer → KittyRest .idle buffer buffer
  | loop {buffer : List Char} : KittyRest .loop buffer buffer
  | wroteAll : KittyRest .wroteAll [] []
  | wroteTail {buffer : List Char} (keep : Nat) : KittyWaits (buffer.drop (buffer.length - keep)) →
    KittyRest (.wroteTail keep) buffer (buffer.drop (buffer.length - keep))
  | wroteBefore {buffer : List Char} (index : Nat) (sequence : List Char) :
    nextInterceptedSequence buffer = some (index, sequence) →
    KittyRest (.wroteBefore index sequence) buffer (buffer.drop index)
  | moving {consuming : Consuming} {buffer : List Char} : consuming.isMoving = true → KittyRest consuming buffer buffer

/-- The items handed on and those still in the buffer are the stream's, unless a command grew too long. -/
inductive KittyReads (g : KittyGraphics) (consumed : List Char) (items : List KittyItem) : Prop
  | reading (rest : List Char) : g.discardingCommand = false → KittyRest g.consuming g.inputBuffer rest →
    items ++ kittyItems rest = kittyItems consumed → kittyHeld rest = kittyHeld consumed → KittyReads g consumed items
  | discarding (rest : List Char) : g.discardingCommand = true → g.consuming = .idle → items = kittyItems consumed →
    kittyHeld consumed = KITTY_START ++ rest → indexOf KITTY_END rest = none →
    KITTY_MAX_COMMAND_CHARS < Js.length (KITTY_START ++ rest) →
    g.inputBuffer = (if ['\x1b'].isSuffixOf (KITTY_START ++ rest) then ['\x1b'] else []) → KittyReads g consumed items

section Steps

variable {number : List Char → Option Rat} {g : KittyGraphics} {consumed : List Char} {items : List KittyItem}

theorem KittyRest.same {g g' : KittyGraphics} (h : StreamGoes g g') (hc : g.consuming = .loop) :
    KittyRest g'.consuming g'.inputBuffer g.inputBuffer := by
  rw [h.inputBuffer]
  rcases h.consuming with he | hm
  · rw [he, hc]
    exact .loop
  · exact .moving hm

/-- The call goes on with what is left of the buffer. -/
theorem KittyReads.goOn {g' : KittyGraphics} {rest : List Char}
    (h : StreamGoes { g with inputBuffer := rest, consuming := .loop } g') (hd : g.discardingCommand = false)
    (hi : items ++ kittyItems rest = kittyItems consumed) (hh : kittyHeld rest = kittyHeld consumed) :
    KittyReads g' consumed items :=
  .reading rest (h.discardingCommand.trans hd) (.same h rfl) hi hh

theorem query_reads (hd : g.discardingCommand = false) (hp : WINDOW_PIXEL_SIZE_QUERY <+: g.inputBuffer)
    (hi : items ++ kittyItems g.inputBuffer = kittyItems consumed) (hh : kittyHeld g.inputBuffer = kittyHeld consumed)
    (answers : KittyAnswers) :
    KittyReads (g.intercept number WINDOW_PIXEL_SIZE_QUERY answers) consumed (items ++ [.query]) := by
  have hne : g.inputBuffer ≠ [] := by
    intro h0
    rw [h0] at hp
    exact absurd hp.length_le (by decide)
  obtain ⟨hitems, hheld⟩ := kittyItems_take hne (kittyFront_query hp)
  rw [hitems, ← List.append_assoc] at hi
  refine KittyReads.goOn ?_ hd hi (hheld.symm.trans hh)
  unfold KittyGraphics.intercept
  simp only [if_true]
  split
  · split <;> exact ⟨rfl, rfl, .inl rfl⟩
  · exact (SameStream.refl _).goes

/-- What a long command leaves behind. -/
theorem unterminated_reads (hd : g.discardingCommand = false) (hp : KITTY_START <+: g.inputBuffer)
    (hend : indexOf KITTY_END (g.inputBuffer.drop KITTY_START.length) = none)
    (hi : items ++ kittyItems g.inputBuffer = kittyItems consumed) (hh : kittyHeld g.inputBuffer = kittyHeld consumed)
    (answers : KittyAnswers) : KittyReads (g.intercept number KITTY_START answers) consumed items := by
  have hhold := kittyFront_unterminated hp hend
  obtain ⟨hitems, hheld⟩ := kittyItems_hold hhold
  unfold KittyGraphics.intercept
  rw [if_neg (by decide), hend]
  simp only
  by_cases hlong : KITTY_MAX_COMMAND_CHARS < Js.length g.inputBuffer
  · rw [if_pos hlong]
    rw [hitems, List.append_nil] at hi
    rw [hheld] at hh
    obtain ⟨rest, hrest⟩ := hp
    rw [← hrest, List.drop_left] at hend
    rw [← hrest] at hh hlong
    exact .discarding rest rfl rfl hi hh.symm hend hlong (by rw [hrest])
  · rw [if_neg hlong]
    exact .reading g.inputBuffer hd (.idle (.inr hhold)) hi hh

theorem command_reads (hd : g.discardingCommand = false) (hp : KITTY_START <+: g.inputBuffer) {length : Nat}
    (hend : indexOf KITTY_END (g.inputBuffer.drop KITTY_START.length) = some length)
    (hi : items ++ kittyItems g.inputBuffer = kittyItems consumed) (hh : kittyHeld g.inputBuffer = kittyHeld consumed)
    (answers : KittyAnswers) : KittyReads (g.intercept number KITTY_START answers) consumed
      (items ++ [.command ((g.inputBuffer.drop KITTY_START.length).take length)]) := by
  have hne : g.inputBuffer ≠ [] := by
    intro h0
    rw [h0] at hp
    exact absurd hp.length_le (by decide)
  obtain ⟨hitems, hheld⟩ := kittyItems_take hne (kittyFront_command hp hend)
  rw [hitems, ← List.append_assoc] at hi
  unfold KittyGraphics.intercept
  rw [if_neg (by decide), hend]
  exact KittyReads.goOn (SameStream.handleCommand ..) hd hi (hheld.symm.trans hh)

/-- The sequence at the front of the buffer is taken. -/
theorem intercept_reads {sequence : List Char} (hd : g.discardingCommand = false) (hs : sequence ∈ INTERCEPTED_STARTS)
    (hp : sequence <+: g.inputBuffer) (hi : items ++ kittyItems g.inputBuffer = kittyItems consumed)
    (hh : kittyHeld g.inputBuffer = kittyHeld consumed) (answers : KittyAnswers) :
    KittyReads (g.intercept number sequence answers) consumed (items ++ sequenceItems sequence g.inputBuffer) := by
  unfold sequenceItems
  rcases List.mem_pair.mp hs with rfl | rfl
  · rw [if_neg (by decide)]
    cases hend : indexOf KITTY_END (g.inputBuffer.drop KITTY_START.length) with
    | none =>
      rw [List.append_nil]
      exact unterminated_reads hd hp hend hi hh answers
    | some length => exact command_reads hd hp hend hi hh answers
  · rw [if_pos rfl]
    exact query_reads hd hp hi hh answers

theorem newText_append (texts : List (List Char)) {g' : KittyGraphics} (h : g'.written = g.written ++ texts) :
    newText g g' = texts.flatten.map .text := by
  unfold newText
  rw [h, List.drop_left]

theorem round_nil (h : g.inputBuffer = []) (answers : KittyAnswers) :
    g.round number answers = { g with consuming := .idle } := by
  unfold KittyGraphics.round
  rw [if_pos h]

theorem round_none (h : nextInterceptedSequence g.inputBuffer = none) (hne : g.inputBuffer ≠ []) (answers : KittyAnswers) :
    g.round number answers =
      if incompleteStartLength g.inputBuffer < g.inputBuffer.length then
        { g with
          written := g.written ++ [g.inputBuffer.take (g.inputBuffer.length - incompleteStartLength g.inputBuffer)]
          consuming := .wroteTail (incompleteStartLength g.inputBuffer) }
      else { g with consuming := .idle } := by
  unfold KittyGraphics.round
  rw [if_neg hne, h]

theorem round_some {sequence : List Char} {index : Nat} (h : nextInterceptedSequence g.inputBuffer = some (index, sequence))
    (answers : KittyAnswers) : g.round number answers =
      if 0 < index then
        { g with written := g.written ++ [g.inputBuffer.take index], consuming := .wroteBefore index sequence }
      else g.intercept number sequence answers := by
  have hne : g.inputBuffer ≠ [] := by
    intro h0
    rw [h0] at h
    cases h
  unfold KittyGraphics.round
  rw [if_neg hne, h]

/-- The loop finds nothing: what cannot be the start of a sequence is written. -/
theorem tail_reads (hd : g.discardingCommand = false) (hn : nextInterceptedSequence g.inputBuffer = none)
    (hi : items ++ kittyItems g.inputBuffer = kittyItems consumed) (hh : kittyHeld g.inputBuffer = kittyHeld consumed)
    (answers : KittyAnswers) :
    KittyReads (g.round number answers) consumed (items ++ newText g (g.round number answers)) := by
  obtain ⟨hitems, hheld, hwaits⟩ := kittyItems_none hn
  have hquiet : newText g { g with consuming := .idle } = [] := newText_append [] (List.append_nil _).symm
  by_cases hne : g.inputBuffer = []
  · rw [round_nil hne, hquiet, List.append_nil]
    exact .reading g.inputBuffer hd (.idle (.inl hne)) hi hh
  · rw [round_none hn hne]
    by_cases hkeep : incompleteStartLength g.inputBuffer < g.inputBuffer.length
    · rw [if_pos hkeep, newText_append [_] rfl, List.flatten_singleton]
      refine .reading _ hd (.wroteTail _ hwaits) ?_ (hwaits.items.2.trans (hheld.symm.trans hh))
      rw [hwaits.items.1, List.append_nil, ← hitems]
      exact hi
    · rw [if_neg hkeep, hquiet, List.append_nil]
      have hzero : g.inputBuffer.length - incompleteStartLength g.inputBuffer = 0 := by omega
      rw [hzero, List.drop_zero] at hwaits
      exact .reading g.inputBuffer hd (.idle hwaits) hi hh

/-- A round of the loop. -/
theorem round_reads (hd : g.discardingCommand = false) (hc : g.consuming = .loop)
    (hi : items ++ kittyItems g.inputBuffer = kittyItems consumed) (hh : kittyHeld g.inputBuffer = kittyHeld consumed)
    (answers : KittyAnswers) : KittyReads (g.round number answers) consumed
      (items ++ g.handed (g.round number answers) (.resume answers)) := by
  unfold KittyGraphics.handed
  rw [hc]
  simp only
  cases hn : nextInterceptedSequence g.inputBuffer with
  | none => exact tail_reads hd hn hi hh answers
  | some found =>
    obtain ⟨index, sequence⟩ := found
    obtain ⟨hs, hp, hle, -⟩ := nextInterceptedSequence_some hn
    rw [round_some hn]
    cases index with
    | zero => exact intercept_reads hd hs hp hi hh answers
    | succ index =>
      obtain ⟨hitems, hheld⟩ := kittyItems_some hn
      rw [if_pos (Nat.succ_pos index)]
      simp only
      rw [newText_append [_] rfl, List.flatten_singleton]
      refine .reading _ hd (.wroteBefore _ _ hn) ?_ (hheld.symm.trans hh)
      rw [List.append_assoc, ← hitems]
      exact hi

/-- The call goes on from where it stands. -/
theorem resume_reads (h : KittyReads g consumed items) {answers : KittyAnswers} {g' : KittyGraphics}
    (hr : g.resume number answers = some g') : KittyReads g' consumed (items ++ g.handed g' (.resume answers)) := by
  cases h with
  | discarding rest _ hc => 
    unfold KittyGraphics.resume at hr
    rw [hc] at hr
    cases hr
  | reading rest hd hrest hi hh =>
    unfold KittyGraphics.resume at hr
    generalize hc : g.consuming = consuming at hr hrest
    generalize hb : g.inputBuffer = buffer at hrest
    cases hrest with
    | idle _ => cases hr
    | loop =>
      cases hr
      subst hb
      exact round_reads hd hc hi hh answers
    | wroteAll =>
      cases hr
      simp only [KittyGraphics.handed, hc, List.append_nil]
      refine .reading [] hd ?_ hi hh
      simp only [hb]
      exact .idle (.inl rfl)
    | wroteTail keep hwaits =>
      cases hr
      subst hb
      simp only [KittyGraphics.handed, hc, List.append_nil]
      exact .reading _ hd (.idle hwaits) hi hh
    | wroteBefore index sequence hn =>
      cases hr
      subst hb
      obtain ⟨hs, hp, -, -⟩ := nextInterceptedSequence_some hn
      simp only [KittyGraphics.handed, hc]
      exact intercept_reads (g := { g with inputBuffer := g.inputBuffer.drop index }) hd hs hp hi hh answers
    | moving hm =>
      subst hb
      unfold KittyGraphics.handed
      rw [hc]
      cases consuming with
      | moving transfer cursor generation placementGeneration attributes =>
        cases hr
        rw [List.append_nil]
        exact KittyReads.goOn (SameStream.startDecode ..).goes hd hi hh
      | _ => cases hm

/-- Text is read as it is. -/
theorem kittyItems_plain {data : List Char} (h : data.all (fun c => !isIntroducer c) = true) :
    kittyItems data = data.map .text ∧ kittyHeld data = [] := by
  obtain ⟨hitems, hheld⟩ := kittyItems_texts data.length data (Nat.le_refl _) fun m hm => by
    have hne : '\x1b' ∉ data.drop m := by
      intro hmem
      have := List.all_eq_true.mp h _ (List.mem_of_mem_drop hmem)
      revert this
      decide
    have hesc {s : List Char} (hs : s ∈ INTERCEPTED_STARTS) : ∃ t, s = '\x1b' :: t := by
      rcases List.mem_pair.mp hs with rfl | rfl
      · exact ⟨_, rfl⟩
      · exact ⟨_, rfl⟩
    refine ⟨fun s hs hp => ?_, fun s hs hp => ?_⟩
    · obtain ⟨t, rfl⟩ := hesc hs
      exact hne (hp.subset (List.mem_cons_self ..))
    · obtain ⟨t, rfl⟩ := hesc hs
      cases hdrop : data.drop m with
      | nil =>
        have := congrArg List.length hdrop
        rw [List.length_drop, List.length_nil] at this
        omega
      | cons c rest =>
        rw [hdrop] at hp hne
        obtain ⟨rfl, -⟩ := List.cons_prefix_cons.mp hp
        exact hne (List.mem_cons_self ..)
  rw [List.drop_length] at hitems hheld
  rw [List.take_length] at hitems
  exact ⟨hitems.trans (List.append_nil _), hheld⟩

/-- A text is consumed by a call that finds nothing to discard. -/
theorem consumeText_reads (hd : g.discardingCommand = false) (hi : items = kittyItems consumed) (hh : g.inputBuffer = kittyHeld consumed) (data : List Char) :
    KittyReads (g.consumeText data) (consumed ++ data) (items ++ newText g (g.consumeText data)) := by
  obtain ⟨hitems, hheld⟩ := kittyItems_append consumed data
  rw [← hh, ← hi] at hitems
  rw [← hh] at hheld
  unfold KittyGraphics.consumeText
  simp only [hd, Bool.false_eq_true, if_false]
  split
  · rename_i hfast
    obtain ⟨hb, -, -, hplain⟩ := hfast
    obtain ⟨hitems', hheld'⟩ := kittyItems_plain hplain
    rw [hb, List.nil_append] at hitems hheld
    rw [newText_append [data] rfl, List.flatten_singleton]
    refine .reading [] rfl (by simp only [hb]; exact .wroteAll) ?_ (hheld.trans hheld').symm
    rw [hitems, hitems']
    exact List.append_nil _
  · have hsame : SameStream g (g.observeTerminalControls data) := by
      unfold KittyGraphics.observeTerminalControls
      simp only
      split <;> exact ⟨rfl, rfl, rfl⟩
    have hwritten : (g.observeTerminalControls data).written = g.written := by
      unfold KittyGraphics.observeTerminalControls
      simp only
      split <;> rfl
    rw [newText_append [] (by simp only [hwritten, List.append_nil])]
    refine .reading (g.inputBuffer ++ data) (hsame.discardingCommand.trans hd) ?_ (by rw [hitems]; simp) hheld.symm
    simp only [hsame.inputBuffer]
    exact .loop

theorem singleton_suffix_iff {c : Char} {l : List Char} : [c] <:+ l ↔ l.getLast? = some c := by
  rw [List.getLast?_eq_some_iff]
  exact ⟨fun ⟨t, h⟩ => ⟨t, h.symm⟩, fun ⟨t, h⟩ => ⟨t, h.symm⟩⟩

theorem length_le_of_front {s t : List Char} (h : s <+: t) : Js.length s ≤ Js.length t := by
  obtain ⟨r, rfl⟩ := h
  unfold Js.length
  rw [List.map_append, List.sum_append]
  omega

/-- A command that is too long does not end any more. -/
theorem long_unterminated {rest data : List Char} (hend : indexOf KITTY_END rest = none)
    (hlong : KITTY_MAX_COMMAND_CHARS < Js.length (KITTY_START ++ rest)) (hshort : KittyShort (KITTY_START ++ rest ++ data)) :
    indexOf KITTY_END (rest ++ data) = none := by
  cases hfound : indexOf KITTY_END (rest ++ data) with
  | none => rfl
  | some n =>
    exfalso
    have hp : KITTY_START <+: KITTY_START ++ rest ++ data := by
      rw [List.append_assoc]
      exact List.prefix_append ..
    have hdrop : (KITTY_START ++ rest ++ data).drop KITTY_START.length = rest ++ data := by
      rw [List.append_assoc, List.drop_left]
    have hends : indexOf KITTY_END ((KITTY_START ++ rest ++ data).drop KITTY_START.length) = some n := by rw [hdrop, hfound]
    have hne : KITTY_START ++ rest ++ data ≠ [] := by
      intro h0
      rw [h0] at hp
      exact absurd hp.length_le (by decide)
    obtain ⟨hle, hpn, -⟩ := indexOf_some hfound
    have hpast : rest.length < n + KITTY_END.length := by
      by_contra hge
      apply indexOf_none hend n
      rw [List.drop_append_of_le_length (by omega)] at hpn
      exact List.prefix_of_prefix_length_le hpn (List.prefix_append ..) (by rw [List.length_drop]; omega)
    have hshort := hshort _ (by
      rw [(kittyItems_take hne (kittyFront_command hp hends)).1]
      exact List.mem_append_left _ (List.mem_singleton_self _))
    have hsource := command_source hp hends
    rw [hdrop] at hshort hsource
    have hprefix : KITTY_START ++ rest <+: (KittyItem.command ((rest ++ data).take n)).source := by
      apply List.prefix_of_prefix_length_le (List.prefix_append (KITTY_START ++ rest) data)
      · rw [hsource]
        exact List.prefix_append ..
      · unfold KittyItem.source
        simp only [List.length_append] at hle ⊢
        rw [List.length_take_of_le (by rw [List.length_append]; omega)]
        omega
    have := length_le_of_front hprefix
    omega

/-- What is kept of a text that is thrown away is its end. -/
theorem kept_suffix {text : List Char} : (if ['\x1b'].isSuffixOf text then ['\x1b'] else []) <:+ text := by
  split
  · rename_i h
    exact List.isSuffixOf_iff_suffix.mp h
  · exact List.nil_suffix

theorem kept_suffix_rest {rest : List Char} (hne : rest ≠ []) :
    (if ['\x1b'].isSuffixOf (KITTY_START ++ rest) then ['\x1b'] else []) <:+ rest := by
  split
  · rename_i h
    have hs := singleton_suffix_iff.mp (List.isSuffixOf_iff_suffix.mp h)
    rw [List.getLast?_append_of_ne_nil _ hne] at hs
    exact singleton_suffix_iff.mpr hs
  · exact List.nil_suffix

theorem indexOf_none_of_suffix {part s t : List Char} (hs : s <:+ t) (h : indexOf part t = none) : indexOf part s = none := by
  obtain ⟨front, rfl⟩ := hs
  cases hf : indexOf part s with
  | none => rfl
  | some n =>
    exfalso
    apply indexOf_none h (front.length + n)
    rw [← List.drop_drop, List.drop_left]
    exact (indexOf_some hf).2.1

/-- What is consumed while a long command is thrown away. -/
theorem discarding_reads {rest : List Char} (hd : g.discardingCommand = true) (hc : g.consuming = .idle)
    (hi : items = kittyItems consumed) (hh : kittyHeld consumed = KITTY_START ++ rest) (hend : indexOf KITTY_END rest = none)
    (hlong : KITTY_MAX_COMMAND_CHARS < Js.length (KITTY_START ++ rest))
    (hb : g.inputBuffer = (if ['\x1b'].isSuffixOf (KITTY_START ++ rest) then ['\x1b'] else [])) {data : List Char}
    (hshort : KittyShort (consumed ++ data)) :
    KittyReads (g.consumeText data) (consumed ++ data) (items ++ newText g (g.consumeText data)) := by
  obtain ⟨hitems, hheld⟩ := kittyItems_append consumed data
  rw [hh] at hitems hheld
  have hnone : indexOf KITTY_END (rest ++ data) = none := by
    refine long_unterminated hend hlong fun body hbody => hshort body ?_
    rw [hitems]
    exact List.mem_append_right _ hbody
  have hhold : kittyFront (KITTY_START ++ rest ++ data) = .hold := by
    rw [List.append_assoc]
    exact kittyFront_unterminated (List.prefix_append ..) (by rw [List.drop_left]; exact hnone)
  obtain ⟨hnothing, hall⟩ := kittyItems_hold hhold
  have hne : rest ≠ [] := by
    rintro rfl
    exact absurd hlong (by decide)
  have hlast (more : List Char) : (KITTY_START ++ rest ++ more).getLast? = more.getLast?.or rest.getLast? := by
    rw [List.getLast?_append, List.getLast?_append]
    cases hl : rest.getLast? with
    | none => exact absurd (List.getLast?_eq_none_iff.mp hl) hne
    | some c => rfl
  have hbuffer : g.inputBuffer.getLast? = if rest.getLast? = some '\x1b' then some '\x1b' else none := by
    have h0 := hlast []
    rw [List.append_nil] at h0
    rw [hb]
    simp only [List.isSuffixOf_iff_suffix, singleton_suffix_iff, h0, List.getLast?_nil, Option.none_or]
    split <;> rfl
  have hcombined : indexOf KITTY_END (g.inputBuffer ++ data) = none := by
    obtain ⟨front, hfront⟩ := hb ▸ kept_suffix_rest hne
    refine indexOf_none_of_suffix ⟨front, ?_⟩ hnone
    rw [← List.append_assoc, hfront]
  have hstep : g.consumeText data =
      { g with inputBuffer := if ['\x1b'].isSuffixOf (g.inputBuffer ++ data) then ['\x1b'] else [] } := by
    unfold KittyGraphics.consumeText
    simp only [hd, if_true, hcombined]
  have hquiet : (g.consumeText data).written = g.written ++ [] := by rw [hstep, List.append_nil]
  rw [newText_append [] hquiet, hstep, List.flatten_nil, List.map_nil, List.append_nil]
  rw [List.append_assoc] at hheld hitems hall hnothing
  refine .discarding (rest ++ data) hd hc (by rw [hitems, hi, hnothing, List.append_nil]) (hheld.trans hall) hnone ?_ ?_
  · rw [← List.append_assoc]
    exact Nat.lt_of_lt_of_le hlong (length_le_of_front (List.prefix_append ..))
  · simp only [List.isSuffixOf_iff_suffix, singleton_suffix_iff, ← List.append_assoc, hlast, List.getLast?_append, hbuffer]
    congr 1
    apply propext
    cases data.getLast? with
    | some c => rfl
    | none =>
      simp only [Option.none_or]
      split
      · rename_i hesc
        simp [hesc]
      · rename_i hesc
        simp [hesc]

/-- Nothing else that happens touches the stream. -/
theorem KittyReads.same {g' : KittyGraphics} (h : KittyReads g consumed items) (hs : SameStream g g') :
    KittyReads g' consumed items := by
  cases h with
  | reading rest hd hrest hi hh =>
    exact .reading rest (hs.discardingCommand.trans hd) (by rw [hs.consuming, hs.inputBuffer]; exact hrest) hi hh
  | discarding rest hd hidle hi hh hend hlong hb =>
    exact .discarding rest (hs.discardingCommand.trans hd) (hs.consuming.trans hidle) hi hh hend hlong (hs.inputBuffer.trans hb)

theorem KittyShort.of_append {stream more : List Char} (h : KittyShort (stream ++ more)) : KittyShort stream := by
  intro body hbody
  apply h body
  rw [(kittyItems_append stream more).1]
  exact List.mem_append_left _ hbody

theorem KittyReads.idle (h : KittyReads g consumed items) (hc : g.consuming = .idle) : items = kittyItems consumed := by
  cases h with
  | discarding rest _ _ hi => exact hi
  | reading rest _ hrest hi _ =>
    rw [hc] at hrest
    cases hrest with
    | idle hwaits =>
      rw [hwaits.items.1, List.append_nil] at hi
      exact hi
    | moving hm => cases hm

theorem consumed_reads (h : KittyReads g consumed items) (hc : g.consuming = .idle) {data : List Char}
    (hshort : KittyShort (consumed ++ data)) :
    KittyReads (g.consumeText data) (consumed ++ data) (items ++ newText g (g.consumeText data)) := by
  have hi := h.idle hc
  cases h with
  | discarding rest hd _ _ hh hend hlong hb => exact discarding_reads hd hc hi hh hend hlong hb hshort
  | reading rest hd hrest _ hh =>
    refine consumeText_reads hd hi ?_ data
    rw [hc] at hrest
    generalize hb : g.inputBuffer = buffer at hrest ⊢
    cases hrest with
    | idle hwaits => rw [← hh, hwaits.items.2]
    | moving hm => cases hm

/-- A step of the run. -/
theorem kittyRun_step {r r' : KittyRun} {e : KittyEvent} (h : KittyReads r.graphics r.consumed r.items) (he : e.Goes)
    (hshort : KittyShort r'.consumed) (hs : (kittyRunMachine number).step r e = some r') :
    KittyReads r'.graphics r'.consumed r'.items := by
  obtain ⟨g', hg, rfl⟩ := Option.map_eq_some_iff.mp hs
  have hquiet (hsame : SameStream r.graphics g') (hno : r.graphics.handed g' e = []) (htext : e.text = []) :
      KittyReads g' (r.consumed ++ e.text) (r.items ++ r.graphics.handed g' e) := by
    rw [hno, htext, List.append_nil, List.append_nil]
    exact h.same hsame
  cases e with
  | clear | writeFailed => exact he.elim
  | consumeText data =>
    simp only [KittyGraphics.step] at hg
    split at hg
    · rename_i hcan
      cases hg
      have hidle : r.graphics.consuming = .idle := by
        unfold KittyGraphics.canConsume at hcan
        split at hcan
        · assumption
        · cases hcan
      exact consumed_reads h hidle hshort
    · cases hg
  | resume answers =>
    have hr := resume_reads h hg
    rw [← List.append_nil r.consumed] at hr
    exact hr
  | decoded promise width height =>
    obtain ⟨d, -, rfl⟩ := Option.map_eq_some_iff.mp hg
    exact hquiet (SameStream.decodeDone ..) rfl rfl
  | decodeFailed promise =>
    obtain ⟨d, -, rfl⟩ := Option.map_eq_some_iff.mp hg
    exact hquiet (SameStream.decodeFailed ..) rfl rfl
  | finished promise =>
    obtain ⟨d, -, rfl⟩ := Option.map_eq_some_iff.mp hg
    exact hquiet ⟨rfl, rfl, rfl⟩ rfl rfl
  | putReady index =>
    simp only [KittyGraphics.step] at hg
    split at hg
    · cases hg
    · split at hg
      · cases hg
        have hput : SameStream r.graphics (r.graphics.putReady number ‹KittyPut›) := SameStream.putReady ..
        exact hquiet ⟨hput.inputBuffer, hput.discardingCommand, hput.consuming⟩ rfl rfl
      · cases hg
  | clearPlacements =>
    cases hg
    exact hquiet ⟨rfl, rfl, rfl⟩ rfl rfl

/-! ## The call comes to its end -/

/-- A bound on the steps the call still takes. -/
def KittyGraphics.left (g : KittyGraphics) : Nat :=
  match g.consuming with
  | .idle => 0
  | .wroteAll | .wroteTail _ => 1
  | .loop => 2 * g.inputBuffer.length + 2
  | .wroteBefore index _ => 2 * (g.inputBuffer.length - index) + 3
  | .moving .. => 2 * g.inputBuffer.length + 3

theorem StreamGoes.left {g' : KittyGraphics} (h : StreamGoes g g') (hc : g.consuming = .loop) :
    g'.left ≤ 2 * g.inputBuffer.length + 3 := by
  unfold KittyGraphics.left
  rw [h.inputBuffer]
  rcases h.consuming with he | hm
  · rw [he, hc]
    simp only
    omega
  · split <;> omega

theorem left_idle (h : g.consuming = .idle) : g.left = 0 := by
  unfold KittyGraphics.left
  rw [h]

theorem intercept_left {sequence : List Char} (hs : sequence ∈ INTERCEPTED_STARTS) (hp : sequence <+: g.inputBuffer)
    (answers : KittyAnswers) : (g.intercept number sequence answers).left < 2 * g.inputBuffer.length + 2 := by
  have hlen := hp.length_le
  unfold KittyGraphics.intercept
  rcases List.mem_pair.mp hs with rfl | rfl
  · have h3 : KITTY_START.length = 3 := rfl
    rw [if_neg (by decide)]
    split
    · simp only
      split <;> (rw [left_idle rfl]; omega)
    · rename_i length _
      have hgo : StreamGoes _ ({ g with
          inputBuffer := g.inputBuffer.drop (KITTY_START.length + length + KITTY_END.length)
          consuming := .loop }.handleCommand number ((g.inputBuffer.drop KITTY_START.length).take length) answers) :=
        SameStream.handleCommand ..
      have hgo := hgo.left rfl
      simp only [List.length_drop] at hgo
      simp only
      omega
  · have h5 : WINDOW_PIXEL_SIZE_QUERY.length = 5 := rfl
    rw [if_pos rfl]
    simp only
    split
    · split <;> (unfold KittyGraphics.left; simp only [List.length_drop]; omega)
    · unfold KittyGraphics.left
      simp only [List.length_drop]
      omega

theorem round_left (answers : KittyAnswers) : (g.round number answers).left < 2 * g.inputBuffer.length + 2 := by
  cases hn : nextInterceptedSequence g.inputBuffer with
  | none =>
    by_cases hne : g.inputBuffer = []
    · rw [round_nil hne, left_idle rfl]
      omega
    · rw [round_none hn hne]
      split
      · simp only [KittyGraphics.left]
        omega
      · rw [left_idle rfl]
        omega
  | some found =>
    obtain ⟨index, sequence⟩ := found
    obtain ⟨hs, hp, hle, -⟩ := nextInterceptedSequence_some hn
    rw [round_some hn]
    cases index with
    | zero => exact intercept_left hs hp answers
    | succ index =>
      rw [if_pos (Nat.succ_pos index)]
      simp only [KittyGraphics.left]
      omega

/-- Each step takes the call nearer to its end. -/
theorem resume_left (h : KittyReads g consumed items) (hc : g.consuming ≠ .idle) (answers : KittyAnswers) :
    ∃ g', g.resume number answers = some g' ∧ g'.left < g.left := by
  cases h with
  | discarding rest _ hidle => exact absurd hidle hc
  | reading rest hd hrest hi hh =>
    unfold KittyGraphics.resume
    generalize hw : g.consuming = consuming at hc hrest ⊢
    generalize hb : g.inputBuffer = buffer at hrest
    cases hrest with
    | idle _ => exact absurd rfl hc
    | loop =>
      refine ⟨_, rfl, ?_⟩
      have hbound : g.left = 2 * g.inputBuffer.length + 2 := by
        unfold KittyGraphics.left
        rw [hw]
      rw [hbound]
      exact round_left answers
    | wroteAll =>
      refine ⟨_, rfl, ?_⟩
      rw [left_idle rfl]
      unfold KittyGraphics.left
      rw [hw]
      exact Nat.one_pos
    | wroteTail keep _ =>
      refine ⟨_, rfl, ?_⟩
      rw [left_idle rfl]
      unfold KittyGraphics.left
      rw [hw]
      exact Nat.one_pos
    | wroteBefore index sequence hn =>
      subst hb
      obtain ⟨hs, hp, -, -⟩ := nextInterceptedSequence_some hn
      refine ⟨_, rfl, ?_⟩
      have hlt : ({ g with inputBuffer := g.inputBuffer.drop index }.intercept number sequence answers).left <
          2 * (g.inputBuffer.drop index).length + 2 := intercept_left hs hp answers
      have hbound : g.left = 2 * (g.inputBuffer.length - index) + 3 := by
        unfold KittyGraphics.left
        rw [hw]
      rw [hw, List.length_drop] at hlt
      omega
    | moving hm =>
      subst hb
      cases consuming with
      | moving transfer cursor generation placementGeneration attributes =>
        refine ⟨_, rfl, ?_⟩
        have hgo := SameStream.startDecode (g := { g with consuming := .loop }) transfer cursor generation placementGeneration
        have hbound : g.left = 2 * g.inputBuffer.length + 3 := by
          unfold KittyGraphics.left
          rw [hw]
        rw [hbound]
        unfold KittyGraphics.left
        rw [hgo.inputBuffer, hgo.consuming]
        exact Nat.lt_succ_self _
      | _ => cases hm

/-- Resumed again and again, the call ends, whatever the page answers. -/
theorem resumes_end (n : Nat) : ∀ (r : KittyRun) (answers : Nat → KittyAnswers), r.graphics.left ≤ n →
    KittyReads r.graphics r.consumed r.items → KittyShort r.consumed →
    ∃ m r', (kittyRunMachine number).run r ((List.range m).map fun i => .resume (answers i)) = some r' ∧
      r'.graphics.consuming = .idle ∧ r'.consumed = r.consumed := by
  induction n with
  | zero =>
    intro r answers hn hreads _
    by_cases hc : r.graphics.consuming = .idle
    · exact ⟨0, r, rfl, hc, rfl⟩
    · obtain ⟨g', -, hlt⟩ := @resume_left number _ _ _ hreads hc (answers 0)
      omega
  | succ n ih =>
    intro r answers hn hreads hshort
    by_cases hc : r.graphics.consuming = .idle
    · exact ⟨0, r, rfl, hc, rfl⟩
    · obtain ⟨g', hg, hlt⟩ := @resume_left number _ _ _ hreads hc (answers 0)
      have hstep : (kittyRunMachine number).step r (.resume (answers 0)) = some
          ⟨g', r.consumed ++ [], r.items ++ r.graphics.handed g' (.resume (answers 0))⟩ := by
        simp only [kittyRunMachine, KittyGraphics.step, hg, Option.map_some]
        rfl
      have hnext := kittyRun_step (e := .resume (answers 0)) hreads trivial (by rw [List.append_nil]; exact hshort) hstep
      obtain ⟨m, r', hrun, hidle, hconsumed⟩ := ih _ (fun i => answers (i + 1)) (by simp only; omega) hnext
        (by rw [List.append_nil]; exact hshort)
      refine ⟨m + 1, r', ?_, hidle, hconsumed.trans (List.append_nil _)⟩
      rw [List.range_succ_eq_map, List.map_cons, List.map_map, Machine.run_cons_of_step _ _ hstep]
      exact hrun

end Steps

theorem kittyRun_reads {number : List Char → Option Rat} {es : List KittyEvent} {r : KittyRun} (he : ∀ e ∈ es, e.Goes)
    (hrun : (kittyRunMachine number).run {} es = some r) (hshort : KittyShort r.consumed) :
    KittyReads r.graphics r.consumed r.items := by
  have hinv := (kittyRunMachine number).run_inv_along (I := fun r => KittyShort r.consumed → KittyReads r.graphics r.consumed r.items)
    (fun r e r' h he hs hshort => by
      refine kittyRun_step (h ?_) he hshort hs
      obtain ⟨g', -, rfl⟩ := Option.map_eq_some_iff.mp hs
      exact hshort.of_append) hrun ((kittyRunMachine number).along_of_forall he {})
    fun _ => .reading [] rfl (.idle (.inl rfl)) rfl rfl
  exact hinv hshort

/-- However a stream is cut, the same texts, commands and queries are handed on, and they are what the whole
stream is made of; the call always comes to its end. -/
theorem kitty_cuts (number : List Char → Option Rat) {es es' : List KittyEvent} {r r' : KittyRun}
    (he : ∀ e ∈ es, e.Goes) (he' : ∀ e ∈ es', e.Goes) (hrun : (kittyRunMachine number).run {} es = some r)
    (hrun' : (kittyRunMachine number).run {} es' = some r') (hsame : r.consumed = r'.consumed)
    (hshort : KittyShort r.consumed) :
    (r.graphics.consuming = .idle → r'.graphics.consuming = .idle → r.items = r'.items ∧
      ∃ held, r.consumed = r.items.flatMap KittyItem.source ++ held ∧ KittyPending held) ∧
    ∀ answers : Nat → KittyAnswers, ∃ n t, (kittyRunMachine number).run r ((List.range n).map fun i => .resume (answers i)) =
      some t ∧ t.graphics.consuming = .idle ∧ t.consumed = r.consumed := by
  have hreads := kittyRun_reads he hrun hshort
  have hreads' := kittyRun_reads he' hrun' (hsame ▸ hshort)
  refine ⟨fun hidle hidle' => ?_, fun answers => resumes_end _ r answers (Nat.le_refl _) hreads hshort⟩
  have hitems := hreads.idle hidle
  obtain ⟨hsource, -, hpending⟩ := kittyStream r.consumed.length r.consumed (Nat.le_refl _)
  refine ⟨by rw [hitems, hreads'.idle hidle', hsame], kittyHeld r.consumed, ?_, hpending⟩
  rw [hitems]
  exact hsource.symm

/-- A text, a command that deletes all placements, and a text. -/
def deleteStream : List Char := "x\x1b_Ga=d\x1b\\y".toList

def uncutEvents : List KittyEvent := .consumeText deleteStream :: List.replicate 4 (.resume {})

def cutEvents : List KittyEvent :=
  [.consumeText (deleteStream.take 2), .resume {}, .resume {}, .consumeText ((deleteStream.drop 2).take 6), .resume {},
    .consumeText (deleteStream.drop 8), .resume {}, .resume {}, .resume {}]

theorem kitty_cuts_delete : ∃ r r', (kittyRunMachine digits).run {} cutEvents = some r ∧
    (kittyRunMachine digits).run {} uncutEvents = some r' ∧ r.items = r'.items ∧
    (∃ held, r.consumed = r.items.flatMap KittyItem.source ++ held ∧ KittyPending held) ∧
    r.items = [.text 'x', .command "a=d".toList, .text 'y'] := by
  have hitems : kittyItems deleteStream = [.text 'x', .command "a=d".toList, .text 'y'] := rfl
  have hshort : KittyShort deleteStream := by
    intro body hbody
    rw [hitems] at hbody
    simp only [List.mem_cons, reduceCtorEq, KittyItem.command.injEq, List.not_mem_nil, or_false, false_or] at hbody
    rw [hbody]
    decide
  have hgoes : ∀ e ∈ cutEvents, e.Goes := by
    simp only [cutEvents, List.forall_mem_cons]
    exact ⟨trivial, trivial, trivial, trivial, trivial, trivial, trivial, trivial, trivial, List.forall_mem_nil _⟩
  have hgoes' : ∀ e ∈ uncutEvents, e.Goes := by
    simp only [uncutEvents, List.forall_mem_cons, List.replicate]
    exact ⟨trivial, trivial, trivial, trivial, trivial, List.forall_mem_nil _⟩
  obtain ⟨hsame, hheld⟩ := (kitty_cuts digits hgoes hgoes' rfl rfl rfl hshort).1 rfl rfl
  exact ⟨_, _, rfl, rfl, hsame, hheld, rfl⟩

end Webshell
