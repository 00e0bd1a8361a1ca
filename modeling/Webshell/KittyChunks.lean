import Webshell.KittyConsumed

/-!
# Placements and chunks

A call of `consumeText` looks for terminal clears in all of its text before the
commands in it run. Two texts consumed one after the other leave the placements
that both at once leave, where no clear has come before a placement that way.
-/

namespace Webshell

/-- The text of the items, commands and queries left out. -/
def shownText (items : List KittyItem) : List Char :=
  items.filterMap fun
    | .text c => some c
    | _ => none

/-- The action of a command. -/
def kittyAction (body : List Char) : List Char :=
  ((parseAttributes (body.takeWhile (· ≠ ';'))).get "a".toList).getD "t".toList

/-- Puts, deletions and queries. -/
def KittyPlacing (body : List Char) : Prop :=
  kittyAction body = "p".toList ∨ kittyAction body = "d".toList ∨ kittyAction body = "q".toList

def KittyPlacingOnly (items : List KittyItem) : Prop := ∀ body, .command body ∈ items → KittyPlacing body

namespace KittyGraphics

/-- The graphics without the stream and what was answered. -/
def core (g : KittyGraphics) : KittyGraphics :=
  { g with
    inputBuffer := [], terminalControlBuffer := [], discardingCommand := false, consuming := .idle, written := []
    responses := [], placementGeneration := 0 }

section Numbers

variable (number : List Char → Option Rat) (cursorAt : List Char → KittyCursor)

/-- What items do, after a text that decides where the cursor is. -/
def applyItems : KittyGraphics → List Char → List KittyItem → KittyGraphics
  | g, _, [] => g
  | g, text, .text c :: items => applyItems g (text ++ [c]) items
  | g, text, .query :: items => applyItems g text items
  | g, text, .command body :: items => applyItems (g.handleCommand number body { cursor := cursorAt text }) text items

end Numbers

end KittyGraphics

/-- A call of `consumeText` runs to its end; the text handed on grows. -/
inductive KittyCall (number : List Char → Option Rat) (cursorAt : List Char → KittyCursor) :
    KittyGraphics → List Char → KittyGraphics → List Char → Prop
  | done {g : KittyGraphics} {text : List Char} : g.consuming = .idle → KittyCall number cursorAt g text g text
  | resume {g g₁ g' : KittyGraphics} {text text' : List Char} (answers : KittyAnswers) : answers.cursor = cursorAt text →
    g.resume number answers = some g₁ →
    KittyCall number cursorAt g₁ (text ++ shownText (g.handed g₁ (.resume answers))) g' text' →
    KittyCall number cursorAt g text g' text'

/-- `data` is consumed. -/
def KittyConsumes (number : List Char → Option Rat) (cursorAt : List Char → KittyCursor) (g : KittyGraphics)
    (text data : List Char) (g' : KittyGraphics) (text' : List Char) : Prop :=
  KittyCall number cursorAt (g.consumeText data) (text ++ shownText (newText g (g.consumeText data))) g' text'

/-! ## Commands and the core -/

section Core

variable {number : List Char → Option Rat} {cursorAt : List Char → KittyCursor} {g h : KittyGraphics}

open KittyGraphics

theorem place_core (image : KittyImage) (imageId : Rat) (attributes : KittyAttributes) (cursor : KittyCursor) :
    (g.place number image imageId attributes cursor).core = (g.core.place number image imageId attributes cursor).core := by
  unfold place
  simp only [core]
  split <;> split <;> rfl

theorem put_core (hl : g.loading = ∅) (imageId : Rat) (attributes : KittyAttributes) (cursor : KittyCursor) :
    (g.put number imageId attributes cursor).core = (g.core.put number imageId attributes cursor).core := by
  unfold put
  have hi : g.core.images = g.images := rfl
  have hll : g.core.loading = ∅ := hl
  rw [hi, hl, hll]
  split
  · exact place_core ..
  · rfl

theorem delete_core (attributes : KittyAttributes) (imageId : Rat) :
    (g.delete number attributes imageId).core = (g.core.delete number attributes imageId).core := by
  unfold delete
  have hi : g.core.images = g.images := rfl
  simp only [hi]
  split
  · rfl
  · split
    · rfl
    · split
      · cases g.images.get imageId <;> rfl
      · split <;> rfl

theorem query_core (attributes : KittyAttributes) (imageId : Rat) :
    (g.query number attributes imageId).core = (g.core.query number attributes imageId).core := by
  unfold query
  simp only
  split
  · rfl
  · split
    · rfl
    · split <;> rfl

theorem impliedImageId_core : g.core.impliedImageId = (g.impliedImageId.1, g.impliedImageId.2.core) := by
  unfold impliedImageId
  have ht : g.core.transfers = g.transfers := rfl
  rw [ht]
  split
  · split <;> rfl
  · rfl

/-- The graphics a command is run on, with the number its image may have got. -/
def afterImplied (number : List Char → Option Rat) (g : KittyGraphics) (attributes : KittyAttributes) : KittyGraphics :=
  if numeric number attributes "i" 0 = 0 then g.impliedImageId.2 else g

def commandImage (number : List Char → Option Rat) (g : KittyGraphics) (attributes : KittyAttributes) : Rat :=
  if numeric number attributes "i" 0 = 0 then g.impliedImageId.1 else numeric number attributes "i" 0

/-- A put, a deletion or a query, with what it is run on. -/
theorem handleCommand_placing {body : List Char} (hp : KittyPlacing body) (answers : KittyAnswers) :
    let attributes := parseAttributes (body.takeWhile (· ≠ ';'))
    g.handleCommand number body answers =
      if kittyAction body = "p".toList then
        (afterImplied number g attributes).put number (commandImage number g attributes) attributes answers.cursor
      else if kittyAction body = "d".toList then
        (afterImplied number g attributes).delete number attributes (commandImage number g attributes)
      else (afterImplied number g attributes).query number attributes (commandImage number g attributes) := by
  have hpd : "p".toList ≠ "d".toList := by decide
  have hpq : "p".toList ≠ "q".toList := by decide
  have hqd : "q".toList ≠ "d".toList := by decide
  simp only
  unfold handleCommand
  rcases hp with hp | hp | hp
  · rw [if_pos hp]
    unfold kittyAction at hp
    simp only
    rewrite [if_neg fun h => hpd (hp.symm.trans h), if_neg fun h => hpq (hp.symm.trans h), if_pos hp]
    rfl
  · have hnp : kittyAction body ≠ "p".toList := fun h => hpd (h.symm.trans hp)
    rw [if_neg hnp, if_pos hp]
    unfold kittyAction at hp
    rewrite [if_pos hp]
    rfl
  · have hnp : kittyAction body ≠ "p".toList := fun h => hpq (h.symm.trans hp)
    have hnd : kittyAction body ≠ "d".toList := fun h => hqd (hp.symm.trans h)
    rw [if_neg hnp, if_neg hnd]
    unfold kittyAction at hp hnd
    rewrite [if_neg hnd, if_pos hp]
    rfl

theorem afterImplied_core (attributes : KittyAttributes) :
    afterImplied number g.core attributes = (afterImplied number g attributes).core := by
  unfold afterImplied
  rw [impliedImageId_core]
  split <;> rfl

theorem commandImage_core (attributes : KittyAttributes) :
    commandImage number g.core attributes = commandImage number g attributes := by
  unfold commandImage
  rw [impliedImageId_core]

theorem afterImplied_loading (attributes : KittyAttributes) : (afterImplied number g attributes).loading = g.loading := by
  unfold afterImplied impliedImageId
  split
  · split
    · split <;> rfl
    · rfl
  · rfl

theorem handleCommand_core (hl : g.loading = ∅) {body : List Char} (hp : KittyPlacing body) (answers : KittyAnswers) :
    (g.handleCommand number body answers).core = (g.core.handleCommand number body answers).core := by
  rw [handleCommand_placing hp, handleCommand_placing hp, afterImplied_core, commandImage_core]
  split
  · exact put_core (by rw [afterImplied_loading, hl]) ..
  · split
    · exact delete_core ..
    · exact query_core ..

/-- Of what the page answers, only the cursor counts. -/
theorem handleCommand_answers {body : List Char} (hp : KittyPlacing body) {answers answers' : KittyAnswers}
    (hc : answers.cursor = answers'.cursor) : g.handleCommand number body answers = g.handleCommand number body answers' := by
  rw [handleCommand_placing hp, handleCommand_placing hp, hc]

theorem place_loading (image : KittyImage) (imageId : Rat) (attributes : KittyAttributes) (cursor : KittyCursor) :
    (g.place number image imageId attributes cursor).loading = g.loading := by
  unfold place
  simp only
  split <;> split <;> rfl

theorem handleCommand_loading (hl : g.loading = ∅) {body : List Char} (hp : KittyPlacing body) (answers : KittyAnswers) :
    (g.handleCommand number body answers).loading = ∅ := by
  rw [handleCommand_placing hp]
  have hi : (afterImplied number g (parseAttributes (body.takeWhile (· ≠ ';')))).loading = ∅ :=
    (afterImplied_loading _).trans hl
  generalize afterImplied number g (parseAttributes (body.takeWhile (· ≠ ';'))) = next at hi ⊢
  split
  · unfold put
    rw [hi]
    split
    · rw [place_loading, hi]
    · exact hi
  · split
    · unfold delete
      simp only
      split
      · exact hi
      · split
        · rfl
        · split
          · cases next.images.get (commandImage number g (parseAttributes (body.takeWhile (· ≠ ';')))) with
            | none => simp only [hi]; rfl
            | some image => simp only [releaseImage, hi]; rfl
          · split <;> exact hi
    · unfold query
      simp only
      split
      · exact hi
      · split
        · exact hi
        · split <;> exact hi

/-- Without puts, clearing the placements first or last is the same. -/
theorem handleCommand_clear {body : List Char} (hp : KittyPlacing body) (hput : kittyAction body ≠ "p".toList)
    (answers : KittyAnswers) :
    (g.handleCommand number body answers).clearPlacements.core = (g.clearPlacements.handleCommand number body answers).core := by
  rw [handleCommand_placing hp, handleCommand_placing hp, if_neg hput, if_neg hput]
  have hi (attributes : KittyAttributes) :
      afterImplied number g.clearPlacements attributes = (afterImplied number g attributes).clearPlacements ∧
        commandImage number g.clearPlacements attributes = commandImage number g attributes := by
    unfold afterImplied commandImage impliedImageId
    have ht : g.clearPlacements.transfers = g.transfers := rfl
    rw [ht]
    constructor
    · split
      · split
        · split <;> rfl
        · rfl
      · rfl
    · split
      · split
        · split <;> rfl
        · rfl
      · rfl
  rw [(hi _).1, (hi _).2]
  generalize afterImplied number g (parseAttributes (body.takeWhile (· ≠ ';'))) = next
  generalize commandImage number g (parseAttributes (body.takeWhile (· ≠ ';'))) = imageId
  split
  · unfold delete
    have him : next.clearPlacements.images = next.images := rfl
    simp only [him]
    split
    · rfl
    · split
      · rfl
      · split
        · cases next.images.get imageId <;> rfl
        · split <;> rfl
  · unfold query
    simp only
    split
    · rfl
    · split
      · rfl
      · split <;> rfl

/-! ## Items and the core -/

theorem applyItems_append (items more : List KittyItem) : ∀ (g : KittyGraphics) (text : List Char),
    g.applyItems number cursorAt text (items ++ more) =
      (g.applyItems number cursorAt text items).applyItems number cursorAt (text ++ shownText items) more := by
  induction items with
  | nil =>
    intro g text
    rw [List.nil_append, shownText, List.filterMap_nil, List.append_nil]
    rfl
  | cons item items ih =>
    intro g text
    cases item with
    | text c =>
      have ht : shownText (.text c :: items) = c :: shownText items := rfl
      rw [ht, List.cons_append, List.append_cons]
      exact ih g (text ++ [c])
    | command body => exact ih _ text
    | query => exact ih g text

theorem applyItems_text (texts : List Char) : ∀ (g : KittyGraphics) (text : List Char),
    g.applyItems number cursorAt text (texts.map .text) = g := by
  induction texts with
  | nil => exact fun _ _ => rfl
  | cons c texts ih => exact fun g text => ih g (text ++ [c])

theorem KittyPlacingOnly.tail {item : KittyItem} {items : List KittyItem} (h : KittyPlacingOnly (item :: items)) :
    KittyPlacingOnly items := fun body hb => h body (List.mem_cons_of_mem _ hb)

/-- Items do to the core what they do to the graphics. -/
theorem applyItems_core {items : List KittyItem} (hp : KittyPlacingOnly items) : ∀ {g h : KittyGraphics} (text : List Char),
    g.loading = ∅ → g.core = h.core →
    (g.applyItems number cursorAt text items).core = (h.applyItems number cursorAt text items).core := by
  induction items with
  | nil => exact fun _ _ he => he
  | cons item items ih =>
    intro g h text hl he
    have hlh : h.loading = ∅ := by
      have := congrArg KittyGraphics.loading he
      exact this.symm.trans hl
    cases item with
    | text c => exact ih hp.tail (text ++ [c]) hl he
    | query => exact ih hp.tail text hl he
    | command body =>
      have hb := hp body (List.mem_cons_self ..)
      refine ih hp.tail text (handleCommand_loading hl hb _) ?_
      rw [handleCommand_core hl hb, handleCommand_core hlh hb, he]

theorem applyItems_loading {items : List KittyItem} (hp : KittyPlacingOnly items) : ∀ {g : KittyGraphics} (text : List Char),
    g.loading = ∅ → (g.applyItems number cursorAt text items).loading = ∅ := by
  induction items with
  | nil => exact fun _ hl => hl
  | cons item items ih =>
    intro g text hl
    cases item with
    | text c => exact ih hp.tail (text ++ [c]) hl
    | query => exact ih hp.tail text hl
    | command body => exact ih hp.tail text (handleCommand_loading hl (hp body (List.mem_cons_self ..)) _)

theorem applyItems_clear {items : List KittyItem} (hp : KittyPlacingOnly items)
    (hput : ∀ body, .command body ∈ items → kittyAction body ≠ "p".toList) : ∀ {g : KittyGraphics} (text : List Char),
    g.loading = ∅ → (g.applyItems number cursorAt text items).clearPlacements.core =
      (g.clearPlacements.applyItems number cursorAt text items).core := by
  induction items with
  | nil => exact fun _ _ => rfl
  | cons item items ih =>
    intro g text hl
    have hput' : ∀ body, .command body ∈ items → kittyAction body ≠ "p".toList :=
      fun body hb => hput body (List.mem_cons_of_mem _ hb)
    cases item with
    | text c => exact ih hp.tail hput' (text ++ [c]) hl
    | query => exact ih hp.tail hput' text hl
    | command body =>
      have hb := hp body (List.mem_cons_self ..)
      have hloading : (g.handleCommand number body { cursor := cursorAt text }).loading = ∅ := handleCommand_loading hl hb _
      refine (ih hp.tail hput' text hloading).trans ?_
      exact applyItems_core hp.tail text hloading (handleCommand_clear hb (hput body (List.mem_cons_self ..)) _)

/-! ## One call -/

/-- A command that has not ended and is longer than the buffer may get. -/
def LongHeld (held : List Char) : Prop := KITTY_START <+: held ∧ KITTY_MAX_COMMAND_CHARS < Js.length held

instance (held : List Char) : Decidable (LongHeld held) := inferInstanceAs (Decidable (_ ∧ _))

/-- Where a call that decodes nothing may stand; at its end nothing too long is left in the buffer. -/
def AtRest (g : KittyGraphics) : Prop :=
  match g.consuming with
  | .idle => g.discardingCommand = false → ¬ LongHeld g.inputBuffer
  | .loop | .wroteBefore .. => True
  | .wroteAll => g.inputBuffer = []
  | .wroteTail keep => keep < WINDOW_PIXEL_SIZE_QUERY.length
  | .moving .. => False

theorem atRest_of_loop (h : g.consuming = .loop) : AtRest g := by
  unfold AtRest
  rw [h]
  trivial

theorem not_long_of_length {held : List Char} (h : held.length < WINDOW_PIXEL_SIZE_QUERY.length) : ¬ LongHeld held := by
  rintro ⟨-, hlong⟩
  have hle (l : List Char) : Js.length l ≤ 2 * l.length := by
    unfold Js.length
    induction l with
    | nil => exact Nat.le_refl 0
    | cons c l ih =>
      rw [List.map_cons, List.sum_cons, List.length_cons]
      split <;> omega
  have hh := hle held
  have h5 : WINDOW_PIXEL_SIZE_QUERY.length = 5 := rfl
  have hmax : 10 < KITTY_MAX_COMMAND_CHARS := by decide
  omega

/-- What a step of a call does that hands `items` on. -/
structure CallStep (number : List Char → Option Rat) (cursorAt : List Char → KittyCursor) (g g' : KittyGraphics)
    (text : List Char) (items : List KittyItem) : Prop where
  core : g'.core = (g.applyItems number cursorAt text items).core
  loading : g'.loading = ∅
  control : g'.terminalControlBuffer = g.terminalControlBuffer
  atRest : AtRest g'

theorem put_control (hl : g.loading = ∅) (imageId : Rat) (attributes : KittyAttributes) (cursor : KittyCursor) :
    (g.put number imageId attributes cursor).terminalControlBuffer = g.terminalControlBuffer := by
  unfold put
  rw [hl]
  split
  · unfold place
    simp only
    split <;> split <;> rfl
  · rfl

theorem delete_control (attributes : KittyAttributes) (imageId : Rat) :
    (g.delete number attributes imageId).terminalControlBuffer = g.terminalControlBuffer := by
  unfold delete
  simp only
  split
  · rfl
  · split
    · rfl
    · split
      · cases g.images.get imageId <;> rfl
      · split <;> rfl

theorem query_control (attributes : KittyAttributes) (imageId : Rat) :
    (g.query number attributes imageId).terminalControlBuffer = g.terminalControlBuffer := by
  unfold query
  simp only
  split
  · rfl
  · split
    · rfl
    · split <;> rfl

theorem handleCommand_stream (hl : g.loading = ∅) {body : List Char} (hp : KittyPlacing body) (answers : KittyAnswers) :
    (g.handleCommand number body answers).terminalControlBuffer = g.terminalControlBuffer ∧
      (g.handleCommand number body answers).consuming = g.consuming := by
  rw [handleCommand_placing hp]
  have hi : (afterImplied number g (parseAttributes (body.takeWhile (· ≠ ';')))).terminalControlBuffer =
      g.terminalControlBuffer ∧ (afterImplied number g (parseAttributes (body.takeWhile (· ≠ ';')))).consuming = g.consuming := by
    unfold afterImplied impliedImageId
    split
    · split
      · split <;> exact ⟨rfl, rfl⟩
      · exact ⟨rfl, rfl⟩
    · exact ⟨rfl, rfl⟩
  have hll : (afterImplied number g (parseAttributes (body.takeWhile (· ≠ ';')))).loading = ∅ :=
    (afterImplied_loading _).trans hl
  generalize afterImplied number g (parseAttributes (body.takeWhile (· ≠ ';'))) = next at hi hll ⊢
  rw [← hi.1, ← hi.2]
  split
  · exact ⟨put_control hll .., (SameStream.put ..).consuming⟩
  · split
    · exact ⟨delete_control .., (SameStream.delete ..).consuming⟩
    · exact ⟨query_control .., (SameStream.query ..).consuming⟩

theorem command_step {body text : List Char} (hl : g.loading = ∅) (hb : KittyPlacing body) {answers : KittyAnswers}
    (hc : answers.cursor = cursorAt text) (buffer : List Char) :
    CallStep number cursorAt g ({ g with inputBuffer := buffer, consuming := .loop }.handleCommand number body answers) text
      [.command body] := by
  have hgo : ∀ h : KittyGraphics, h.loading = ∅ → h.consuming = .loop → h.core = g.core →
      h.terminalControlBuffer = g.terminalControlBuffer →
      CallStep number cursorAt g (h.handleCommand number body answers) text [.command body] := by
    intro h hh hloop hcore hcontrol
    have hkept : (h.handleCommand number body answers).terminalControlBuffer = h.terminalControlBuffer :=
      (handleCommand_stream hh hb answers).1
    have hstays : (h.handleCommand number body answers).consuming = h.consuming := (handleCommand_stream hh hb answers).2
    refine ⟨?_, handleCommand_loading hh hb answers, hkept.trans hcontrol, atRest_of_loop (hstays.trans hloop)⟩
    calc (h.handleCommand number body answers).core = (h.core.handleCommand number body answers).core :=
          handleCommand_core hh hb answers
      _ = (g.core.handleCommand number body answers).core := by rw [hcore]
      _ = (g.handleCommand number body answers).core := (handleCommand_core hl hb answers).symm
      _ = (g.handleCommand number body { cursor := cursorAt text }).core :=
          congrArg core (handleCommand_answers hb (show answers.cursor = (⟨cursorAt text, some [], none⟩ : KittyAnswers).cursor from hc))
  exact hgo _ hl rfl rfl rfl

/-- The sequence at the front of the buffer is taken. -/
theorem intercept_step {sequence : List Char} {text : List Char} (hl : g.loading = ∅)
    (hs : sequence ∈ INTERCEPTED_STARTS) (hp : KittyPlacingOnly (sequenceItems sequence g.inputBuffer)) {answers : KittyAnswers}
    (hc : answers.cursor = cursorAt text) :
    CallStep number cursorAt g (g.intercept number sequence answers) text (sequenceItems sequence g.inputBuffer) := by
  unfold intercept
  unfold sequenceItems at hp ⊢
  rcases List.mem_pair.mp hs with rfl | rfl
  · have hne : KITTY_START ≠ WINDOW_PIXEL_SIZE_QUERY := by decide
    rw [if_neg hne] at hp
    rw [if_neg hne, if_neg hne]
    cases hend : indexOf KITTY_END (g.inputBuffer.drop KITTY_START.length) with
    | none =>
      simp only
      by_cases hlong : KITTY_MAX_COMMAND_CHARS < Js.length g.inputBuffer
      · rw [if_pos hlong]
        exact ⟨rfl, hl, rfl, fun h => by cases h⟩
      · rw [if_neg hlong]
        exact ⟨rfl, hl, rfl, fun _ h => hlong h.2⟩
    | some length =>
      rw [hend] at hp
      have hb := hp _ (List.mem_singleton_self _)
      exact command_step hl hb hc _
  · rw [if_pos rfl, if_pos rfl]
    simp only
    split
    · split
      · exact ⟨rfl, hl, rfl, trivial⟩
      · exact ⟨rfl, hl, rfl, trivial⟩
    · exact ⟨rfl, hl, rfl, trivial⟩

theorem newText_step {text : List Char} {h' : KittyGraphics} (hcore : h'.core = g.core) (hl : g.loading = ∅)
    (hcontrol : h'.terminalControlBuffer = g.terminalControlBuffer) (hrest : AtRest h') :
    CallStep number cursorAt g h' text (newText g h') := by
  have hloading : h'.core.loading = g.core.loading := by rw [hcore]
  refine ⟨?_, hloading.trans hl, hcontrol, hrest⟩
  unfold newText
  rw [applyItems_text]
  exact hcore

theorem incompleteStartLength_lt (buffer : List Char) : incompleteStartLength buffer < WINDOW_PIXEL_SIZE_QUERY.length := by
  rcases (incompleteStartLength_spec buffer).2 with h0 | ⟨s, hs, hlt, -⟩
  · rw [h0]
    decide
  · rcases List.mem_pair.mp hs with rfl | rfl
    · exact Nat.lt_trans hlt (by decide)
    · exact hlt

theorem atRest_of_short (hc : g.consuming = .idle) (h : g.inputBuffer.length < WINDOW_PIXEL_SIZE_QUERY.length) : AtRest g := by
  unfold AtRest
  rw [hc]
  exact fun _ => not_long_of_length h

theorem round_step {text : List Char} (hc : g.consuming = .loop) (hl : g.loading = ∅) {answers : KittyAnswers}
    (hp : KittyPlacingOnly (g.handed (g.round number answers) (.resume answers))) (hcursor : answers.cursor = cursorAt text) :
    CallStep number cursorAt g (g.round number answers) text (g.handed (g.round number answers) (.resume answers)) := by
  unfold handed at hp ⊢
  rw [hc] at hp ⊢
  simp only at hp ⊢
  cases hn : nextInterceptedSequence g.inputBuffer with
  | none =>
    simp only
    have hkeep := incompleteStartLength_lt g.inputBuffer
    by_cases hne : g.inputBuffer = []
    · rw [round_nil hne]
      exact newText_step rfl hl rfl (atRest_of_short rfl (by simp only [hne, List.length_nil]; omega))
    · rw [round_none hn hne]
      split
      · exact newText_step rfl hl rfl hkeep
      · exact newText_step rfl hl rfl (atRest_of_short rfl (by simp only; omega))
  | some found =>
    obtain ⟨index, sequence⟩ := found
    rw [hn] at hp
    rw [round_some hn] at hp ⊢
    cases index with
    | zero =>
      rw [if_neg (Nat.lt_irrefl 0)]
      exact intercept_step hl (nextInterceptedSequence_some hn).1 hp hcursor
    | succ index =>
      rw [if_pos (Nat.succ_pos index)]
      exact newText_step rfl hl rfl trivial

theorem resume_step {consumed : List Char} {items : List KittyItem} {text : List Char} (h : KittyReads g consumed items)
    (ha : AtRest g) (hl : g.loading = ∅) {answers : KittyAnswers} {g' : KittyGraphics}
    (hr : g.resume number answers = some g') (hp : KittyPlacingOnly (g.handed g' (.resume answers)))
    (hcursor : answers.cursor = cursorAt text) :
    CallStep number cursorAt g g' text (g.handed g' (.resume answers)) := by
  cases h with
  | discarding rest _ hc =>
    unfold KittyGraphics.resume at hr
    rw [hc] at hr
    cases hr
  | reading rest hd hrest hi hh =>
    unfold KittyGraphics.resume at hr
    generalize hc : g.consuming = consuming at hr hrest
    generalize hb : g.inputBuffer = buffer at hrest
    cases hrest with
    | idle _ => cases hr
    | loop =>
      cases hr
      exact round_step hc hl hp hcursor
    | wroteAll =>
      cases hr
      simp only [handed, hc]
      exact ⟨rfl, hl, rfl, atRest_of_short rfl (by simp only [hb]; decide)⟩
    | wroteTail keep hwaits =>
      cases hr
      simp only [handed, hc]
      unfold AtRest at ha
      rw [hc] at ha
      exact ⟨rfl, hl, rfl, atRest_of_short rfl (by simp only [List.length_drop]; simp only at ha; omega)⟩
    | wroteBefore index sequence hn =>
      cases hr
      subst hb
      simp only [handed, hc] at hp ⊢
      have hstep := @intercept_step number cursorAt { g with inputBuffer := g.inputBuffer.drop index } sequence text hl
        (nextInterceptedSequence_some hn).1 hp answers hcursor
      rw [hc] at hstep
      exact ⟨hstep.core.trans (applyItems_core hp text hl rfl), hstep.loading, hstep.control, hstep.atRest⟩
    | moving hm =>
      unfold AtRest at ha
      rw [hc] at ha
      cases consuming with
      | moving transfer cursor generation placementGeneration attributes => exact ha.elim
      | _ => cases hm

theorem KittyReads.mem {consumed : List Char} {items : List KittyItem} (h : KittyReads g consumed items) :
    ∀ item ∈ items, item ∈ kittyItems consumed := by
  intro item hm
  cases h with
  | reading rest _ _ hi => exact hi ▸ List.mem_append_left _ hm
  | discarding rest _ _ hi => exact hi ▸ hm

/-- A call from any of its points to its end. -/
theorem call_core {text text' : List Char} {g' : KittyGraphics} (h : KittyCall number cursorAt g text g' text') :
    ∀ {consumed : List Char} {items : List KittyItem}, KittyReads g consumed items → AtRest g → g.loading = ∅ →
      KittyPlacingOnly (kittyItems consumed) → g'.consuming = .idle ∧ ∃ more, KittyReads g' consumed (items ++ more) ∧
        CallStep number cursorAt g g' text more ∧ text' = text ++ shownText more := by
  induction h with
  | done hc =>
    intro consumed items hreads ha hl _
    exact ⟨hc, [], by rw [List.append_nil]; exact hreads, ⟨rfl, hl, rfl, ha⟩, (List.append_nil _).symm⟩
  | resume answers hcursor hr _ ih =>
    rename_i g g₁ g' text text' _
    intro consumed items hreads ha hl hp
    have hreads' := resume_reads hreads hr
    have hplacing : KittyPlacingOnly (g.handed g₁ (.resume answers)) :=
      fun body hb => hp body (hreads'.mem _ (List.mem_append_right _ hb))
    have hstep : CallStep number cursorAt g g₁ text (g.handed g₁ (.resume answers)) :=
      resume_step hreads ha hl hr hplacing hcursor
    obtain ⟨hidle, more, hend, hmore, htext⟩ := ih hreads' hstep.atRest hstep.loading hp
    rw [List.append_assoc] at hend
    refine ⟨hidle, _, hend, ⟨?_, hmore.loading, hmore.control.trans hstep.control, hmore.atRest⟩, ?_⟩
    · rw [applyItems_append, hmore.core]
      exact applyItems_core (fun body hb => hp body (hend.mem _ (List.mem_append_right _ (List.mem_append_right _ hb)))) _
        hstep.loading hstep.core
    · rw [htext, List.append_assoc]
      congr 1
      unfold shownText
      rw [List.filterMap_append]

end Core

/-! ## Clears -/

/-- Whether the scan of `data`, after what it carries over, finds a clear. -/
def scanFinds (control data : List Char) : Bool :=
  (terminalClears 0 0 (control ++ data)).any fun found => control.length < found.1 && clearsDisplay found.2

theorem terminalClears_plain (index : Nat) : ∀ {data : List Char}, data.all (fun c => !isIntroducer c) = true →
    terminalClears 0 index data = []
  | [], _ => rfl
  | c :: rest, h => by
    rw [List.all_cons, Bool.and_eq_true, Bool.not_eq_true'] at h
    have hnone : terminalClear (c :: rest) = none := by
      unfold terminalClear
      simp only
      split
      · rename_i heq
        rw [(List.cons.inj heq).1] at h
        exact absurd h.1 (by decide)
      · rename_i heq
        rw [(List.cons.inj heq).1] at h
        exact absurd h.1 (by decide)
      · rename_i heq
        rw [(List.cons.inj heq).1] at h
        exact absurd h.1 (by decide)
      · rfl
    unfold terminalClears
    rw [if_neg (Nat.lt_irrefl 0), hnone]
    exact terminalClears_plain (index + 1) h.2
termination_by data => data.length

theorem lastIntroducer_plain : ∀ {data : List Char}, data.all (fun c => !isIntroducer c) = true → lastIntroducer data = none
  | [], _ => rfl
  | c :: rest, h => by
    rw [List.all_cons, Bool.and_eq_true, Bool.not_eq_true'] at h
    unfold lastIntroducer
    rw [lastIntroducer_plain h.2, h.1]
    rfl

namespace KittyGraphics

/-- The graphics after the scan of a text. -/
def scanned (g : KittyGraphics) (data : List Char) : KittyGraphics :=
  if scanFinds g.terminalControlBuffer data = true then g.clearPlacements else g

end KittyGraphics

section Calls

variable {number : List Char → Option Rat} {cursorAt : List Char → KittyCursor} {g : KittyGraphics}

theorem observed (data : List Char) : g.observeTerminalControls data =
    { g.scanned data with terminalControlBuffer := incompleteTerminalControlSuffix (g.terminalControlBuffer ++ data) } := by
  unfold KittyGraphics.observeTerminalControls KittyGraphics.scanned scanFinds
  simp only

/-- What a call sets out from. -/
structure CallStart (g g' : KittyGraphics) (data : List Char) : Prop where
  reads : KittyReads g' (g.inputBuffer ++ data) (newText g g')
  atRest : AtRest g'
  core : g'.core = (g.scanned data).core
  loading : g'.loading = g.loading
  control : g'.terminalControlBuffer = incompleteTerminalControlSuffix (g.terminalControlBuffer ++ data)

theorem consumeText_start (hd : g.discardingCommand = false) (data : List Char) : CallStart g (g.consumeText data) data := by
  unfold KittyGraphics.consumeText
  simp only [hd, Bool.false_eq_true, if_false]
  split
  · rename_i hfast
    obtain ⟨hb, hcontrol, -, hplain⟩ := hfast
    obtain ⟨hitems, hheld⟩ := kittyItems_plain hplain
    have hscan : scanFinds [] data = false := by
      unfold scanFinds
      rw [List.nil_append, terminalClears_plain 0 hplain]
      rfl
    have hsuffix : incompleteTerminalControlSuffix data = [] := by
      unfold incompleteTerminalControlSuffix
      rw [lastIntroducer_plain hplain]
    refine ⟨?_, hb, ?_, rfl, ?_⟩
    · rw [newText_append [data] rfl, List.flatten_singleton, hb, List.nil_append]
      refine .reading [] rfl .wroteAll ?_ hheld.symm
      rw [hitems]
      exact List.append_nil _
    · unfold KittyGraphics.scanned
      rw [hcontrol, hscan]
      simp only [Bool.false_eq_true, if_false, KittyGraphics.core]
    · simp only [hcontrol, List.nil_append, hsuffix]
  · rw [observed]
    have hs : (g.scanned data).written = g.written ∧ (g.scanned data).inputBuffer = g.inputBuffer ∧
        (g.scanned data).discardingCommand = g.discardingCommand ∧ (g.scanned data).loading = g.loading := by
      unfold KittyGraphics.scanned
      split <;> exact ⟨rfl, rfl, rfl, rfl⟩
    obtain ⟨hw, hb, hdiscard, hl⟩ := hs
    refine ⟨?_, trivial, rfl, hl, rfl⟩
    rw [newText_append [] (by simp only [hw, List.append_nil])]
    refine .reading (g.inputBuffer ++ data) (hdiscard.trans hd) ?_ (List.nil_append _) rfl
    simp only [hb]
    exact .loop

/-- The stream after a text that was read to its end. -/
structure StreamAt (g : KittyGraphics) (stream : List Char) : Prop where
  long : LongHeld (kittyHeld stream) → g.discardingCommand = true ∧ ∃ rest, kittyHeld stream = KITTY_START ++ rest ∧
    indexOf KITTY_END rest = none ∧
    g.inputBuffer = (if ['\x1b'].isSuffixOf (KITTY_START ++ rest) then ['\x1b'] else [])
  short : ¬ LongHeld (kittyHeld stream) → g.discardingCommand = false ∧ g.inputBuffer = kittyHeld stream

theorem KittyReads.streamAt {consumed : List Char} {items : List KittyItem} (h : KittyReads g consumed items)
    (hc : g.consuming = .idle) (ha : AtRest g) : StreamAt g consumed := by
  cases h with
  | discarding rest hd _ _ hh hend hlong hb =>
    have hl : LongHeld (kittyHeld consumed) := by
      rw [hh]
      exact ⟨List.prefix_append .., hlong⟩
    exact ⟨fun _ => ⟨hd, rest, hh, hend, hb⟩, fun hn => absurd hl hn⟩
  | reading rest hd hrest _ hh =>
    unfold AtRest at ha
    rw [hc] at ha hrest
    generalize hb : g.inputBuffer = buffer at ha hrest
    cases hrest with
    | idle hwaits =>
      rw [hwaits.items.2] at hh
      exact ⟨fun hl => absurd (hh ▸ hl) (ha hd), fun _ => ⟨hd, hb.trans hh⟩⟩
    | moving hm => cases hm

/-- A text that is not discarded, from its first character to its last. -/
theorem consumes_core {text text' data : List Char} {g' : KittyGraphics} (hd : g.discardingCommand = false)
    (hl : g.loading = ∅) (hp : KittyPlacingOnly (kittyItems (g.inputBuffer ++ data)))
    (h : KittyConsumes number cursorAt g text data g' text') :
    g'.core = ((g.scanned data).applyItems number cursorAt text (kittyItems (g.inputBuffer ++ data))).core ∧
      g'.loading = ∅ ∧ g'.consuming = .idle ∧
      g'.terminalControlBuffer = incompleteTerminalControlSuffix (g.terminalControlBuffer ++ data) ∧
      text' = text ++ shownText (kittyItems (g.inputBuffer ++ data)) ∧ StreamAt g' (g.inputBuffer ++ data) := by
  have hstart := consumeText_start hd data
  obtain ⟨hidle, more, hreads, hmore, htext⟩ := call_core h hstart.reads hstart.atRest (hstart.loading.trans hl) hp
  have hitems := hreads.idle hidle
  have hscanned : (g.scanned data).loading = ∅ := by
    have hcore : (g.consumeText data).core.loading = (g.scanned data).core.loading := by rw [hstart.core]
    exact hcore.symm.trans (hstart.loading.trans hl)
  refine ⟨?_, hmore.loading, hidle, hmore.control.trans hstart.control, ?_, hreads.streamAt hidle hmore.atRest⟩
  · have htexts : (g.scanned data).applyItems number cursorAt text (newText g (g.consumeText data)) = g.scanned data :=
      applyItems_text ..
    rw [hmore.core, ← hitems, applyItems_append, htexts]
    exact applyItems_core (fun body hb => hp body (hreads.mem _ (List.mem_append_right _ hb))) _
      (hstart.loading.trans hl) hstart.core
  · rw [htext, ← hitems, List.append_assoc]
    unfold shownText
    rw [List.filterMap_append]

/-! ## Two calls and one -/

/-- Neither call sees a clear that both texts at once do not show, nor the other way round; and a clear that
the second call finds has no put before it in the first. -/
def ChunksAgree (control buffer a b : List Char) : Prop :=
  let held := kittyHeld (buffer ++ a)
  if LongHeld held then
    indexOf KITTY_END ((held ++ b).drop KITTY_START.length) = none ∧ scanFinds control (a ++ b) = scanFinds control a
  else
    let found := scanFinds (incompleteTerminalControlSuffix (control ++ a)) b
    scanFinds control (a ++ b) = (scanFinds control a || found) ∧
      (found = true → ∀ body, .command body ∈ kittyItems (buffer ++ a) → kittyAction body ≠ "p".toList)

theorem chunks_short {a b text text₁ text₂ text' : List Char} {g₁ g₂ g' : KittyGraphics} (hd : g.discardingCommand = false)
    (hl : g.loading = ∅) (hp : KittyPlacingOnly (kittyItems (g.inputBuffer ++ a ++ b)))
    (hshort : ¬ LongHeld (kittyHeld (g.inputBuffer ++ a))) (hagree : ChunksAgree g.terminalControlBuffer g.inputBuffer a b)
    (h₁ : KittyConsumes number cursorAt g text a g₁ text₁) (h₂ : KittyConsumes number cursorAt g₁ text₁ b g₂ text₂)
    (h : KittyConsumes number cursorAt g text (a ++ b) g' text') : g₂.core = g'.core := by
  obtain ⟨hitems, -⟩ := kittyItems_append (g.inputBuffer ++ a) b
  have hpa : KittyPlacingOnly (kittyItems (g.inputBuffer ++ a)) :=
    fun body hb => hp body (by rw [hitems]; exact List.mem_append_left _ hb)
  obtain ⟨hcore₁, hl₁, -, hcontrol₁, htext₁, hstream⟩ := consumes_core hd hl hpa h₁
  obtain ⟨hd₁, hb₁⟩ := hstream.short hshort
  have hpb : KittyPlacingOnly (kittyItems (g₁.inputBuffer ++ b)) := by
    rw [hb₁]
    exact fun body hb => hp body (by rw [hitems]; exact List.mem_append_right _ hb)
  obtain ⟨hcore₂, -⟩ := consumes_core hd₁ hl₁ hpb h₂
  rw [List.append_assoc] at hp hitems
  obtain ⟨hcore, -⟩ := consumes_core hd hl hp h
  rw [hcore, hcore₂, hitems, applyItems_append, ← htext₁, ← hb₁]
  unfold ChunksAgree at hagree
  simp only at hagree
  rw [if_neg hshort] at hagree
  obtain ⟨hscan, hput⟩ := hagree
  have hscanned (data : List Char) : (g.scanned data).loading = ∅ := by
    unfold KittyGraphics.scanned
    split <;> exact hl
  have happlied (data : List Char) :
      ((g.scanned data).applyItems number cursorAt text (kittyItems (g.inputBuffer ++ a))).loading = ∅ :=
    applyItems_loading hpa text (hscanned data)
  have hloading : (g₁.scanned b).loading = ∅ := by
    unfold KittyGraphics.scanned
    split <;> exact hl₁
  refine applyItems_core hpb text₁ hloading ?_
  cases hfound : scanFinds (incompleteTerminalControlSuffix (g.terminalControlBuffer ++ a)) b with
  | false =>
    rw [hfound, Bool.or_false] at hscan
    unfold KittyGraphics.scanned at hcore₁ ⊢
    rw [hcontrol₁, hfound, hscan]
    exact hcore₁
  | true =>
    rw [hfound, Bool.or_true] at hscan
    have hclear {x y : KittyGraphics} (h : x.core = y.core) : x.clearPlacements.core = y.clearPlacements.core :=
      congrArg (fun z => z.clearPlacements.core) h
    have hone : g.scanned (a ++ b) = g.clearPlacements := by
      unfold KittyGraphics.scanned
      rw [if_pos hscan]
    have htwo : g₁.scanned b = g₁.clearPlacements := by
      unfold KittyGraphics.scanned
      rw [hcontrol₁, if_pos hfound]
    have htwice : (g.scanned a).clearPlacements.core = g.clearPlacements.core := by
      unfold KittyGraphics.scanned
      split <;> rfl
    rw [hone, htwo, hclear hcore₁, applyItems_clear hpa (hput hfound) text (hscanned a)]
    exact applyItems_core hpa text (hscanned a) htwice

theorem KittyCall.of_idle {text text' : List Char} {g' : KittyGraphics} (h : KittyCall number cursorAt g text g' text')
    (hc : g.consuming = .idle) : g' = g ∧ text' = text := by
  cases h with
  | done => exact ⟨rfl, rfl⟩
  | resume answers _ hr =>
    unfold KittyGraphics.resume at hr
    rw [hc] at hr
    cases hr

/-- A text that ends no discarded command is thrown away. -/
theorem consumes_discarded {text text' data : List Char} {g' : KittyGraphics} (hd : g.discardingCommand = true)
    (hc : g.consuming = .idle) (hend : indexOf KITTY_END (g.inputBuffer ++ data) = none)
    (h : KittyConsumes number cursorAt g text data g' text') :
    g' = { g with inputBuffer := if ['\x1b'].isSuffixOf (g.inputBuffer ++ data) then ['\x1b'] else [] } ∧ text' = text := by
  have hstep : g.consumeText data =
      { g with inputBuffer := if ['\x1b'].isSuffixOf (g.inputBuffer ++ data) then ['\x1b'] else [] } := by
    unfold KittyGraphics.consumeText
    simp only [hd, if_true, hend]
  have hquiet : (g.consumeText data).written = g.written ++ [] := by rw [hstep, List.append_nil]
  unfold KittyConsumes at h
  rw [newText_append [] hquiet, hstep] at h
  obtain ⟨rfl, rfl⟩ := h.of_idle hc
  exact ⟨rfl, List.append_nil text⟩

theorem chunks_long {a b text text₁ text₂ text' : List Char} {g₁ g₂ g' : KittyGraphics} (hd : g.discardingCommand = false)
    (hl : g.loading = ∅) (hp : KittyPlacingOnly (kittyItems (g.inputBuffer ++ a ++ b)))
    (hlong : LongHeld (kittyHeld (g.inputBuffer ++ a))) (hagree : ChunksAgree g.terminalControlBuffer g.inputBuffer a b)
    (h₁ : KittyConsumes number cursorAt g text a g₁ text₁) (h₂ : KittyConsumes number cursorAt g₁ text₁ b g₂ text₂)
    (h : KittyConsumes number cursorAt g text (a ++ b) g' text') : g₂.core = g'.core := by
  obtain ⟨hitems, -⟩ := kittyItems_append (g.inputBuffer ++ a) b
  have hpa : KittyPlacingOnly (kittyItems (g.inputBuffer ++ a)) :=
    fun body hb => hp body (by rw [hitems]; exact List.mem_append_left _ hb)
  obtain ⟨hcore₁, hl₁, hidle₁, -, -, hstream⟩ := consumes_core hd hl hpa h₁
  obtain ⟨hd₁, rest, hheld, hend, hb₁⟩ := hstream.long hlong
  unfold ChunksAgree at hagree
  simp only at hagree
  rw [if_pos hlong, hheld, List.append_assoc, List.drop_left] at hagree
  obtain ⟨hnone, hscan⟩ := hagree
  have hne : rest ≠ [] := by
    rintro rfl
    rw [hheld] at hlong
    exact absurd hlong.2 (by decide)
  have hcombined : indexOf KITTY_END (g₁.inputBuffer ++ b) = none := by
    obtain ⟨front, hfront⟩ := hb₁ ▸ kept_suffix_rest hne
    refine indexOf_none_of_suffix ⟨front, ?_⟩ hnone
    rw [← List.append_assoc, hfront]
  obtain ⟨rfl, -⟩ := consumes_discarded hd₁ hidle₁ hcombined h₂
  have hnothing : kittyItems (kittyHeld (g.inputBuffer ++ a) ++ b) = [] := by
    rw [hheld, List.append_assoc]
    exact (kittyItems_hold (kittyFront_unterminated (List.prefix_append ..) (by rw [List.drop_left]; exact hnone))).1
  rw [hnothing, List.append_nil, List.append_assoc] at hitems
  rw [List.append_assoc] at hp
  obtain ⟨hcore, -⟩ := consumes_core hd hl hp h
  have hsame : g.scanned (a ++ b) = g.scanned a := by
    unfold KittyGraphics.scanned
    rw [hscan]
  rw [hcore, hitems, hsame, ← hcore₁]
  rfl

/-- A text that ends a discarded command is read from there on. -/
theorem consumes_resumed {text text' data : List Char} {g' : KittyGraphics} {stop : Nat} (hd : g.discardingCommand = true)
    (hend : indexOf KITTY_END (g.inputBuffer ++ data) = some stop) :
    KittyConsumes number cursorAt g text data g' text' ↔
      KittyConsumes number cursorAt { g with discardingCommand := false, inputBuffer := [] } text
        ((g.inputBuffer ++ data).drop (stop + KITTY_END.length)) g' text' := by
  have hsame : g.consumeText data = { g with discardingCommand := false, inputBuffer := [] }.consumeText
      ((g.inputBuffer ++ data).drop (stop + KITTY_END.length)) := by
    unfold KittyGraphics.consumeText
    simp only [hd, if_true, hend, Bool.false_eq_true, if_false]
  unfold KittyConsumes
  rw [← hsame]
  rfl

theorem KittyCall.idle {text text' : List Char} {g' : KittyGraphics} (h : KittyCall number cursorAt g text g' text') :
    g'.consuming = .idle := by
  induction h with
  | done hc => exact hc
  | resume _ _ _ _ ih => exact ih

theorem call_ends (n : Nat) : ∀ {g : KittyGraphics} {consumed : List Char} {items : List KittyItem} (text : List Char),
    g.left ≤ n → KittyReads g consumed items → ∃ g' text', KittyCall number cursorAt g text g' text' := by
  induction n with
  | zero =>
    intro g consumed items text hn hreads
    by_cases hc : g.consuming = .idle
    · exact ⟨g, text, .done hc⟩
    · obtain ⟨g₁, -, hlt⟩ := @resume_left number _ _ _ hreads hc { cursor := cursorAt text }
      omega
  | succ n ih =>
    intro g consumed items text hn hreads
    by_cases hc : g.consuming = .idle
    · exact ⟨g, text, .done hc⟩
    · obtain ⟨g₁, hr, hlt⟩ := @resume_left number _ _ _ hreads hc { cursor := cursorAt text }
      obtain ⟨g', text', hcall⟩ := ih (text ++ shownText (g.handed g₁ (.resume { cursor := cursorAt text }))) (by omega)
        (resume_reads hreads hr)
      exact ⟨g', text', .resume _ rfl hr hcall⟩

theorem consumes_ends (hc : g.consuming = .idle) (text data : List Char) :
    ∃ g' text', KittyConsumes number cursorAt g text data g' text' := by
  have hgo {h : KittyGraphics} (hd : h.discardingCommand = false) (data : List Char) :
      ∃ g' text', KittyConsumes number cursorAt h text data g' text' :=
    call_ends _ _ (Nat.le_refl _) (consumeText_start hd data).reads
  cases hd : g.discardingCommand with
  | false => exact hgo hd data
  | true =>
    cases hend : indexOf KITTY_END (g.inputBuffer ++ data) with
    | none =>
      refine ⟨_, _, .done ?_⟩
      unfold KittyGraphics.consumeText
      simp only [hd, if_true, hend]
      exact hc
    | some stop =>
      obtain ⟨g', text', h⟩ := @hgo { g with discardingCommand := false, inputBuffer := [] } rfl
        ((g.inputBuffer ++ data).drop (stop + KITTY_END.length))
      exact ⟨g', text', (consumes_resumed hd hend).mpr h⟩

/-- A part that does not start in the front is searched for behind it. -/
theorem indexOf_behind {part text : List Char} : ∀ {front : List Char},
    (∀ m < front.length, ¬ part <+: (front ++ text).drop m) →
    ((indexOf part (front ++ text)).map fun n => (front ++ text).drop (n + part.length)) =
      (indexOf part text).map fun n => text.drop (n + part.length)
  | [], _ => rfl
  | c :: front, h => by
    have hfirst : ¬ part.isPrefixOf (c :: (front ++ text)) = true := fun hp =>
      h 0 (Nat.succ_pos _) (List.isPrefixOf_iff_prefix.mp hp)
    have hbehind := @indexOf_behind part text front fun m hm => h (m + 1) (Nat.succ_lt_succ hm)
    rw [← hbehind, List.cons_append, indexOf, if_neg hfirst, Option.map_map]
    congr 1
    funext n
    rw [Function.comp_apply, Nat.add_right_comm, List.drop_succ_cons]

/-- A command that is thrown away ends at the same place, however its rest is cut. -/
theorem discarded_end {all b : List Char} (hall : indexOf KITTY_END all = none) :
    ((indexOf KITTY_END (all ++ b)).map fun stop => (all ++ b).drop (stop + KITTY_END.length)) =
      (indexOf KITTY_END ((if ['\x1b'].isSuffixOf all then ['\x1b'] else []) ++ b)).map fun stop =>
        ((if ['\x1b'].isSuffixOf all then ['\x1b'] else []) ++ b).drop (stop + KITTY_END.length) := by
  obtain ⟨front, hfront⟩ := @kept_suffix all
  generalize hk : (if ['\x1b'].isSuffixOf all then ['\x1b'] else []) = kept at hfront ⊢
  subst hfront
  rw [List.append_assoc]
  apply indexOf_behind
  intro m hm hp
  rw [← List.append_assoc] at hp
  have hend : KITTY_END.length = 2 := rfl
  by_cases hin : m + 2 ≤ (front ++ kept).length
  · apply indexOf_none hall m
    rw [List.drop_append_of_le_length (by omega)] at hp
    exact List.prefix_of_prefix_length_le hp (List.prefix_append ..) (by rw [List.length_drop]; omega)
  · -- The end starts at the last character, which then is kept.
    rw [List.length_append] at hin
    have hkept : kept = [] := List.length_eq_zero_iff.mp (by omega)
    subst hkept
    rw [List.append_nil] at hk hp
    have hlast : front.drop m = ['\x1b'] := by
      have hone : (front.drop m).length = 1 := by
        rw [List.length_drop]
        omega
      obtain ⟨c, hc⟩ := List.length_eq_one_iff.mp hone
      rw [List.drop_append_of_le_length (by omega), hc] at hp
      rw [hc, ← (List.cons_prefix_cons.mp hp).1]
    have hsuffix : ['\x1b'].isSuffixOf front = true := List.isSuffixOf_iff_suffix.mpr (hlast ▸ List.drop_suffix ..)
    rw [if_pos hsuffix] at hk
    cases hk

end Calls

namespace KittyGraphics

/-- What a call reads of a text and what is left from the last. -/
def stream (g : KittyGraphics) (data : List Char) : List Char :=
  if g.discardingCommand = true then
    match indexOf KITTY_END (g.inputBuffer ++ data) with
    | none => []
    | some stop => (g.inputBuffer ++ data).drop (stop + KITTY_END.length)
  else g.inputBuffer ++ data

def ChunksAgree (g : KittyGraphics) (a b : List Char) : Prop :=
  if g.discardingCommand = true then
    match indexOf KITTY_END (g.inputBuffer ++ a) with
    | none => True
    | some stop => Webshell.ChunksAgree g.terminalControlBuffer [] ((g.inputBuffer ++ a).drop (stop + KITTY_END.length)) b
  else Webshell.ChunksAgree g.terminalControlBuffer g.inputBuffer a b

end KittyGraphics

section Chunks

variable {number : List Char → Option Rat} {cursorAt : List Char → KittyCursor} {g : KittyGraphics}

theorem chunks_core {a b text text₁ text₂ text' : List Char} {g₁ g₂ g' : KittyGraphics} (hd : g.discardingCommand = false)
    (hl : g.loading = ∅) (hp : KittyPlacingOnly (kittyItems (g.inputBuffer ++ a ++ b)))
    (hagree : ChunksAgree g.terminalControlBuffer g.inputBuffer a b)
    (h₁ : KittyConsumes number cursorAt g text a g₁ text₁) (h₂ : KittyConsumes number cursorAt g₁ text₁ b g₂ text₂)
    (h : KittyConsumes number cursorAt g text (a ++ b) g' text') : g₂.core = g'.core := by
  by_cases hlong : LongHeld (kittyHeld (g.inputBuffer ++ a))
  · exact chunks_long hd hl hp hlong hagree h₁ h₂ h
  · exact chunks_short hd hl hp hlong hagree h₁ h₂ h

/-- Both calls begin with the rest of a command that is thrown away. -/
theorem chunks_discarding {a b text text₁ text₂ text' : List Char} {g₁ g₂ g' : KittyGraphics}
    (hd : g.discardingCommand = true) (hc : g.consuming = .idle) (hl : g.loading = ∅)
    (hend : indexOf KITTY_END (g.inputBuffer ++ a) = none) (hp : KittyPlacingOnly (kittyItems (g.stream (a ++ b))))
    (h₁ : KittyConsumes number cursorAt g text a g₁ text₁) (h₂ : KittyConsumes number cursorAt g₁ text₁ b g₂ text₂)
    (h : KittyConsumes number cursorAt g text (a ++ b) g' text') : g₂.core = g'.core := by
  obtain ⟨rfl, rfl⟩ := consumes_discarded hd hc hend h₁
  have hrest := @discarded_end _ b hend
  unfold KittyGraphics.stream at hp
  rw [if_pos hd] at hp
  rw [List.append_assoc] at hrest
  generalize (if ['\x1b'].isSuffixOf (g.inputBuffer ++ a) then ['\x1b'] else []) = kept at h₂ hrest
  cases hab : indexOf KITTY_END (g.inputBuffer ++ (a ++ b)) with
  | none =>
    rw [hab, Option.map_none] at hrest
    obtain ⟨rfl, -⟩ := consumes_discarded hd hc hab h
    obtain ⟨rfl, -⟩ := consumes_discarded (g := { g with inputBuffer := kept }) hd hc (Option.map_eq_none_iff.mp hrest.symm) h₂
    rfl
  | some stop =>
    rw [hab] at hp hrest
    obtain ⟨stop', hstop, hsame⟩ := Option.map_eq_some_iff.mp hrest.symm
    have h := (consumes_resumed hd hab).mp h
    have h₂ := (consumes_resumed (g := { g with inputBuffer := kept }) hd hstop).mp h₂
    rw [hsame] at h₂
    have hcore := consumes_core (g := { g with discardingCommand := false, inputBuffer := [] }) rfl hl hp h
    have hcore₂ := consumes_core (g := { g with discardingCommand := false, inputBuffer := [] }) rfl hl hp h₂
    exact hcore₂.1.trans hcore.1.symm

theorem chunks_placements {a b text text₁ text₂ text' : List Char} {g₁ g₂ g' : KittyGraphics} (hc : g.consuming = .idle)
    (hl : g.loading = ∅) (hp : KittyPlacingOnly (kittyItems (g.stream (a ++ b)))) (hagree : g.ChunksAgree a b)
    (h₁ : KittyConsumes number cursorAt g text a g₁ text₁) (h₂ : KittyConsumes number cursorAt g₁ text₁ b g₂ text₂)
    (h : KittyConsumes number cursorAt g text (a ++ b) g' text') : g₂.core = g'.core := by
  unfold KittyGraphics.ChunksAgree at hagree
  by_cases hd : g.discardingCommand = true
  · rw [if_pos hd] at hagree
    cases hend : indexOf KITTY_END (g.inputBuffer ++ a) with
    | none => exact chunks_discarding hd hc hl hend hp h₁ h₂ h
    | some stop =>
      rw [hend] at hagree
      have hab := indexOf_append hend b
      have hle := (indexOf_some hend).1
      have hrest : (g.inputBuffer ++ a ++ b).drop (stop + KITTY_END.length) =
          (g.inputBuffer ++ a).drop (stop + KITTY_END.length) ++ b := List.drop_append_of_le_length hle
      unfold KittyGraphics.stream at hp
      rw [if_pos hd] at hp
      rw [List.append_assoc] at hab hrest
      rw [hab] at hp
      have h₁ := (consumes_resumed hd hend).mp h₁
      have h := (consumes_resumed hd hab).mp h
      simp only [hrest] at hp
      rw [hrest] at h
      exact chunks_core (g := { g with discardingCommand := false, inputBuffer := [] }) rfl hl hp hagree h₁ h₂ h
  · unfold KittyGraphics.stream at hp
    rw [if_neg hd, ← List.append_assoc] at hp
    rw [if_neg hd] at hagree
    exact chunks_core (Bool.not_eq_true _ ▸ hd) hl hp hagree h₁ h₂ h

/-- Two texts one after the other come to an end, as both at once do, and leave the same placements where no
clear comes before a placement. -/
theorem placements_chunks (number : List Char → Option Rat) (cursorAt : List Char → KittyCursor) {g : KittyGraphics}
    (text : List Char) {a b : List Char} (hc : g.consuming = .idle) (hl : g.loading = ∅)
    (hp : KittyPlacingOnly (kittyItems (g.stream (a ++ b)))) (hagree : g.ChunksAgree a b) :
    (∃ g₁ text₁ g₂ text₂ g' text', KittyConsumes number cursorAt g text a g₁ text₁ ∧
      KittyConsumes number cursorAt g₁ text₁ b g₂ text₂ ∧ KittyConsumes number cursorAt g text (a ++ b) g' text') ∧
    ∀ g₁ text₁ g₂ text₂ g' text', KittyConsumes number cursorAt g text a g₁ text₁ →
      KittyConsumes number cursorAt g₁ text₁ b g₂ text₂ → KittyConsumes number cursorAt g text (a ++ b) g' text' →
      g₂.placements = g'.placements := by
  constructor
  · obtain ⟨g₁, text₁, h₁⟩ := @consumes_ends number cursorAt _ hc text a
    obtain ⟨g₂, text₂, h₂⟩ := @consumes_ends number cursorAt _ h₁.idle text₁ b
    obtain ⟨g', text', h⟩ := @consumes_ends number cursorAt _ hc text (a ++ b)
    exact ⟨g₁, text₁, g₂, text₂, g', text', h₁, h₂, h⟩
  · intro g₁ text₁ g₂ text₂ g' text' h₁ h₂ h
    have hcore := chunks_placements hc hl hp hagree h₁ h₂ h
    exact congrArg (fun x => x.placements) hcore

end Chunks

/-- An image is there, number 1. -/
def oneImage : KittyGraphics := { images := OrderedMap.set ∅ 1 ⟨0, 1, 1⟩, decoded := [0] }

def putOne : List Char := "\x1b_Ga=p,i=1\x1b\\".toList

def clearScreen : List Char := "\x1b[2J".toList

theorem put_after_clear : (∃ g₁ text₁ g₂ text₂ g' text', KittyConsumes digits (fun _ => {}) oneImage [] clearScreen g₁ text₁ ∧
      KittyConsumes digits (fun _ => {}) g₁ text₁ putOne g₂ text₂ ∧
      KittyConsumes digits (fun _ => {}) oneImage [] (clearScreen ++ putOne) g' text') ∧
    ∀ g₁ text₁ g₂ text₂ g' text', KittyConsumes digits (fun _ => {}) oneImage [] clearScreen g₁ text₁ →
      KittyConsumes digits (fun _ => {}) g₁ text₁ putOne g₂ text₂ →
      KittyConsumes digits (fun _ => {}) oneImage [] (clearScreen ++ putOne) g' text' → g₂.placements = g'.placements := by
  have hp : KittyPlacingOnly (kittyItems (oneImage.stream (clearScreen ++ putOne))) := by
    have hitems : kittyItems (oneImage.stream (clearScreen ++ putOne)) =
        clearScreen.map .text ++ [.command "a=p,i=1".toList] := rfl
    intro body hb
    rw [hitems] at hb
    rcases List.mem_append.mp hb with hb | hb
    · obtain ⟨_, -, h⟩ := List.mem_map.mp hb
      cases h
    · cases List.mem_singleton.mp hb
      exact .inl rfl
  have hagree : oneImage.ChunksAgree clearScreen putOne := by
    have hshort : ¬ LongHeld (kittyHeld (oneImage.inputBuffer ++ clearScreen)) := by decide
    unfold KittyGraphics.ChunksAgree ChunksAgree
    rw [if_neg (by decide)]
    simp only
    rw [if_neg hshort]
    exact ⟨rfl, fun h => absurd h (by decide)⟩
  exact placements_chunks digits (fun _ => {}) [] rfl rfl hp hagree

/-- A clear that comes after a put is found before the put is run, where both are in one text. -/
theorem put_before_clear : ∃ g₁ text₁ g₂ text₂ g' text',
    KittyConsumes digits (fun _ => {}) oneImage [] putOne g₁ text₁ ∧
    KittyConsumes digits (fun _ => {}) g₁ text₁ clearScreen g₂ text₂ ∧
    KittyConsumes digits (fun _ => {}) oneImage [] (putOne ++ clearScreen) g' text' ∧
    g₂.placements.size = 0 ∧ g'.placements.size = 1 := by
  refine ⟨_, _, _, _, _, _, .resume {} rfl rfl (.resume {} rfl rfl (.done rfl)),
    .resume {} rfl rfl (.resume {} rfl rfl (.done rfl)),
    .resume {} rfl rfl (.resume {} rfl rfl (.resume {} rfl rfl (.done rfl))), ?_, ?_⟩
  · decide +kernel
  · decide +kernel

end Webshell
