import Mathlib.Data.List.Infix
import Webshell.KittyAccounting
import Webshell.Scanner
import Webshell.Search

/-!
# The stream in front of Kitty graphics

What `consumeText` makes of a stream: text for the terminal, commands and
window-size queries, in order. One decision at the front of the stream says
it all, and it stands whatever follows, so that the cuts do not show.
-/

namespace Webshell

/-- What is handed on, text character by character. -/
inductive KittyItem
  | text (c : Char)
  | command (body : List Char)
  | query
  deriving DecidableEq

/-- The text an item was read from. -/
def KittyItem.source : KittyItem → List Char
  | .text c => [c]
  | .command body => KITTY_START ++ body ++ KITTY_END
  | .query => WINDOW_PIXEL_SIZE_QUERY

/-- What the front of a stream is. -/
def kittyFront (stream : List Char) : Scanner.Decision KittyItem :=
  if KITTY_START <+: stream then
    match indexOf KITTY_END (stream.drop KITTY_START.length) with
    | some length =>
      .take (KITTY_START.length + length + KITTY_END.length) false
        [.command ((stream.drop KITTY_START.length).take length)]
    | none => .hold
  else if WINDOW_PIXEL_SIZE_QUERY <+: stream then .take WINDOW_PIXEL_SIZE_QUERY.length false [.query]
  else if stream <+: KITTY_START ∨ stream <+: WINDOW_PIXEL_SIZE_QUERY then .hold
  else .take 1 false ((stream.take 1).map .text)

/-- The items of a stream, and what is held back of it. -/
def kittyItems (stream : List Char) : List KittyItem := (Scanner.run kittyFront stream).actions

def kittyHeld (stream : List Char) : List Char := (Scanner.run kittyFront stream).pending

/-! ## Where a part is found -/

theorem indexOf_search (part : List Char) : ∀ text : List Char, indexOf part text = Search.indexOf part text
  | [] => rfl
  | c :: rest => by
    unfold indexOf Search.indexOf
    rw [indexOf_search part rest]

theorem indexOf_some {part text : List Char} {n : Nat} (h : indexOf part text = some n) :
    n + part.length ≤ text.length ∧ part <+: text.drop n ∧ ∀ m < n, ¬ part <+: text.drop m := by
  rw [indexOf_search] at h
  exact Search.indexOf_some h

theorem indexOf_none {part text : List Char} (h : indexOf part text = none) (m : Nat) : ¬ part <+: text.drop m := by
  rw [indexOf_search] at h
  exact Search.indexOf_none h m

theorem indexOf_eq {part text : List Char} {n : Nat} (hp : part <+: text.drop n) (hmin : ∀ m < n, ¬ part <+: text.drop m) :
    n ≤ text.length → indexOf part text = some n := by
  intro hle
  rw [indexOf_search]
  exact Search.indexOf_eq hle hp hmin

theorem indexOf_append {part text : List Char} {n : Nat} (h : indexOf part text = some n) (more : List Char) :
    indexOf part (text ++ more) = some n := by
  rw [indexOf_search] at h ⊢
  exact Search.indexOf_append h more

/-! ## One decision -/

theorem kittyFront_command {stream : List Char} (h : KITTY_START <+: stream) {length : Nat}
    (hend : indexOf KITTY_END (stream.drop KITTY_START.length) = some length) :
    kittyFront stream = .take (KITTY_START.length + length + KITTY_END.length) false
      [.command ((stream.drop KITTY_START.length).take length)] := by
  unfold kittyFront
  rw [if_pos h, hend]

theorem kittyFront_unterminated {stream : List Char} (h : KITTY_START <+: stream)
    (hend : indexOf KITTY_END (stream.drop KITTY_START.length) = none) : kittyFront stream = .hold := by
  unfold kittyFront
  rw [if_pos h, hend]

theorem not_start_of_query {stream : List Char} (h : WINDOW_PIXEL_SIZE_QUERY <+: stream) : ¬ KITTY_START <+: stream := by
  intro hs
  have hp := List.prefix_of_prefix_length_le hs h (by decide)
  revert hp
  decide

theorem kittyFront_query {stream : List Char} (h : WINDOW_PIXEL_SIZE_QUERY <+: stream) :
    kittyFront stream = .take WINDOW_PIXEL_SIZE_QUERY.length false [.query] := by
  unfold kittyFront
  rw [if_neg (not_start_of_query h), if_pos h]

theorem kittyFront_partly {stream : List Char} (h : ∀ s ∈ INTERCEPTED_STARTS, ¬ s <+: stream)
    (hp : ∃ s ∈ INTERCEPTED_STARTS, stream <+: s) : kittyFront stream = .hold := by
  unfold kittyFront
  rw [if_neg (h _ (by decide)), if_neg (h _ (by decide)), if_pos]
  obtain ⟨s, hs, hp⟩ := hp
  rcases List.mem_pair.mp hs with rfl | rfl
  · exact .inl hp
  · exact .inr hp

theorem kittyFront_text {c : Char} {stream : List Char} (h : ∀ s ∈ INTERCEPTED_STARTS, ¬ s <+: c :: stream)
    (hp : ∀ s ∈ INTERCEPTED_STARTS, ¬ c :: stream <+: s) : kittyFront (c :: stream) = .take 1 false [.text c] := by
  unfold kittyFront
  rw [if_neg (h _ (by decide)), if_neg (h _ (by decide)), if_neg]
  · rfl
  · rintro (h1 | h1)
    · exact hp _ (by decide) h1
    · exact hp _ (by decide) h1

/-- The ways the front of a stream is decided. -/
inductive KittyFront : List Char → Prop
  | command {stream : List Char} (length : Nat) : KITTY_START <+: stream →
    indexOf KITTY_END (stream.drop KITTY_START.length) = some length → KittyFront stream
  | unterminated {stream : List Char} : KITTY_START <+: stream →
    indexOf KITTY_END (stream.drop KITTY_START.length) = none → KittyFront stream
  | query {stream : List Char} : WINDOW_PIXEL_SIZE_QUERY <+: stream → KittyFront stream
  | partly {stream : List Char} : (∀ s ∈ INTERCEPTED_STARTS, ¬ s <+: stream) → (∃ s ∈ INTERCEPTED_STARTS, stream <+: s) →
    KittyFront stream
  | text (c : Char) (rest : List Char) : (∀ s ∈ INTERCEPTED_STARTS, ¬ s <+: c :: rest) →
    (∀ s ∈ INTERCEPTED_STARTS, ¬ c :: rest <+: s) → KittyFront (c :: rest)

theorem kittyFront_cases (stream : List Char) : KittyFront stream := by
  by_cases h1 : KITTY_START <+: stream
  · cases hend : indexOf KITTY_END (stream.drop KITTY_START.length) with
    | some length => exact .command length h1 hend
    | none => exact .unterminated h1 hend
  · by_cases h2 : WINDOW_PIXEL_SIZE_QUERY <+: stream
    · exact .query h2
    · have hnone : ∀ s ∈ INTERCEPTED_STARTS, ¬ s <+: stream := by
        intro s hs
        rcases List.mem_pair.mp hs with rfl | rfl
        · exact h1
        · exact h2
      by_cases hp : ∃ s ∈ INTERCEPTED_STARTS, stream <+: s
      · exact .partly hnone hp
      · cases stream with
        | nil => exact absurd ⟨KITTY_START, by decide, List.nil_prefix⟩ hp
        | cons c rest => exact .text c rest hnone fun s hs h => hp ⟨s, hs, h⟩

theorem command_length {stream : List Char} (h : KITTY_START <+: stream) {length : Nat}
    (hend : indexOf KITTY_END (stream.drop KITTY_START.length) = some length) :
    KITTY_START.length + length + KITTY_END.length ≤ stream.length := by
  have hle := (indexOf_some hend).1
  have hs := h.length_le
  rw [List.length_drop] at hle
  omega

theorem command_source {stream : List Char} (h : KITTY_START <+: stream) {length : Nat}
    (hend : indexOf KITTY_END (stream.drop KITTY_START.length) = some length) :
    stream = (KittyItem.command ((stream.drop KITTY_START.length).take length)).source ++
      stream.drop (KITTY_START.length + length + KITTY_END.length) := by
  obtain ⟨rest, rfl⟩ := h
  rw [List.drop_left] at hend ⊢
  obtain ⟨-, ⟨after, ha⟩, -⟩ := indexOf_some hend
  have hdrop : (KITTY_START ++ rest).drop (KITTY_START.length + length + KITTY_END.length) = after := by
    rw [Nat.add_assoc, List.drop_append, List.drop_of_length_le (by omega), List.nil_append, Nat.add_sub_cancel_left,
      ← List.drop_drop, ← ha, List.drop_left]
  rw [hdrop]
  unfold KittyItem.source
  simp only
  rw [List.append_assoc, List.append_assoc, ha, List.take_append_drop]

theorem kittyFront_progress : Scanner.Progress kittyFront := by
  intro stream n shown actions hne hn
  cases kittyFront_cases stream with
  | command length h hend =>
    rw [kittyFront_command h hend] at hn
    cases hn
    exact ⟨by have : 0 < KITTY_START.length := by decide
              omega, command_length h hend⟩
  | unterminated h hend => rw [kittyFront_unterminated h hend] at hn; cases hn
  | query h =>
    rw [kittyFront_query h] at hn
    cases hn
    exact ⟨by decide, h.length_le⟩
  | partly h hp => rw [kittyFront_partly h hp] at hn; cases hn
  | text c rest h hp =>
    rw [kittyFront_text h hp] at hn
    cases hn
    exact ⟨by decide, by rw [List.length_cons]; omega⟩

/-! ## Cuts do not show -/

theorem not_prefix_append {c : Char} {rest s : List Char} (h : ¬ s <+: c :: rest) (hp : ¬ c :: rest <+: s)
    (more : List Char) : ¬ s <+: c :: rest ++ more := by
  intro hs
  rcases List.prefix_or_prefix_of_prefix hs (List.prefix_append (c :: rest) more) with h1 | h1
  · exact h h1
  · exact hp h1

theorem agrees_of_length (n : Nat) : ∀ stream : List Char, stream.length ≤ n → ∀ more, Scanner.Agrees kittyFront stream more := by
  induction n with
  | zero =>
    intro stream hn more
    rw [List.length_eq_zero_iff.mp (Nat.le_zero.mp hn)]
    exact Scanner.agrees_nil more
  | succ n ih =>
    intro stream hn more
    cases kittyFront_cases stream with
    | command length h hend =>
      have hlen := h.length_le
      have hne : stream ≠ [] := by
        rintro rfl
        exact absurd hlen (by decide)
      have hend' : indexOf KITTY_END ((stream ++ more).drop KITTY_START.length) = some length := by
        rw [List.drop_append_of_le_length hlen]
        exact indexOf_append hend more
      have hstands := kittyFront_command (h.trans (List.prefix_append stream more)) hend'
      have hle := (indexOf_some hend).1
      rw [List.drop_append_of_le_length hlen, List.take_append_of_le_length (by omega)] at hstands
      rw [Scanner.agrees_take kittyFront_progress hne (kittyFront_command h hend) hstands]
      have hpos : 0 < KITTY_START.length := by decide
      exact ih _ (by rw [List.length_drop]; omega) more
    | unterminated h hend => exact Scanner.agrees_hold (kittyFront_unterminated h hend) more
    | query h =>
      have hlen := h.length_le
      have hne : stream ≠ [] := by
        rintro rfl
        exact absurd hlen (by decide)
      rw [Scanner.agrees_take kittyFront_progress hne (kittyFront_query h)
        (kittyFront_query (h.trans (List.prefix_append stream more)))]
      have hpos : 0 < WINDOW_PIXEL_SIZE_QUERY.length := by decide
      exact ih _ (by rw [List.length_drop]; omega) more
    | partly h hp => exact Scanner.agrees_hold (kittyFront_partly h hp) more
    | text c rest h hp =>
      rw [Scanner.agrees_take kittyFront_progress (List.cons_ne_nil c rest) (kittyFront_text h hp)
        (kittyFront_text (fun s hs => not_prefix_append (h s hs) (hp s hs) more) fun s hs h1 =>
          hp s hs ((List.prefix_append (c :: rest) more).trans h1))]
      exact ih _ (by rw [List.length_drop]; omega) more

theorem kittyItems_append (stream more : List Char) :
    kittyItems (stream ++ more) = kittyItems stream ++ kittyItems (kittyHeld stream ++ more) ∧
      kittyHeld (stream ++ more) = kittyHeld (kittyHeld stream ++ more) := by
  have h := agrees_of_length stream.length stream (Nat.le_refl _) more
  unfold Scanner.Agrees at h
  unfold kittyItems kittyHeld
  rw [h]
  exact ⟨rfl, rfl⟩

theorem kittyItems_take {stream : List Char} (hne : stream ≠ []) {n : Nat} {items : List KittyItem}
    (h : kittyFront stream = .take n false items) :
    kittyItems stream = items ++ kittyItems (stream.drop n) ∧ kittyHeld stream = kittyHeld (stream.drop n) := by
  unfold kittyItems kittyHeld
  rw [Scanner.run_take kittyFront_progress hne h]
  exact ⟨rfl, rfl⟩

theorem kittyItems_hold {stream : List Char} (h : kittyFront stream = .hold) : kittyItems stream = [] ∧ kittyHeld stream = stream := by
  unfold kittyItems kittyHeld
  rw [Scanner.run_hold h]
  exact ⟨rfl, rfl⟩

/-- Nothing of the stream can be decided yet. -/
def KittyWaits (stream : List Char) : Prop := stream = [] ∨ kittyFront stream = .hold

theorem KittyWaits.items {stream : List Char} (h : KittyWaits stream) : kittyItems stream = [] ∧ kittyHeld stream = stream := by
  rcases h with rfl | h
  · exact ⟨rfl, rfl⟩
  · exact kittyItems_hold h

/-! ## The stream is what its items were read from -/

/-- What may be held back: nothing, a start that is not whole, or a command that has not ended. -/
inductive KittyPending : List Char → Prop
  | nothing : KittyPending []
  | start (s : List Char) {held : List Char} : s ∈ INTERCEPTED_STARTS → held <+: s → held ≠ s → KittyPending held
  | command (rest : List Char) : indexOf KITTY_END rest = none → KittyPending (KITTY_START ++ rest)

theorem kittyStream (n : Nat) : ∀ stream : List Char, stream.length ≤ n →
    (kittyItems stream).flatMap KittyItem.source ++ kittyHeld stream = stream ∧ KittyWaits (kittyHeld stream) ∧
      KittyPending (kittyHeld stream) := by
  induction n with
  | zero =>
    intro stream hn
    rw [List.length_eq_zero_iff.mp (Nat.le_zero.mp hn)]
    exact ⟨rfl, .inl rfl, .nothing⟩
  | succ n ih =>
    intro stream hn
    cases kittyFront_cases stream with
    | command length h hend =>
      have hlen := h.length_le
      have hpos : KITTY_START.length = 3 := rfl
      have hne : stream ≠ [] := by
        rintro rfl
        exact absurd hlen (by decide)
      obtain ⟨hitems, hheld⟩ := kittyItems_take hne (kittyFront_command h hend)
      obtain ⟨hs, hw, hp⟩ := ih (stream.drop (KITTY_START.length + length + KITTY_END.length)) (by rw [List.length_drop]; omega)
      rw [hitems, hheld]
      refine ⟨?_, hw, hp⟩
      have hsplit := command_source h hend
      rw [List.flatMap_append, List.append_assoc, hs, List.flatMap_singleton]
      exact hsplit.symm
    | unterminated h hend =>
      obtain ⟨hitems, hheld⟩ := kittyItems_hold (kittyFront_unterminated h hend)
      rw [hitems, hheld]
      refine ⟨rfl, .inr (kittyFront_unterminated h hend), ?_⟩
      obtain ⟨rest, rfl⟩ := h
      rw [List.drop_left] at hend
      exact .command rest hend
    | query h =>
      have hlen := h.length_le
      have hpos : WINDOW_PIXEL_SIZE_QUERY.length = 5 := rfl
      have hne : stream ≠ [] := by
        rintro rfl
        exact absurd hlen (by decide)
      obtain ⟨hitems, hheld⟩ := kittyItems_take hne (kittyFront_query h)
      obtain ⟨hs, hw, hp⟩ := ih (stream.drop WINDOW_PIXEL_SIZE_QUERY.length) (by rw [List.length_drop]; omega)
      rw [hitems, hheld]
      refine ⟨?_, hw, hp⟩
      obtain ⟨rest, rfl⟩ := h
      rw [List.drop_left] at hs ⊢
      rw [List.flatMap_append, List.append_assoc, hs]
      rfl
    | partly h hp =>
      obtain ⟨hitems, hheld⟩ := kittyItems_hold (kittyFront_partly h hp)
      rw [hitems, hheld]
      obtain ⟨s, hs, hp⟩ := hp
      refine ⟨rfl, .inr (kittyFront_partly h ⟨s, hs, hp⟩), .start s hs hp ?_⟩
      rintro rfl
      exact h _ hs (List.prefix_refl _)
    | text c rest h hp =>
      obtain ⟨hitems, hheld⟩ := kittyItems_take (List.cons_ne_nil c rest) (kittyFront_text h hp)
      obtain ⟨hs, hw, hp⟩ := ih ((c :: rest).drop 1) (by rw [List.length_drop]; omega)
      rw [hitems, hheld]
      refine ⟨?_, hw, hp⟩
      rw [List.flatMap_append, List.append_assoc, hs]
      rfl

/-! ## What the code finds -/

/-- Text up to where the front is something else. -/
theorem kittyItems_texts (n : Nat) : ∀ stream : List Char, n ≤ stream.length →
    (∀ m < n, (∀ s ∈ INTERCEPTED_STARTS, ¬ s <+: stream.drop m) ∧ ∀ s ∈ INTERCEPTED_STARTS, ¬ stream.drop m <+: s) →
    kittyItems stream = (stream.take n).map .text ++ kittyItems (stream.drop n) ∧ kittyHeld stream = kittyHeld (stream.drop n) := by
  induction n with
  | zero =>
    intro stream _ _
    exact ⟨rfl, rfl⟩
  | succ n ih =>
    intro stream hn hm
    cases stream with
    | nil => simp at hn
    | cons c rest =>
      obtain ⟨h0, hp0⟩ := hm 0 (by omega)
      obtain ⟨hitems, hheld⟩ := kittyItems_take (List.cons_ne_nil c rest) (kittyFront_text h0 hp0)
      obtain ⟨hi, hh⟩ := ih rest (by rw [List.length_cons] at hn; omega) fun m hlt => hm (m + 1) (by omega)
      rw [hitems, hheld, List.drop_one, List.tail_cons, hi, hh]
      exact ⟨rfl, rfl⟩

theorem nextInterceptedSequence_none {buffer : List Char} (h : nextInterceptedSequence buffer = none) :
    ∀ s ∈ INTERCEPTED_STARTS, ∀ m, ¬ s <+: buffer.drop m := by
  unfold nextInterceptedSequence INTERCEPTED_STARTS at h
  simp only [List.foldl_cons, List.foldl_nil] at h
  cases h1 : indexOf KITTY_START buffer with
  | some i =>
    rw [h1] at h
    simp only at h
    split at h
    · cases h
    · cases h
    · split at h <;> cases h
  | none =>
    rw [h1] at h
    cases h2 : indexOf WINDOW_PIXEL_SIZE_QUERY buffer with
    | some j => rw [h2] at h; cases h
    | none =>
      intro s hs
      rcases List.mem_pair.mp hs with rfl | rfl
      · exact indexOf_none h1
      · exact indexOf_none h2

/-- The sequence found is the first of all. -/
theorem nextInterceptedSequence_some {buffer sequence : List Char} {index : Nat}
    (h : nextInterceptedSequence buffer = some (index, sequence)) :
    sequence ∈ INTERCEPTED_STARTS ∧ sequence <+: buffer.drop index ∧ index ≤ buffer.length ∧
      ∀ s ∈ INTERCEPTED_STARTS, ∀ m < index, ¬ s <+: buffer.drop m := by
  have hfound {s : List Char} {i : Nat} (hi : indexOf s buffer = some i) : s <+: buffer.drop i ∧ i ≤ buffer.length := by
    obtain ⟨hle, hp, -⟩ := indexOf_some hi
    exact ⟨hp, by omega⟩
  unfold nextInterceptedSequence INTERCEPTED_STARTS at h
  simp only [List.foldl_cons, List.foldl_nil] at h
  cases h1 : indexOf KITTY_START buffer with
  | none =>
    cases h2 : indexOf WINDOW_PIXEL_SIZE_QUERY buffer with
    | none => rw [h1, h2] at h; cases h
    | some j =>
      rw [h1, h2] at h
      cases h
      refine ⟨by decide, (hfound h2).1, (hfound h2).2, fun s hs m hm => ?_⟩
      rcases List.mem_pair.mp hs with rfl | rfl
      · exact indexOf_none h1 m
      · exact (indexOf_some h2).2.2 m hm
  | some i =>
    cases h2 : indexOf WINDOW_PIXEL_SIZE_QUERY buffer with
    | none =>
      rw [h1, h2] at h
      cases h
      refine ⟨by decide, (hfound h1).1, (hfound h1).2, fun s hs m hm => ?_⟩
      rcases List.mem_pair.mp hs with rfl | rfl
      · exact (indexOf_some h1).2.2 m hm
      · exact indexOf_none h2 m
    | some j =>
      rw [h1, h2] at h
      simp only at h
      by_cases hji : j < i
      · rw [if_pos hji] at h
        cases h
        refine ⟨by decide, (hfound h2).1, (hfound h2).2, fun s hs m hm => ?_⟩
        rcases List.mem_pair.mp hs with rfl | rfl
        · exact (indexOf_some h1).2.2 m (by omega)
        · exact (indexOf_some h2).2.2 m hm
      · rw [if_neg hji] at h
        cases h
        refine ⟨by decide, (hfound h1).1, (hfound h1).2, fun s hs m hm => ?_⟩
        rcases List.mem_pair.mp hs with rfl | rfl
        · exact (indexOf_some h1).2.2 m hm
        · exact (indexOf_some h2).2.2 m (by omega)

theorem foldl_max (l : List Nat) : ∀ a, a ≤ l.foldl max a ∧ (∀ x ∈ l, x ≤ l.foldl max a) ∧
    (l.foldl max a = a ∨ l.foldl max a ∈ l) := by
  induction l with
  | nil => exact fun a => ⟨Nat.le_refl a, nofun, .inl rfl⟩
  | cons x l ih =>
    intro a
    obtain ⟨hle, hall, hor⟩ := ih (max a x)
    rw [List.foldl_cons]
    refine ⟨by omega, fun y hy => ?_, ?_⟩
    · rcases List.mem_cons.mp hy with rfl | hy
      · omega
      · exact hall y hy
    · rcases hor with he | hm
      · rw [he]
        rcases Nat.le_total a x with hax | hxa
        · exact .inr (by rw [Nat.max_eq_right hax]; exact List.mem_cons_self ..)
        · exact .inl (Nat.max_eq_left hxa)
      · exact .inr (List.mem_cons_of_mem _ hm)

/-- The longest end of the buffer that a sequence, not whole, begins with. -/
theorem incompleteStartLength_spec (buffer : List Char) :
    (∀ s ∈ INTERCEPTED_STARTS, ∀ length < s.length, s.take length <:+ buffer → length ≤ incompleteStartLength buffer) ∧
    (incompleteStartLength buffer = 0 ∨ ∃ s ∈ INTERCEPTED_STARTS, incompleteStartLength buffer < s.length ∧
      s.take (incompleteStartLength buffer) <:+ buffer) := by
  have hmem {s : List Char} {length : Nat} :
      length ∈ (List.range s.length).filter (fun length => (s.take length).isSuffixOf buffer) ↔
        length < s.length ∧ s.take length <:+ buffer := by
    rw [List.mem_filter, List.mem_range, List.isSuffixOf_iff_suffix]
  unfold incompleteStartLength INTERCEPTED_STARTS
  simp only [List.foldl_cons, List.foldl_nil]
  obtain ⟨-, hall, hor⟩ := foldl_max
    ((List.range KITTY_START.length).filter fun length => (KITTY_START.take length).isSuffixOf buffer) 0
  generalize ((List.range KITTY_START.length).filter fun length => (KITTY_START.take length).isSuffixOf buffer).foldl max 0 = k
    at hall hor ⊢
  obtain ⟨hle', hall', hor'⟩ := foldl_max ((List.range WINDOW_PIXEL_SIZE_QUERY.length).filter fun length =>
    (WINDOW_PIXEL_SIZE_QUERY.take length).isSuffixOf buffer) k
  refine ⟨fun s hs length hlt hsuf => ?_, ?_⟩
  · rcases List.mem_pair.mp hs with rfl | rfl
    · exact Nat.le_trans (hall length (hmem.mpr ⟨hlt, hsuf⟩)) hle'
    · exact hall' length (hmem.mpr ⟨hlt, hsuf⟩)
  · rcases hor' with he | hm
    · rw [he]
      rcases hor with he | hm
      · exact .inl he
      · exact .inr ⟨KITTY_START, by decide, hmem.mp hm⟩
    · exact .inr ⟨WINDOW_PIXEL_SIZE_QUERY, by decide, hmem.mp hm⟩

/-- No start comes again inside one. -/
theorem start_once {s t : List Char} (hs : s ∈ INTERCEPTED_STARTS) (ht : t ∈ INTERCEPTED_STARTS) {m : Nat} (hm : 0 < m) :
    ¬ s <+: t.drop m := by
  intro h
  have hmem : '\x1b' ∈ t.drop m := by
    apply h.subset
    rcases List.mem_pair.mp hs with rfl | rfl
    · decide
    · decide
  have htail : '\x1b' ∈ t.tail := by
    rw [← List.drop_one]
    have hdrop : t.drop m <:+ t.drop 1 := by
      rw [show m = 1 + (m - 1) by omega, ← List.drop_drop]
      exact List.drop_suffix ..
    exact hdrop.subset hmem
  revert htail
  rcases List.mem_pair.mp ht with rfl | rfl
  · decide
  · decide

/-- What the loop writes where it finds nothing, and what it keeps. -/
theorem kittyItems_none {buffer : List Char} (h : nextInterceptedSequence buffer = none) :
    kittyItems buffer = (buffer.take (buffer.length - incompleteStartLength buffer)).map .text ∧
      kittyHeld buffer = buffer.drop (buffer.length - incompleteStartLength buffer) ∧
      KittyWaits (buffer.drop (buffer.length - incompleteStartLength buffer)) := by
  have hnone := nextInterceptedSequence_none h
  obtain ⟨hmax, hkeep⟩ := incompleteStartLength_spec buffer
  have hwaits : KittyWaits (buffer.drop (buffer.length - incompleteStartLength buffer)) := by
    rcases hkeep with h0 | ⟨s, hs, hlt, hsuf⟩
    · left
      rw [h0, Nat.sub_zero, List.drop_length]
    · right
      apply kittyFront_partly fun s hs => hnone s hs _
      refine ⟨s, hs, ?_⟩
      have htake := List.suffix_iff_eq_drop.mp hsuf
      rw [List.length_take_of_le (by omega)] at htake
      rw [← htake]
      exact List.take_prefix ..
  obtain ⟨hitems, hheld⟩ := kittyItems_texts (buffer.length - incompleteStartLength buffer) buffer (Nat.sub_le ..) fun m hm => by
    refine ⟨fun s hs => hnone s hs m, fun s hs hp => ?_⟩
    have hlen : (buffer.drop m).length = buffer.length - m := List.length_drop
    have heq := List.prefix_iff_eq_take.mp hp
    rw [hlen] at heq
    have hlt : buffer.length - m < s.length := by
      have hle := hp.length_le
      rw [hlen] at hle
      rcases Nat.lt_or_ge (buffer.length - m) s.length with hl | hl
      · exact hl
      · rw [List.take_of_length_le (by omega)] at heq
        exact absurd (heq ▸ List.prefix_refl _) (hnone s hs m)
    have hle := hmax s hs _ hlt (heq ▸ List.drop_suffix ..)
    omega
  rw [hwaits.items.1, List.append_nil] at hitems
  exact ⟨hitems, hheld.trans hwaits.items.2, hwaits⟩

theorem kittyItems_some {buffer sequence : List Char} {index : Nat}
    (h : nextInterceptedSequence buffer = some (index, sequence)) :
    kittyItems buffer = (buffer.take index).map .text ++ kittyItems (buffer.drop index) ∧
      kittyHeld buffer = kittyHeld (buffer.drop index) := by
  obtain ⟨hs, hp, hle, hmin⟩ := nextInterceptedSequence_some h
  refine kittyItems_texts index buffer hle fun m hm => ⟨fun s hs => hmin s hs m hm, fun t ht hpt => ?_⟩
  have hdrop : buffer.drop index = (buffer.drop m).drop (index - m) := by
    rw [List.drop_drop]
    congr 1
    omega
  rw [hdrop] at hp
  apply start_once hs ht (show 0 < index - m by omega)
  exact hp.trans (List.IsPrefix.drop hpt _)

end Webshell
