import Mathlib.Data.List.DropRight
import Mathlib.Data.List.Forall2
import Webshell.JsValue
import Webshell.Search
import Webshell.Utf16

/-!
# Searching a terminal

`queryTerminalText` of type search, without a range. The text of a logical line is
searched in lower case. The table of cells is made of the text before that.
-/

namespace Webshell

open Utf16

/-! ## The terminal -/

structure TextCell where
  width : Nat := 1
  codepoint : Fin 0x110000 := 0
  grapheme_len : Nat := 0
  text : Option Units := none
  deriving DecidableEq

structure NativeText where
  cols : Nat
  rows : Nat
  scrollback : Nat
  getScrollbackLine : Nat → Option (List TextCell)
  viewport : List TextCell
  isRowWrapped : Nat → Bool
  getGraphemeString : Int → Nat → Units

structure CellPosition where
  row : Nat
  col : Nat
  deriving DecidableEq

structure SearchMatch where
  row : Nat
  col : Nat
  length : Nat
  deriving DecidableEq

/-! ## The query -/

/-- `String.fromCodePoint`. -/
def fromCodePointUnits (c : Fin 0x110000) : Units :=
  if c.val < 0x10000 then [UInt16.ofNat c.val]
  else [UInt16.ofNat (0xd800 + (c.val - 0x10000) / 0x400), UInt16.ofNat (0xdc00 + (c.val - 0x10000) % 0x400)]

/-- White space is in the basic plane. -/
def isSpaceUnit (u : UInt16) : Bool := Js.isSpace (Char.ofNat u.toNat)

def trimEnd (s : Units) : Units := s.rdropWhile isSpaceUnit

def maxTextUnits : Nat := 32 * 1024 * 1024

def maxSearchMatches : Nat := 100000

namespace NativeText

variable (native : NativeText)

def line (row : Nat) : Option (List TextCell) :=
  if row < native.scrollback then native.getScrollbackLine row
  else some ((native.viewport.drop ((row - native.scrollback) * native.cols)).take native.cols)

/-- What a cell adds to the text of its row. -/
def cellText (row col : Nat) (cell : Option TextCell) : Units :=
  match cell with
  | none => [32]
  | some cell =>
    if cell.width = 0 then []
    else
      match cell.text with
      | some text => text
      | none =>
        if cell.grapheme_len ≠ 0 then native.getGraphemeString (row - native.scrollback) col
        else fromCodePointUnits (if cell.codepoint = 0 then 32 else cell.codepoint)

def rowText (row : Nat) (line : List TextCell) : Units :=
  (List.range native.cols).flatMap fun col => native.cellText row col (line)[col]?

def rowPositions (row : Nat) (line : List TextCell) : List CellPosition :=
  (List.range native.cols).flatMap fun col => List.replicate (native.cellText row col (line)[col]?).length { row := row, col := col }

/-- The scrollback does not know which of its rows were wrapped: one is taken to be if its text fills it. -/
def wrapped (row : Nat) (rowText : Units) : Bool :=
  if row < native.scrollback then native.cols ≤ (trimEnd rowText).length else native.isRowWrapped (row - native.scrollback)

end NativeText

structure QueryState where
  text : Units := []
  positions : List CellPosition := []
  found : List SearchMatch := []
  deriving DecidableEq

section Query

variable (toLowerCase : Mapping) (native : NativeText) (query : Units)

/-- The loop of `finishLine`, in `fuel` rounds at most. -/
def searchLine (lower : Units) (positions : List CellPosition) : Nat → Nat → List SearchMatch → Except String (List SearchMatch)
  | 0, _, found => .ok found
  | fuel + 1, start, found =>
    match Search.indexFrom (toLowerCase.map query) lower start with
    | none => .ok found
    | some offset =>
      let found := found ++ (positions[offset]?.map fun p => { row := p.row, col := p.col, length := query.length }).toList
      if maxSearchMatches < found.length then .error "TOO_MANY_MATCHES"
      else searchLine lower positions fuel (offset + (toLowerCase.map query).length) found

def finishLine (q : QueryState) : Except String QueryState :=
  let lower := toLowerCase.map q.text
  if toLowerCase.map query = [] then .ok { q with text := [], positions := [] }
  else
    match searchLine toLowerCase query lower q.positions (lower.length + 1) 0 q.found with
    | .error err => .error err
    | .ok found => .ok { text := [], positions := [], found := found }

def queryRow (q : QueryState) (row : Nat) : Except String QueryState :=
  match native.line row with
  | none => .error "Terminal history changed during text query"
  | some line =>
    let rowText := native.rowText row line
    let wrapped := native.wrapped row rowText
    let rowText := if wrapped then rowText else trimEnd rowText
    let q := { q with text := q.text ++ rowText, positions := q.positions ++ (native.rowPositions row line).take rowText.length }
    match if wrapped then .ok q else finishLine toLowerCase query q with
    | .error err => .error err
    | .ok q => if maxTextUnits < q.text.length then .error "Terminal logical line exceeds query capacity" else .ok q

def queryRows (q : QueryState) : List Nat → Except String QueryState
  | [] => .ok q
  | row :: rows =>
    match queryRow toLowerCase native query q row with
    | .error err => .error err
    | .ok q => queryRows q rows

def queryTerminalText : Except String (List SearchMatch) :=
  match queryRows toLowerCase native query {} (List.range (native.scrollback + (native.rows))) with
  | .error err => .error err
  | .ok q => if q.text = [] then .ok q.found else (finishLine toLowerCase query q).map (·.found)

end Query

/-! ## Logical lines -/

/-- The units of a line, each with the cell it came from. -/
abbrev CellLine := List (UInt16 × CellPosition)

def CellLine.text (line : CellLine) : Units := line.map (·.1)

/-- Rows with the flag that the next one continues them. -/
def joinRows (line : CellLine) : List (Bool × CellLine) → List CellLine
  | [] => if line = [] then [] else [line]
  | (true, cells) :: rows => joinRows (line ++ cells) rows
  | (false, cells) :: rows => (line ++ cells) :: joinRows [] rows

namespace NativeText

variable (native : NativeText)

def rowCells (row : Nat) : CellLine :=
  (List.range native.cols).flatMap fun col =>
    (native.cellText row col (((native.line row).getD [])[col]?)).map fun u => (u, { row := row, col := col })

/-- Blanks at the end of a row that is not continued are no part of its line. -/
def row (row : Nat) : Bool × CellLine :=
  let cells := native.rowCells row
  if native.wrapped row cells.text then (true, cells) else (false, cells.take (trimEnd cells.text).length)

def logicalLines : List CellLine := joinRows [] ((List.range (native.scrollback + (native.rows))).map native.row)

end NativeText

/-! ## What is claimed -/

/-- The cell that contributed the unit at an offset of the line in lower case. -/
def CellLine.cellOf (toLowerCase : Mapping) (line : CellLine) (offset : Nat) : Option CellPosition :=
  (origin (toLowerCase.pieces line.text) offset).bind fun i => (line)[i]?.map (·.2)

/-- The matches of a line: the leftmost places of the query, each with its cell. -/
def LineReported (toLowerCase : Mapping) (query : Units) (line : CellLine) (found : List SearchMatch) : Prop :=
  ∃ places, Search.Leftmost (toLowerCase.map query) (toLowerCase.map line.text) 0 places ∧
    List.Forall₂ (fun place m => line.cellOf toLowerCase place = some { row := m.row, col := m.col }) places found

def Reported (toLowerCase : Mapping) (native : NativeText) (query : Units) (found : List SearchMatch) : Prop :=
  ∃ parts : List (List SearchMatch), parts.flatten = found ∧
    List.Forall₂ (fun line part => LineReported toLowerCase query line part) native.logicalLines parts

/-- No place of the query is shifted: the unit of the line at its offset is in the cell that contributed to the offset of
the line in lower case. -/
def Unshifted (toLowerCase : Mapping) (native : NativeText) (query : Units) : Prop :=
  ∀ line ∈ native.logicalLines, ∀ places, Search.Leftmost (toLowerCase.map query) (toLowerCase.map line.text) 0 places →
    ∀ place ∈ places, (line)[place]?.map (·.2) = line.cellOf toLowerCase place

/-! ## What the code reports -/

theorem CellLine.text_append (a b : CellLine) : CellLine.text (a ++ b) = a.text ++ b.text := List.map_append

section Run

variable {toLowerCase : Mapping} {native : NativeText} {query : Units}

def toMatch (query : Units) (p : CellPosition) : SearchMatch := { row := p.row, col := p.col, length := query.length }

/-- The matches the code makes of a line. -/
def lineFound (toLowerCase : Mapping) (query : Units) (line : CellLine) : List SearchMatch :=
  let lower := toLowerCase.map line.text
  (Search.occurrences (toLowerCase.map query) lower (lower.length + 1) 0).filterMap fun place =>
    ((line)[place]?.map (·.2)).map (toMatch query)

theorem searchLine_ok {lower : Units} {positions : List CellPosition} : ∀ {fuel start : Nat} {found result : List SearchMatch},
    searchLine toLowerCase query lower positions fuel start found = .ok result →
      result = found ++ (Search.occurrences (toLowerCase.map query) lower fuel start).filterMap fun place =>
        positions[place]?.map (toMatch query) := by
  intro fuel
  induction fuel with
  | zero =>
    intro start found result h
    cases h
    simp [Search.occurrences]
  | succ fuel ih =>
    intro start found result h
    rw [searchLine] at h
    rw [Search.occurrences]
    cases hfound : Search.indexFrom (toLowerCase.map query) lower start with
    | none =>
      rw [hfound] at h
      cases h
      simp
    | some offset =>
      rw [hfound] at h
      simp only at h
      split at h
      · cases h
      · rw [ih h]
        cases hp : positions[offset]? with
        | none => simp [hp]
        | some p => simp [hp, toMatch]

/-- The state of the loop over the rows, in the middle of a line. -/
def Holds (q : QueryState) (line : CellLine) : Prop := q.text = line.text ∧ q.positions = line.map (·.2)

theorem finishLine_ok (hneedle : toLowerCase.map query ≠ []) {q q' : QueryState} {line : CellLine} (hq : Holds q line)
    (h : finishLine toLowerCase query q = .ok q') : Holds q' [] ∧ q'.found = q.found ++ lineFound toLowerCase query line := by
  unfold finishLine at h
  simp only at h
  rw [if_neg hneedle] at h
  split at h
  · cases h
  · rename_i found hfound
    cases h
    refine ⟨⟨rfl, rfl⟩, ?_⟩
    rw [searchLine_ok hfound, hq.1, hq.2]
    simp only [lineFound, List.getElem?_map]

theorem rowCells_text {row : Nat} {line : List TextCell} (h : native.line row = some line) :
    (native.rowCells row).text = native.rowText row line ∧ (native.rowCells row).map (·.2) = native.rowPositions row line := by
  unfold NativeText.rowCells NativeText.rowText NativeText.rowPositions CellLine.text
  rw [h]
  constructor
  · rw [List.map_flatMap]
    refine List.flatMap_congr fun col _ => ?_
    rw [List.map_map]
    exact List.map_id _
  · rw [List.map_flatMap]
    refine List.flatMap_congr fun col _ => ?_
    rw [List.map_map]
    exact List.map_const' ..

theorem trimEnd_take (s : Units) : s.take (trimEnd s).length = trimEnd s := (List.prefix_iff_eq_take.mp (List.rdropWhile_prefix _ _)).symm

/-- What one row does to the line it continues. -/
theorem queryRow_ok (hneedle : toLowerCase.map query ≠ []) {q q' : QueryState} {line : CellLine} (hq : Holds q line) {row : Nat}
    (h : queryRow toLowerCase native query q row = .ok q') :
    (∃ cells, native.row row = (true, cells) ∧ Holds q' (line ++ cells) ∧ q'.found = q.found) ∨
      ∃ cells, native.row row = (false, cells) ∧ Holds q' [] ∧ q'.found = q.found ++ lineFound toLowerCase query (line ++ cells) := by
  unfold queryRow at h
  split at h
  · cases h
  · rename_i cells hcells
    obtain ⟨htext, hpositions⟩ := rowCells_text hcells
    simp only at h
    unfold NativeText.row
    simp only [htext]
    cases hwrapped : native.wrapped row (native.rowText row cells) with
    | true =>
      simp only [hwrapped, if_true] at h
      split at h
      · cases h
      · cases h
        refine .inl ⟨native.rowCells row, rfl, ⟨?_, ?_⟩, rfl⟩
        · rw [CellLine.text_append, htext, hq.1]
        · rw [List.map_append, hpositions, hq.2, ← htext, CellLine.text, List.length_map, ← hpositions, ← List.length_map (·.2), List.take_length]
    | false =>
      simp only [hwrapped, Bool.false_eq_true, if_false] at h
      split at h
      · cases h
      · rename_i q₁ hfinish
        split at h
        · cases h
        · cases h
          have htake : CellLine.text ((native.rowCells row).take (trimEnd (native.rowText row cells)).length) = trimEnd (native.rowText row cells) := by
            rw [CellLine.text, List.map_take, ← CellLine.text, htext, trimEnd_take]
          have htext' : q.text ++ trimEnd (native.rowText row cells) =
              CellLine.text (line ++ (native.rowCells row).take (trimEnd (native.rowText row cells)).length) := by
            rw [CellLine.text_append, htake, hq.1]
          have hpositions' : q.positions ++ (native.rowPositions row cells).take (trimEnd (native.rowText row cells)).length =
              (line ++ (native.rowCells row).take (trimEnd (native.rowText row cells)).length).map (·.2) := by
            rw [List.map_append, List.map_take, hpositions, hq.2]
          obtain ⟨hempty, hfound⟩ := finishLine_ok hneedle ⟨htext', hpositions'⟩ hfinish
          exact .inr ⟨_, rfl, hempty, hfound⟩

theorem queryRows_ok (hneedle : toLowerCase.map query ≠ []) : ∀ {rows : List Nat} {q q' : QueryState} {line : CellLine}, Holds q line →
    queryRows toLowerCase native query q rows = .ok q' →
      ∃ finished rest, joinRows line (rows.map native.row) = finished ++ (if rest = [] then [] else [rest]) ∧ Holds q' rest ∧
        q'.found = q.found ++ finished.flatMap (lineFound toLowerCase query) := by
  intro rows
  induction rows with
  | nil =>
    intro q q' line hq h
    cases h
    exact ⟨[], line, rfl, hq, by simp⟩
  | cons row rows ih =>
    intro q q' line hq h
    rw [queryRows] at h
    split at h
    · cases h
    · rename_i q₁ hrow
      rcases queryRow_ok hneedle hq hrow with ⟨cells, hcells, hq₁, hfound⟩ | ⟨cells, hcells, hq₁, hfound⟩
      · obtain ⟨finished, rest, hjoin, hrest, hall⟩ := ih hq₁ h
        refine ⟨finished, rest, ?_, hrest, by rw [hall, hfound]⟩
        rw [List.map_cons, hcells, joinRows, hjoin]
      · obtain ⟨finished, rest, hjoin, hrest, hall⟩ := ih hq₁ h
        refine ⟨(line ++ cells) :: finished, rest, ?_, hrest, by rw [hall, hfound, List.flatMap_cons, List.append_assoc]⟩
        rw [List.map_cons, hcells, joinRows, hjoin, List.cons_append]

theorem queryTerminalText_ok (hquery : query ≠ []) {found : List SearchMatch} (h : queryTerminalText toLowerCase native query = .ok found) :
    found = native.logicalLines.flatMap (lineFound toLowerCase query) := by
  have hneedle := toLowerCase.map_ne_nil hquery
  unfold queryTerminalText at h
  split at h
  · cases h
  · rename_i q hrows
    obtain ⟨finished, rest, hjoin, hrest, hall⟩ := queryRows_ok hneedle (⟨rfl, rfl⟩ : Holds _ []) hrows
    unfold NativeText.logicalLines
    rw [hjoin]
    have htext : q.text = [] ↔ rest = [] := by
      rw [hrest.1, CellLine.text, List.map_eq_nil_iff]
    split at h
    · rename_i hempty
      cases h
      rw [if_pos (htext.mp hempty), List.append_nil]
      simpa using hall
    · rename_i hmore
      cases hfinish : finishLine toLowerCase query q with
      | error err =>
        rw [hfinish] at h
        cases h
      | ok q' =>
        rw [hfinish] at h
        cases h
        change q'.found = _
        rw [if_neg (fun he => hmore (htext.mpr he)), (finishLine_ok hneedle hrest hfinish).2, hall]
        simp

end Run

/-! ## When it is what is claimed -/

theorem eq_of_flatten_eq {α : Type} {xs ys : List (List α)} (h : List.Forall₂ (fun x y => x.length ≤ y.length) xs ys)
    (he : xs.flatten = ys.flatten) : xs = ys := by
  have hsum : ∀ {xs ys : List (List α)}, List.Forall₂ (fun x y => x.length ≤ y.length) xs ys → xs.flatten.length ≤ ys.flatten.length := by
    intro xs ys h
    induction h with
    | nil => exact Nat.le_refl _
    | cons hxy _ ih =>
      simp only [List.flatten_cons, List.length_append]
      omega
  induction h with
  | nil => rfl
  | @cons x y xs ys hxy hrest ih =>
    have hlen := congrArg List.length he
    have hle := hsum hrest
    simp only [List.flatten_cons, List.length_append] at hlen
    rw [List.flatten_cons, List.flatten_cons] at he
    obtain ⟨rfl, htail⟩ := List.append_inj he (by omega)
    rw [ih htail]

theorem filterMap_whole {α β : Type} {f : α → Option β} {R : α → β → Prop} {l : List α} (h : List.Forall₂ R l (l.filterMap f)) :
    ∀ a ∈ l, ∃ b, f a = some b ∧ R a b := by
  induction l with
  | nil => exact nofun
  | cons a l ih =>
    cases hf : f a with
    | none =>
      rw [List.filterMap_cons_none hf] at h
      have hlen := h.length_eq
      have hle := List.length_filterMap_le f l
      rw [List.length_cons] at hlen
      omega
    | some b =>
      rw [List.filterMap_cons_some hf] at h
      cases h with
      | cons hab hrest => exact List.forall_mem_cons.mpr ⟨⟨b, hf, hab⟩, ih hrest⟩

theorem forall₂_filterMap {α β : Type} {f : α → Option β} {R : α → β → Prop} {l : List α} (h : ∀ a ∈ l, ∃ b, f a = some b ∧ R a b) :
    List.Forall₂ R l (l.filterMap f) := by
  induction l with
  | nil => exact .nil
  | cons a l ih =>
    obtain ⟨⟨b, hf, hab⟩, hrest⟩ := List.forall_mem_cons.mp h
    rw [List.filterMap_cons_some hf]
    exact .cons hab (ih hrest)

section Cells

variable {toLowerCase : Mapping} {native : NativeText} {query : Units}

/-- Every place in a line in lower case has a cell. -/
theorem cellOf_some (line : CellLine) {place : Nat} (h : place < (toLowerCase.map line.text).length) :
    ∃ p, line.cellOf toLowerCase place = some p := by
  obtain ⟨i, hi, hlt⟩ := origin_lt (toLowerCase.pieces_source_ne_nil line.text) h
  rw [toLowerCase.pieces_source, CellLine.text, List.length_map] at hlt
  exact ⟨(line)[i].2, by rw [CellLine.cellOf, hi, Option.bind_some, List.getElem?_eq_getElem hlt, Option.map_some]⟩

theorem places_leftmost (hquery : query ≠ []) (line : CellLine) :
    Search.Leftmost (toLowerCase.map query) (toLowerCase.map line.text) 0
      (Search.occurrences (toLowerCase.map query) (toLowerCase.map line.text) ((toLowerCase.map line.text).length + 1) 0) :=
  Search.occurrences_leftmost (toLowerCase.map_ne_nil hquery) _ _ (by omega)

/-- What the code finds in a line is what is claimed exactly if no place is shifted. -/
theorem lineReported_iff (hquery : query ≠ []) (line : CellLine) :
    LineReported toLowerCase query line (lineFound toLowerCase query line) ↔
      ∀ places, Search.Leftmost (toLowerCase.map query) (toLowerCase.map line.text) 0 places →
        ∀ place ∈ places, (line)[place]?.map (·.2) = line.cellOf toLowerCase place := by
  have hneedle := toLowerCase.map_ne_nil hquery
  have hplaces := @places_leftmost toLowerCase _ hquery line
  constructor
  · rintro ⟨places', hleft, hall⟩ places hplaces' place hmem
    rw [Search.Leftmost.unique hneedle hplaces' hleft] at hmem
    rw [Search.Leftmost.unique hneedle hleft hplaces] at hall hmem
    obtain ⟨m, hm, hcell⟩ := filterMap_whole hall place hmem
    obtain ⟨p, hp, rfl⟩ := Option.map_eq_some_iff.mp hm
    rw [hp, hcell]
    rfl
  · intro h
    refine ⟨_, hplaces, forall₂_filterMap fun place hmem => ?_⟩
    have hplace := h _ hplaces place hmem
    obtain ⟨p, hp⟩ := cellOf_some line (Search.lt_of_prefix_drop hneedle (hplaces.stands place hmem))
    rw [hp] at hplace
    exact ⟨toMatch query p, by rw [hplace]; rfl, by rw [hp]; rfl⟩

/-- What is claimed of a line fixes the matches of the line. -/
theorem LineReported.length_le (hquery : query ≠ []) {line : CellLine} {part : List SearchMatch} (h : LineReported toLowerCase query line part) :
    (lineFound toLowerCase query line).length ≤ part.length := by
  obtain ⟨places, hleft, hall⟩ := h
  rw [← hall.length_eq, Search.Leftmost.unique (toLowerCase.map_ne_nil hquery) hleft (places_leftmost hquery line)]
  exact List.length_filterMap_le _ _

theorem reported_iff (hquery : query ≠ []) :
    Reported toLowerCase native query (native.logicalLines.flatMap (lineFound toLowerCase query)) ↔ Unshifted toLowerCase native query := by
  unfold Reported Unshifted
  constructor
  · rintro ⟨parts, hflatten, hall⟩ line hline
    have hparts : native.logicalLines.map (lineFound toLowerCase query) = parts := by
      refine eq_of_flatten_eq ?_ (by rw [hflatten, List.flatMap_def])
      rw [List.forall₂_map_left_iff]
      exact hall.imp fun line part hpart => hpart.length_le hquery
    rw [← hparts, List.forall₂_map_right_iff, List.forall₂_same] at hall
    exact (lineReported_iff hquery line).mp (hall line hline)
  · intro h
    refine ⟨native.logicalLines.map (lineFound toLowerCase query), (List.flatMap_def ..).symm, ?_⟩
    rw [List.forall₂_map_right_iff, List.forall₂_same]
    exact fun line hline => (lineReported_iff hquery line).mpr (h line hline)

/-- It is enough to look at the places the search finds. -/
theorem unshifted_iff (hquery : query ≠ []) : Unshifted toLowerCase native query ↔
    ∀ line ∈ native.logicalLines,
      ∀ place ∈ Search.occurrences (toLowerCase.map query) (toLowerCase.map line.text) ((toLowerCase.map line.text).length + 1) 0,
        (line)[place]?.map (·.2) = line.cellOf toLowerCase place := by
  refine forall₂_congr fun line _ => ?_
  constructor
  · exact fun h => h _ (places_leftmost hquery line)
  · intro h places hleft place hmem
    rw [Search.Leftmost.unique (toLowerCase.map_ne_nil hquery) hleft (places_leftmost hquery line)] at hmem
    exact h place hmem

end Cells

/-- Lower case of ASCII letters, and of the dotted capital I, which becomes two units. -/
def dottedLower : Mapping where
  image _ c _ :=
    match c with
    | [u] => if u = 0x130 then [0x69, 0x307] else if 65 ≤ u.toNat ∧ u.toNat ≤ 90 then [u + 32] else [u]
    | c => c
  image_ne_nil _ c _ h := by
    split
    · split
      · simp
      · split <;> simp
    · exact h

def letter (c : Char) : TextCell := { codepoint := Fin.ofNat _ c.toNat }

/-- One row, with the letter `b` in its last cell. -/
def rowOf (first : Char) : NativeText where
  cols := 3
  rows := 1
  scrollback := 0
  getScrollbackLine _ := none
  viewport := [letter first, letter 'a', letter 'b']
  isRowWrapped _ := false
  getGraphemeString _ _ := []

end Webshell
