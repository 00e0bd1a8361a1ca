import Mathlib.Data.Nat.Digits.Lemmas
import Webshell.Checkpoint

/-!
# Cell packets

A screen as it leaves the worker: sixteen bytes a cell, row after row, and the
texts of the cells that are more than one code point on the side.
-/

namespace Webshell

/-- A JavaScript string by its code units. -/
abbrev Utf16 := List UInt16

/-- `String.fromCodePoint`. -/
def fromCodePoint (c : Nat) : Except String Utf16 :=
  if c < 0x10000 then .ok [UInt16.ofNat c]
  else if c ≤ 0x10ffff then
    .ok [UInt16.ofNat (0xd800 + (c - 0x10000) / 0x400), UInt16.ofNat (0xdc00 + (c - 0x10000) % 0x400)]
  else .error "Invalid code point"

/-- A cell as the native terminal hands it out; what it lacks is zero. -/
structure NativeCell where
  codepoint : Int := 0
  fg_r : Int := 0
  fg_g : Int := 0
  fg_b : Int := 0
  bg_r : Int := 0
  bg_g : Int := 0
  bg_b : Int := 0
  flags : Int := 0
  width : Option Int := none
  hyperlink_id : Int := 0
  grapheme_len : Int := 0
  text : Utf16 := []

structure TerminalCell where
  codepoint : Nat
  fg_r : UInt8
  fg_g : UInt8
  fg_b : UInt8
  bg_r : UInt8
  bg_g : UInt8
  bg_b : UInt8
  flags : UInt8
  width : UInt8
  hyperlink_id : Nat
  grapheme_len : UInt8
  text : Utf16
  deriving DecidableEq

structure CellPacket where
  bytes : Bytes
  texts : List (Nat × Utf16)
  columns : Nat
  rows : Nat
  deriving DecidableEq

/-! ## Packing -/

def toUint8 (x : Int) : UInt8 := UInt8.ofNat (x % 256).toNat

/-- The low `width` bytes, the least first. -/
def littleEndian (width : Nat) (x : Int) : Bytes := (List.range width).map fun k => toUint8 (x / 256 ^ k)

/-- The sixteen bytes of a cell. -/
def packCell (cell : Option NativeCell) : Bytes :=
  let c := cell.getD {}
  littleEndian 4 c.codepoint ++
    [toUint8 c.fg_r, toUint8 c.fg_g, toUint8 c.fg_b, toUint8 c.bg_r, toUint8 c.bg_g, toUint8 c.bg_b, toUint8 c.flags,
      toUint8 (c.width.getD 1)] ++
    littleEndian 2 c.hyperlink_id ++ [toUint8 c.grapheme_len, 0]

/-- `cell.text || getText?.(row, col) || " "`. -/
def sideText (getText : Option (Nat → Nat → Utf16)) (row col : Nat) (cell : NativeCell) : Utf16 :=
  let text := if cell.text = [] then (getText.map fun get => get row col).getD [] else cell.text
  if text = [] then [0x20] else text

def packRows (lines : List (Option (List (Option NativeCell)))) (columns : Nat) (getText : Option (Nat → Nat → Utf16)) :
    Except String CellPacket :=
  if lines.any Option.isNone = true then .error "Terminal row is unavailable"
  else
    let cell (row col : Nat) : Option NativeCell := ((lines[row]?.bind id).bind fun cells => cells[col]?).bind id
    .ok {
      bytes := (List.range lines.length).flatMap fun row => (List.range columns).flatMap fun col => packCell (cell row col)
      texts := (List.range lines.length).flatMap fun row => (List.range columns).filterMap fun col =>
        match cell row col with
        | some c => if c.grapheme_len = 0 then none else some (row * columns + col, sideText getText row col c)
        | none => none
      columns := columns
      rows := lines.length }

/-- A packet that `packRows` made. -/
def CellPacket.Packed (packet : CellPacket) : Prop :=
  ∃ lines columns getText, packRows lines columns getText = .ok packet

/-! ## Unpacking -/

namespace CellPacket

/-- What `validatePacket` asks for. -/
def Valid (packet : CellPacket) : Prop := packet.bytes.length = packet.columns * packet.rows * 16

instance (packet : CellPacket) : Decidable packet.Valid := inferInstanceAs (Decidable (_ = _))

def validatePacket (packet : CellPacket) : Except String Unit :=
  if packet.Valid then .ok () else .error "Invalid terminal cell packet"

def byte (packet : CellPacket) (i : Nat) : UInt8 := packet.bytes.getD i 0

/-- The text at an index of `packetTexts`, where a later entry replaces an earlier one. -/
def text? (packet : CellPacket) (index : Nat) : Option Utf16 := packet.texts.reverse.lookup index

/-- A number of `width` bytes, the least first. -/
def uint (packet : CellPacket) (offset width : Nat) : Nat :=
  Nat.ofDigits 256 ((List.range width).map fun k => (packet.byte (offset + k)).toNat)

/-- The `i`-th of the packet's 32-bit words. -/
def word (packet : CellPacket) (i : Nat) : Nat := packet.uint (i * 4) 4

def unpackCell (packet : CellPacket) (row col : Nat) : Except String TerminalCell := do
  let index := row * packet.columns + col
  let offset := index * 16
  let codepoint := packet.uint offset 4
  let text ← match packet.text? index with
    | some text => .ok text
    | none => fromCodePoint (if codepoint = 0 then 32 else codepoint)
  return {
    codepoint := codepoint
    fg_r := packet.byte (offset + 4), fg_g := packet.byte (offset + 5), fg_b := packet.byte (offset + 6)
    bg_r := packet.byte (offset + 7), bg_g := packet.byte (offset + 8), bg_b := packet.byte (offset + 9)
    flags := packet.byte (offset + 10), width := packet.byte (offset + 11)
    hyperlink_id := packet.uint (offset + 12) 2, grapheme_len := packet.byte (offset + 14)
    text := text }

def unpackPacketRow (packet : CellPacket) (row : Nat) : Except String (List TerminalCell) :=
  (List.range packet.columns).mapM (packet.unpackCell row)

def unpackRow (packet : CellPacket) (row : Nat) : Except String (List TerminalCell) := do
  packet.validatePacket
  if packet.rows ≤ row then throw "Invalid terminal packet row" else packet.unpackPacketRow row

def unpackRows (packet : CellPacket) : Except String (List (List TerminalCell)) := do
  packet.validatePacket
  (List.range packet.rows).mapM packet.unpackPacketRow

end CellPacket

/-! ## Changed rows -/

/-- Whether a row's words differ. -/
def rowDiffers (previous next : CellPacket) (row : Nat) : Bool :=
  let wordsPerRow := next.columns * 4
  (List.range wordsPerRow).any fun index =>
    previous.word (row * wordsPerRow + index) ≠ next.word (row * wordsPerRow + index)

/-- The rows of the texts that are not `other`'s, added to a set. -/
def addTextRows (columns : Nat) (packet other : CellPacket) (changed : List Nat) : List Nat :=
  packet.texts.foldl (fun changed entry =>
    if other.text? entry.1 ≠ packet.text? entry.1 then changed.insert (entry.1 / columns) else changed) changed

/-- The rows that may differ, or `null` for packets of different sizes. -/
def changedPackedRows (previous next : CellPacket) : Except String (Option (List Nat)) := do
  previous.validatePacket
  next.validatePacket
  if previous.columns ≠ next.columns ∨ previous.rows ≠ next.rows then return none
  else return some (addTextRows next.columns next previous (addTextRows next.columns previous next
    ((List.range next.rows).filter (rowDiffers previous next))))

/-! ## Rows left out are equal -/

namespace CellPacket

variable {previous next packet : CellPacket}

theorem uint_inj {offset offset' width : Nat} (h : previous.uint offset width = next.uint offset' width) {k : Nat}
    (hk : k < width) : previous.byte (offset + k) = next.byte (offset' + k) := by
  unfold uint at h
  have hlt (p : CellPacket) (o : Nat) : ∀ n ∈ (List.range width).map (fun k => (p.byte (o + k)).toNat), n < 256 := by
    intro n hn
    obtain ⟨i, -, rfl⟩ := List.mem_map.mp hn
    exact UInt8.toNat_lt _
  have heq := Nat.ofDigits_inj_of_len_eq (by decide) (by simp) (hlt _ _) (hlt _ _) h
  have hget := List.map_inj_left.mp heq k (List.mem_range.mpr hk)
  exact UInt8.toNat_inj.mp hget

theorem uint_congr {offset offset' width : Nat} (h : ∀ k < width, previous.byte (offset + k) = next.byte (offset' + k)) :
    previous.uint offset width = next.uint offset' width := by
  unfold uint
  congr 1
  apply List.map_congr_left
  intro k hk
  rw [h k (List.mem_range.mp hk)]

/-- A cell is unpacked from its sixteen bytes and its text. -/
theorem unpackCell_congr {row col : Nat} (hc : previous.columns = next.columns)
    (hbytes : ∀ k < 16, previous.byte ((row * next.columns + col) * 16 + k) = next.byte ((row * next.columns + col) * 16 + k))
    (htext : previous.text? (row * next.columns + col) = next.text? (row * next.columns + col)) :
    previous.unpackCell row col = next.unpackCell row col := by
  have hcodepoint : previous.uint ((row * next.columns + col) * 16) 4 = next.uint ((row * next.columns + col) * 16) 4 :=
    uint_congr fun k hk => hbytes k (by omega)
  have hlink : previous.uint ((row * next.columns + col) * 16 + 12) 2 = next.uint ((row * next.columns + col) * 16 + 12) 2 :=
    uint_congr fun k hk => by
      rw [Nat.add_assoc]
      exact hbytes (12 + k) (by omega)
  unfold unpackCell
  simp only [hc, hcodepoint, htext, hlink, hbytes _ (show 4 < 16 by omega), hbytes _ (show 5 < 16 by omega),
    hbytes _ (show 6 < 16 by omega), hbytes _ (show 7 < 16 by omega), hbytes _ (show 8 < 16 by omega),
    hbytes _ (show 9 < 16 by omega), hbytes _ (show 10 < 16 by omega), hbytes _ (show 11 < 16 by omega),
    hbytes _ (show 14 < 16 by omega)]

theorem mem_texts_of_text? {index : Nat} {text : Utf16} (h : packet.text? index = some text) :
    (index, text) ∈ packet.texts := by
  obtain ⟨l₁, l₂, hl, -⟩ := List.lookup_eq_some_iff.mp h
  rw [← List.mem_reverse, hl]
  exact List.mem_append_right _ (List.mem_cons_self ..)

theorem validatePacket_ok (h : packet.Valid) : packet.validatePacket = .ok () := if_pos h

theorem valid_of_ok {u : Unit} (h : packet.validatePacket = .ok u) : packet.Valid := by
  unfold validatePacket at h
  by_cases hv : packet.Valid
  · exact hv
  · rw [if_neg hv] at h
    cases h

end CellPacket

theorem mapM_congr {ε α β : Type} {f g : α → Except ε β} {l : List α} (h : ∀ a ∈ l, f a = g a) : l.mapM f = l.mapM g := by
  induction l with
  | nil => rfl
  | cons a l ih =>
    rw [List.mapM_cons, List.mapM_cons, h a (List.mem_cons_self ..), ih fun b hb => h b (List.mem_cons_of_mem _ hb)]

theorem mem_addTextRows {columns : Nat} {packet other : CellPacket} {changed : List Nat} {row : Nat} :
    row ∈ addTextRows columns packet other changed ↔
      row ∈ changed ∨ ∃ entry ∈ packet.texts, other.text? entry.1 ≠ packet.text? entry.1 ∧ entry.1 / columns = row := by
  unfold addTextRows
  induction packet.texts generalizing changed with
  | nil => simp
  | cons entry texts ih =>
    rw [List.foldl_cons, ih]
    by_cases hd : other.text? entry.1 ≠ packet.text? entry.1
    · rw [if_pos hd, List.mem_insert_iff]
      constructor
      · rintro ((rfl | hm) | ⟨e, he, hed, hrow⟩)
        · exact .inr ⟨entry, List.mem_cons_self .., hd, rfl⟩
        · exact .inl hm
        · exact .inr ⟨e, List.mem_cons_of_mem _ he, hed, hrow⟩
      · rintro (hm | ⟨e, he, hed, hrow⟩)
        · exact .inl (.inr hm)
        · rcases List.mem_cons.mp he with rfl | he
          · exact .inl (.inl hrow.symm)
          · exact .inr ⟨e, he, hed, hrow⟩
    · rw [if_neg hd]
      constructor
      · rintro (hm | ⟨e, he, hed, hrow⟩)
        · exact .inl hm
        · exact .inr ⟨e, List.mem_cons_of_mem _ he, hed, hrow⟩
      · rintro (hm | ⟨e, he, hed, hrow⟩)
        · exact .inl hm
        · rcases List.mem_cons.mp he with rfl | he
          · exact absurd hed hd
          · exact .inr ⟨e, he, hed, hrow⟩

/-- All that `changedPackedRows` says of two packets of one size. -/
structure DiffRows (previous next : CellPacket) (rows : List Nat) : Prop where
  valid : previous.Valid ∧ next.Valid
  columns : previous.columns = next.columns
  sizes : previous.rows = next.rows
  mem : ∀ row, row ∈ rows ↔ (row < next.rows ∧ rowDiffers previous next row = true) ∨
    (∃ entry ∈ previous.texts, next.text? entry.1 ≠ previous.text? entry.1 ∧ entry.1 / next.columns = row) ∨
    ∃ entry ∈ next.texts, previous.text? entry.1 ≠ next.text? entry.1 ∧ entry.1 / next.columns = row

theorem changedPackedRows_some {previous next : CellPacket} {rows : List Nat}
    (h : changedPackedRows previous next = .ok (some rows)) : DiffRows previous next rows := by
  unfold changedPackedRows at h
  cases hp : previous.validatePacket with
  | error e => rw [hp] at h; cases h
  | ok u =>
  cases hn : next.validatePacket with
  | error e => rw [hp, hn] at h; cases h
  | ok v =>
  rw [hp, hn] at h
  simp only [bind, Except.bind] at h
  by_cases hg : previous.columns ≠ next.columns ∨ previous.rows ≠ next.rows
  · rw [if_pos hg] at h
    cases h
  · rw [if_neg hg] at h
    cases h
    obtain ⟨hc, hr⟩ := not_or.mp hg
    refine ⟨⟨CellPacket.valid_of_ok hp, CellPacket.valid_of_ok hn⟩, Decidable.not_not.mp hc, Decidable.not_not.mp hr, fun row => ?_⟩
    rw [mem_addTextRows, mem_addTextRows, List.mem_filter, List.mem_range, or_assoc]

theorem changedPackedRows_none {previous next : CellPacket} (h : changedPackedRows previous next = .ok none) :
    previous.columns ≠ next.columns ∨ previous.rows ≠ next.rows := by
  unfold changedPackedRows at h
  by_contra hg
  cases hp : previous.validatePacket with
  | error e => rw [hp] at h; cases h
  | ok u =>
  cases hn : next.validatePacket with
  | error e => rw [hp, hn] at h; cases h
  | ok v =>
  rw [hp, hn] at h
  simp only [bind, Except.bind] at h
  rw [if_neg hg] at h
  cases h

namespace DiffRows

variable {previous next : CellPacket} {rows : List Nat}

theorem bytes_eq {row col : Nat} (hrow : rowDiffers previous next row = false) (hcol : col < next.columns) {k : Nat}
    (hk : k < 16) : previous.byte ((row * next.columns + col) * 16 + k) = next.byte ((row * next.columns + col) * 16 + k) := by
  unfold rowDiffers at hrow
  have hword := List.any_eq_false.mp hrow (col * 4 + k / 4) (List.mem_range.mpr (by omega))
  simp only [ne_eq, decide_not, Bool.not_eq_true, Bool.not_eq_false', decide_eq_true_eq] at hword
  have hbyte := CellPacket.uint_inj hword (show k % 4 < 4 by omega)
  have hoffset : (row * next.columns + col) * 16 + k = (row * (next.columns * 4) + (col * 4 + k / 4)) * 4 + k % 4 := by
    rw [← Nat.mul_assoc]
    omega
  rw [hoffset]
  exact hbyte

theorem text_eq (h : DiffRows previous next rows) {row col : Nat} (hrow : row ∉ rows) (hcol : col < next.columns) :
    previous.text? (row * next.columns + col) = next.text? (row * next.columns + col) := by
  by_contra hne
  apply hrow
  have hdiv : (row * next.columns + col) / next.columns = row := by
    rw [Nat.add_comm, Nat.add_mul_div_right _ _ (by omega), Nat.div_eq_of_lt hcol, Nat.zero_add]
  rw [h.mem]
  cases hp : previous.text? (row * next.columns + col) with
  | some text => exact .inr (.inl ⟨_, CellPacket.mem_texts_of_text? hp, Ne.symm hne, hdiv⟩)
  | none =>
    cases hn : next.text? (row * next.columns + col) with
    | some text => exact .inr (.inr ⟨_, CellPacket.mem_texts_of_text? hn, hne, hdiv⟩)
    | none => exact absurd (hp.trans hn.symm) hne

/-- A row that is left out unpacks the same. -/
theorem unpackPacketRow_eq (h : DiffRows previous next rows) {row : Nat} (hlt : row < next.rows) (hrow : row ∉ rows) :
    previous.unpackPacketRow row = next.unpackPacketRow row := by
  have hwords : rowDiffers previous next row = false := by
    rw [← Bool.not_eq_true]
    exact fun hd => hrow ((h.mem row).mpr (.inl ⟨hlt, hd⟩))
  unfold CellPacket.unpackPacketRow
  rw [h.columns]
  apply mapM_congr
  intro col hcol
  have hcol := List.mem_range.mp hcol
  exact CellPacket.unpackCell_congr h.columns (fun k hk => bytes_eq hwords hcol hk) (h.text_eq hrow hcol)

theorem unpackRow_eq (h : DiffRows previous next rows) {row : Nat} (hrow : row ∉ rows) :
    previous.unpackRow row = next.unpackRow row := by
  unfold CellPacket.unpackRow
  rw [CellPacket.validatePacket_ok h.valid.1, CellPacket.validatePacket_ok h.valid.2, h.sizes]
  by_cases hlt : row < next.rows
  · rw [h.unpackPacketRow_eq hlt hrow]
  · simp only [bind, Except.bind]
    rw [if_pos (by omega), if_pos (by omega)]

end DiffRows

/-! ## Rows unpacked one by one -/

theorem mapM_range_ok {ε β : Type} {f : Nat → Except ε β} : ∀ {n : Nat} {ys : List β}, (List.range n).mapM f = .ok ys ↔
    ys.length = n ∧ ∀ i < n, ∃ y, ys[i]? = some y ∧ f i = .ok y
  | 0, ys => by
    constructor
    · intro h
      cases h
      exact ⟨rfl, nofun⟩
    · rintro ⟨h, -⟩
      rw [List.length_eq_zero_iff.mp h]
      rfl
  | n + 1, ys => by
    rw [List.range_succ, List.mapM_append, List.mapM_cons, List.mapM_nil]
    constructor
    · intro h
      cases hf : (List.range n).mapM f with
      | error e => rw [hf] at h; cases h
      | ok zs =>
        rw [hf] at h
        cases hn : f n with
        | error e => rw [hn] at h; cases h
        | ok z =>
          rw [hn] at h
          cases h
          obtain ⟨hlen, hget⟩ := mapM_range_ok.mp hf
          refine ⟨by rw [List.length_append, hlen]; rfl, fun i hi => ?_⟩
          by_cases hin : i < n
          · obtain ⟨y, hy, hfi⟩ := hget i hin
            exact ⟨y, by rw [List.getElem?_append_left (by omega), hy], hfi⟩
          · obtain rfl : i = n := by omega
            exact ⟨z, by rw [List.getElem?_append_right (by omega), hlen, Nat.sub_self]; rfl, hn⟩
    · rintro ⟨hlen, hget⟩
      obtain ⟨y, hy, hfn⟩ := hget n (by omega)
      have hinit : (List.range n).mapM f = .ok (ys.take n) := by
        refine mapM_range_ok.mpr ⟨by rw [List.length_take]; omega, fun i hi => ?_⟩
        rw [List.getElem?_take_of_lt hi]
        exact hget i (by omega)
      have hsplit : ys = ys.take n ++ [y] := by
        obtain ⟨hlt, hyn⟩ := List.getElem?_eq_some_iff.mp hy
        rw [← hyn, List.take_append_getElem, List.take_of_length_le (by omega)]
      rw [hinit, hfn]
      simp only [bind, Except.bind, pure, Except.pure]
      rw [← hsplit]

namespace CellPacket

variable {packet : CellPacket}

theorem unpackRows_ok {lines : List (List TerminalCell)} : packet.unpackRows = .ok lines ↔
    packet.Valid ∧ lines.length = packet.rows ∧
      ∀ row < packet.rows, ∃ line, lines[row]? = some line ∧ packet.unpackPacketRow row = .ok line := by
  unfold unpackRows
  constructor
  · intro h
    cases hv : packet.validatePacket with
    | error e => rw [hv] at h; cases h
    | ok u =>
      rw [hv] at h
      exact ⟨valid_of_ok hv, mapM_range_ok.mp h⟩
  · rintro ⟨hv, h⟩
    rw [validatePacket_ok hv]
    exact mapM_range_ok.mpr h

theorem unpackRow_ok {row : Nat} {line : List TerminalCell} (h : packet.unpackRow row = .ok line) :
    row < packet.rows ∧ packet.unpackPacketRow row = .ok line := by
  unfold unpackRow at h
  cases hv : packet.validatePacket with
  | error e => rw [hv] at h; cases h
  | ok u =>
    rw [hv] at h
    simp only [bind, Except.bind] at h
    by_cases hr : packet.rows ≤ row
    · rw [if_pos hr] at h
      cases h
    · rw [if_neg hr] at h
      exact ⟨by omega, h⟩

theorem length_of_unpackPacketRow {row : Nat} {line : List TerminalCell} (h : packet.unpackPacketRow row = .ok line) :
    line.length = packet.columns := (mapM_range_ok.mp h).1

/-! ## What `packRows` makes -/

theorem length_packCell (cell : Option NativeCell) : (packCell cell).length = 16 := rfl

theorem Packed.valid (h : packet.Packed) : packet.Valid := by
  obtain ⟨lines, columns, getText, h⟩ := h
  unfold packRows at h
  split at h
  · cases h
  · cases h
    simp only [Valid, List.length_flatMap, length_packCell, List.map_const', List.sum_replicate_nat, List.length_range]
    rw [← Nat.mul_assoc, Nat.mul_comm lines.length]

theorem Packed.texts (h : packet.Packed) : ∀ entry ∈ packet.texts, entry.1 < packet.rows * packet.columns := by
  obtain ⟨lines, columns, getText, h⟩ := h
  unfold packRows at h
  split at h
  · cases h
  · cases h
    intro entry he
    obtain ⟨row, hrow, he⟩ := List.mem_flatMap.mp he
    obtain ⟨col, hcol, he⟩ := List.mem_filterMap.mp he
    have hrow := List.mem_range.mp hrow
    have hcol := List.mem_range.mp hcol
    have hindex : entry.1 = row * columns + col := by
      split at he
      · split at he
        · cases he
        · cases he
          rfl
      · cases he
    have hle : (row + 1) * columns ≤ lines.length * columns := Nat.mul_le_mul_right _ hrow
    rw [Nat.add_mul] at hle
    simp only
    omega

end CellPacket

theorem DiffRows.lt {previous next : CellPacket} {rows : List Nat} (h : DiffRows previous next rows) (hp : previous.Packed)
    (hn : next.Packed) {row : Nat} (hrow : row ∈ rows) : row < next.rows := by
  have hdiv {entry : Nat × Utf16} (he : entry.1 < next.rows * next.columns) : entry.1 / next.columns < next.rows :=
    Nat.div_lt_of_lt_mul (by rwa [Nat.mul_comm])
  rcases (h.mem row).mp hrow with ⟨hlt, -⟩ | ⟨entry, he, -, rfl⟩ | ⟨entry, he, -, rfl⟩
  · exact hlt
  · have hb := hp.texts entry he
    rw [h.columns, h.sizes] at hb
    exact hdiv hb
  · exact hdiv (hn.texts entry he)

end Webshell
