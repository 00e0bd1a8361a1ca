import Webshell.CellPacket
import Webshell.Grid
import Webshell.Machine

/-!
# The remote terminal's screen

Frames arrive as packets; the rows that changed are unpacked and written over
the rows and the flat cells shown so far, unless too many did. What the page
has drawn is the screen at its last `markClean`.
-/

namespace Webshell

structure TerminalFrame where
  revision : Nat
  cols : Nat
  rows : Nat
  historyEpoch : Nat
  alternate : Bool
  /-- The colours' JSON text. -/
  colors : String
  viewport : Option CellPacket

structure RemoteTerminal where
  frame : Option TerminalFrame := none
  lines : Option (List (List TerminalCell)) := none
  viewportCells : Option (List TerminalCell) := none
  viewportRevision : Option Nat := none
  dirty : Bool := false
  fullRedraw : Bool := true
  dirtyRows : List Nat := []

namespace RemoteTerminal

/-- The rows that may have changed, or `null` where there is nothing to compare with. -/
def changedRows (t : RemoteTerminal) (viewport : CellPacket) : Except String (Option (List Nat)) :=
  match t.frame.bind TerminalFrame.viewport, t.lines with
  | some previous, some _ => changedPackedRows previous viewport
  | _, _ => .ok none

/-- `nextLines[row] = unpackRow(viewport, row)`, row after row. -/
def unpackInto (viewport : CellPacket) : List (List TerminalCell) → List Nat → Except String (List (List TerminalCell))
  | lines, [] => .ok lines
  | lines, row :: rows => do
    let line ← viewport.unpackRow row
    unpackInto viewport (lines.set row line) rows

/-- The new rows; above a third of them, all are unpacked. -/
def nextLines (t : RemoteTerminal) (frameRows : Nat) (viewport : CellPacket) (changed : Option (List Nat)) :
    Except String (List (List TerminalCell)) :=
  match changed with
  | some rows => if frameRows < rows.length * 3 then viewport.unpackRows else unpackInto viewport (t.lines.getD []) rows
  | none => viewport.unpackRows

def structuralChange (t : RemoteTerminal) (frame : TerminalFrame) : Bool :=
  match t.frame, t.lines with
  | some previous, some _ =>
    previous.cols ≠ frame.cols || previous.rows ≠ frame.rows || previous.historyEpoch ≠ frame.historyEpoch ||
      previous.alternate ≠ frame.alternate || previous.colors ≠ frame.colors
  | _, _ => true

/-- `viewportCells`, patched in place where it has the frame's size. -/
def nextCells (t : RemoteTerminal) (frame : TerminalFrame) (changed : Option (List Nat)) (lines : List (List TerminalCell)) :
    List TerminalCell :=
  match changed, t.viewportCells with
  | some rows, some cells =>
    if cells.length ≠ frame.cols * frame.rows then lines.flatten else Grid.patch frame.cols lines cells rows
  | _, _ => lines.flatten

/-- `acceptFrame`: a frame older than the one held is ignored. -/
def acceptFrame (t : RemoteTerminal) (frame : TerminalFrame) : Except String RemoteTerminal :=
  if t.frame.any (fun previous => frame.revision < previous.revision) then .ok t
  else
    match frame.viewport with
    | none => .ok { t with frame := some frame, dirty := true }
    | some viewport =>
      if viewport.columns ≠ frame.cols ∨ viewport.rows ≠ frame.rows then .error "Terminal frame geometry mismatch"
      else do
        let changed ← t.changedRows viewport
        let lines ← t.nextLines frame.rows viewport changed
        let fullRedraw := t.fullRedraw || t.structuralChange frame
        return { t with
          fullRedraw := fullRedraw
          dirtyRows := if fullRedraw = false then (changed.getD []).foldl (fun rows row => rows.insert row) t.dirtyRows else []
          lines := some lines
          viewportCells := some (t.nextCells frame changed lines)
          viewportRevision := some frame.revision
          frame := some frame
          dirty := true }

def isRowDirty (t : RemoteTerminal) (row : Nat) : Bool := t.fullRedraw || t.dirtyRows.contains row

def markClean (t : RemoteTerminal) : RemoteTerminal := { t with dirty := false, fullRedraw := false, dirtyRows := [] }

end RemoteTerminal

/-! ## Runs -/

inductive ScreenEvent
  | frame (frame : TerminalFrame)
  | markClean

/-- The terminal, and the rows it held at the last `markClean`. -/
structure ScreenRun where
  terminal : RemoteTerminal := {}
  shown : Option (List (List TerminalCell)) := none

def screenMachine : Machine ScreenRun ScreenEvent where
  step s
    | .frame frame =>
      match s.terminal.acceptFrame frame with
      | .ok terminal => some { s with terminal := terminal }
      | .error _ => none
    | .markClean => some { terminal := s.terminal.markClean, shown := s.terminal.lines }

/-- A frame with the packet its geometry names, made by `packRows`. -/
def TerminalFrame.Made (frame : TerminalFrame) : Prop :=
  ∃ viewport, frame.viewport = some viewport ∧ viewport.Packed ∧ viewport.columns = frame.cols ∧ viewport.rows = frame.rows

def ScreenEvent.Made : ScreenEvent → Prop
  | .frame f => f.Made
  | .markClean => True

/-- The cells of a row, where there is one. -/
def rowAt (lines : Option (List (List TerminalCell))) (row : Nat) : Option (List TerminalCell) :=
  lines.bind fun lines => lines[row]?

/-! ## Unpacking only the changed rows -/

namespace RemoteTerminal

theorem unpackInto_ok {viewport : CellPacket} : ∀ {rows : List Nat} {lines next : List (List TerminalCell)},
    unpackInto viewport lines rows = .ok next → next.length = lines.length ∧
      ∀ row, (row ∉ rows → next[row]? = lines[row]?) ∧
        (row ∈ rows → row < lines.length → ∃ line, next[row]? = some line ∧ viewport.unpackPacketRow row = .ok line)
  | [], lines, next, h => by
    cases h
    exact ⟨rfl, fun row => ⟨fun _ => rfl, nofun⟩⟩
  | r :: rows, lines, next, h => by
    unfold unpackInto at h
    cases hr : viewport.unpackRow r with
    | error e => rw [hr] at h; cases h
    | ok line =>
      rw [hr] at h
      obtain ⟨hlen, hrows⟩ := @unpackInto_ok _ rows _ _ h
      rw [List.length_set] at hlen hrows
      refine ⟨hlen, fun row => ⟨fun hn => ?_, fun hm hlt => ?_⟩⟩
      · obtain ⟨hne, hn⟩ := not_or.mp (List.mem_cons.not.mp hn)
        rw [(hrows row).1 hn, List.getElem?_set_ne (Ne.symm hne)]
      · by_cases hin : row ∈ rows
        · exact (hrows row).2 hin hlt
        · obtain rfl := (List.mem_cons.mp hm).resolve_right hin
          exact ⟨line, by rw [(hrows row).1 hin, List.getElem?_set_self hlt], (CellPacket.unpackRow_ok hr).2⟩

/-- Over the rows of the last packet, only those that may differ need unpacking. -/
theorem unpackInto_unpackRows {previous viewport : CellPacket} {rows : List Nat} {lines next : List (List TerminalCell)}
    (hd : DiffRows previous viewport rows) (hlines : previous.unpackRows = .ok lines)
    (h : unpackInto viewport lines rows = .ok next) : viewport.unpackRows = .ok next := by
  obtain ⟨-, hlen, hrows⟩ := CellPacket.unpackRows_ok.mp hlines
  obtain ⟨hnlen, hnext⟩ := unpackInto_ok h
  rw [hd.sizes] at hlen hrows
  refine CellPacket.unpackRows_ok.mpr ⟨hd.valid.2, hnlen.trans hlen, fun row hlt => ?_⟩
  by_cases hin : row ∈ rows
  · exact (hnext row).2 hin (by omega)
  · obtain ⟨line, hline, hunpack⟩ := hrows row hlt
    exact ⟨line, ((hnext row).1 hin).trans hline, (hd.unpackPacketRow_eq hlt hin).symm.trans hunpack⟩

theorem nextLines_ok {t : RemoteTerminal} {frameRows : Nat} {viewport : CellPacket} {changed : Option (List Nat)}
    {next : List (List TerminalCell)} (hn : t.nextLines frameRows viewport changed = .ok next)
    (hsome : ∀ rows, changed = some rows → ∃ previous lines, t.lines = some lines ∧ previous.unpackRows = .ok lines ∧
      DiffRows previous viewport rows) : viewport.unpackRows = .ok next := by
  unfold nextLines at hn
  split at hn
  · split at hn
    · exact hn
    · obtain ⟨previous, lines, ht, hlines, hd⟩ := hsome _ rfl
      rw [ht] at hn
      exact unpackInto_unpackRows hd hlines hn
  · exact hn

theorem uniform_unpackRows {viewport : CellPacket} {lines : List (List TerminalCell)} (h : viewport.unpackRows = .ok lines) :
    Grid.Uniform viewport.columns lines := by
  obtain ⟨-, hlen, hrows⟩ := CellPacket.unpackRows_ok.mp h
  intro line hline
  obtain ⟨row, hrow⟩ := List.mem_iff_getElem?.mp hline
  obtain ⟨l, hl, hunpack⟩ := hrows row (hlen ▸ (List.getElem?_eq_some_iff.mp hrow).1)
  rw [hrow, Option.some.injEq] at hl
  subst hl
  exact CellPacket.length_of_unpackPacketRow hunpack

/-- The screen held is that of the frame held. -/
def Current (t : RemoteTerminal) : Prop :=
  match t.frame with
  | none => t.lines = none ∧ t.viewportCells = none
  | some frame => ∃ viewport lines, frame.viewport = some viewport ∧ viewport.Packed ∧ viewport.columns = frame.cols ∧
      viewport.rows = frame.rows ∧ t.lines = some lines ∧ viewport.unpackRows = .ok lines ∧
      t.viewportCells = some lines.flatten

/-- What the changed rows of a packet are to a screen that is current. -/
inductive Compared (t : RemoteTerminal) (viewport : CellPacket) : Option (List Nat) → Prop
  | first : t.frame = none → Compared t viewport none
  | resized (frame : TerminalFrame) : t.frame = some frame → frame.cols ≠ viewport.columns ∨ frame.rows ≠ viewport.rows →
    Compared t viewport none
  | diff (previous : CellPacket) (lines : List (List TerminalCell)) (rows : List Nat) : previous.Packed →
    t.lines = some lines → previous.unpackRows = .ok lines → t.viewportCells = some lines.flatten →
    DiffRows previous viewport rows → Compared t viewport (some rows)

theorem changedRows_ok {t : RemoteTerminal} (h : t.Current) {viewport : CellPacket} {changed : Option (List Nat)}
    (hc : t.changedRows viewport = .ok changed) : t.Compared viewport changed := by
  unfold Current at h
  unfold changedRows at hc
  cases hf : t.frame with
  | none =>
    rw [hf] at hc
    cases hc
    exact .first hf
  | some frame =>
    rw [hf] at h hc
    obtain ⟨previous, lines, hv, hpacked, hcols, hrows, hl, hunpack, hcells⟩ := h
    rw [hl, Option.bind_some, hv] at hc
    cases changed with
    | none => exact .resized frame hf (by rw [← hcols, ← hrows]; exact changedPackedRows_none hc)
    | some rows => exact .diff previous lines rows hpacked hl hunpack hcells (changedPackedRows_some hc)

/-- Rows of the new screen that are not among the changed ones are the old screen's. -/
theorem rows_kept {previous viewport : CellPacket} {rows : List Nat} {lines next : List (List TerminalCell)}
    (hd : DiffRows previous viewport rows) (hlines : previous.unpackRows = .ok lines) (hnext : viewport.unpackRows = .ok next)
    {row : Nat} (hrow : row ∉ rows) : next[row]? = lines[row]? := by
  obtain ⟨-, hlen, hl⟩ := CellPacket.unpackRows_ok.mp hlines
  obtain ⟨-, hnlen, hn⟩ := CellPacket.unpackRows_ok.mp hnext
  rw [hd.sizes] at hlen hl
  by_cases hlt : row < viewport.rows
  · obtain ⟨line, hline, hunpack⟩ := hl row hlt
    obtain ⟨line', hline', hunpack'⟩ := hn row hlt
    rw [hd.unpackPacketRow_eq hlt hrow, hunpack'] at hunpack
    rw [hline, hline', Except.ok.inj hunpack]
  · rw [List.getElem?_eq_none (by omega), List.getElem?_eq_none (by omega)]

theorem nextCells_eq {t : RemoteTerminal} {frame : TerminalFrame} {viewport : CellPacket} {changed : Option (List Nat)}
    {lines : List (List TerminalCell)} (hpacked : viewport.Packed) (hcols : viewport.columns = frame.cols)
    (hc : t.Compared viewport changed) (hunpack : viewport.unpackRows = .ok lines) :
    t.nextCells frame changed lines = lines.flatten := by
  unfold nextCells
  cases hc with
  | first _ => rfl
  | resized _ _ _ => rfl
  | diff previous old rows hprevious _ hold hcells hd =>
    rw [hcells]
    simp only
    split
    · rfl
    · have hlen := (CellPacket.unpackRows_ok.mp hunpack).2.1
      have holdlen := (CellPacket.unpackRows_ok.mp hold).2.1
      have hnew := uniform_unpackRows hunpack
      have huniform := uniform_unpackRows hold
      rw [hd.columns, hcols] at huniform
      rw [hcols] at hnew
      apply Grid.patch_flatten huniform hnew
      · rw [hlen, holdlen, hd.sizes]
      · intro row hrow
        rw [hlen]
        exact hd.lt hprevious hpacked hrow
      · intro row hrow
        exact rows_kept hd hold hunpack hrow

/-- Frames of one structure are compared row by row. -/
theorem diff_of_same {t : RemoteTerminal} {frame : TerminalFrame} {viewport : CellPacket} {changed : Option (List Nat)}
    (hc : t.Compared viewport changed) (hcols : viewport.columns = frame.cols) (hrows : viewport.rows = frame.rows)
    (hs : t.structuralChange frame = false) : ∃ previous lines, t.lines = some lines ∧ previous.unpackRows = .ok lines ∧
      ∃ rows, changed = some rows ∧ DiffRows previous viewport rows := by
  unfold structuralChange at hs
  cases hc with
  | first hf => rw [hf] at hs; cases hs
  | resized old hf hne =>
    rw [hf] at hs
    split at hs
    · rename_i previous _ hold _
      cases hold
      simp only [Bool.or_eq_false_iff, decide_eq_false_iff_not, Decidable.not_not, ne_eq] at hs
      rw [hcols, hrows, hs.1.1.1.1, hs.1.1.1.2] at hne
      exact absurd hne (by simp)
    · cases hs
  | diff previous old rows _ hl hold _ hd => exact ⟨previous, old, hl, hold, rows, rfl, hd⟩

theorem mem_insertAll {row : Nat} : ∀ (rows dirty : List Nat),
    row ∈ rows.foldl (fun dirty row => dirty.insert row) dirty ↔ row ∈ rows ∨ row ∈ dirty
  | [], dirty => by simp
  | r :: rows, dirty => by
    rw [List.foldl_cons, mem_insertAll rows, List.mem_insert_iff, List.mem_cons]
    tauto

/-- All that accepting a frame does to the screen. -/
theorem acceptFrame_ok {t t' : RemoteTerminal} {frame : TerminalFrame} (h : t.Current) (hm : frame.Made)
    (hs : t.acceptFrame frame = .ok t') :
    (t' = t ∧ ∃ previous, t.frame = some previous ∧ frame.revision < previous.revision) ∨
    (t'.Current ∧ t'.frame = some frame ∧
      (t'.fullRedraw = false → t.fullRedraw = false ∧
        ∀ row, (row ∈ t.dirtyRows → row ∈ t'.dirtyRows) ∧ (rowAt t'.lines row ≠ rowAt t.lines row → row ∈ t'.dirtyRows))) := by
  obtain ⟨viewport, hv, hpacked, hcols, hrows⟩ := hm
  unfold acceptFrame at hs
  split at hs
  · rename_i hstale
    cases hs
    obtain ⟨previous, hp, hlt⟩ := (Option.any_eq_true ..).mp hstale
    exact .inl ⟨rfl, previous, hp, of_decide_eq_true hlt⟩
  · right
    simp only [hv] at hs
    rw [if_neg (by simp [hcols, hrows])] at hs
    cases hc : t.changedRows viewport with
    | error e => rw [hc] at hs; cases hs
    | ok changed =>
    cases hn : t.nextLines frame.rows viewport changed with
    | error e => rw [hc] at hs; simp only [bind, Except.bind] at hs; rw [hn] at hs; cases hs
    | ok lines =>
    rw [hc] at hs
    simp only [bind, Except.bind] at hs
    rw [hn] at hs
    simp only [pure, Except.pure, Except.ok.injEq] at hs
    subst hs
    have hcases := changedRows_ok h hc
    have hunpack : viewport.unpackRows = .ok lines := by
      apply nextLines_ok hn
      rintro rows rfl
      cases hcases with
      | diff previous old _ _ hl hold _ hd => exact ⟨previous, old, hl, hold, hd⟩
    refine ⟨⟨viewport, lines, hv, hpacked, hcols, hrows, rfl, hunpack, congrArg some ?_⟩, rfl, fun hfull => ?_⟩
    · exact nextCells_eq hpacked hcols hcases hunpack
    · obtain ⟨hredraw, hstructural⟩ := Bool.or_eq_false_iff.mp hfull
      refine ⟨hredraw, fun row => ?_⟩
      simp only [hredraw, hstructural, Bool.or_self, if_true]
      rw [mem_insertAll]
      refine ⟨.inr, fun hne => .inl ?_⟩
      obtain ⟨previous, old, hl, hold, rows, rfl, hd⟩ := diff_of_same hcases hcols hrows hstructural
      by_contra hrow
      apply hne
      rw [hl]
      exact rows_kept hd hold hunpack hrow

end RemoteTerminal

/-! ## Whole runs -/

/-- Rows that differ from those last drawn are marked, or everything is. -/
def ScreenRun.Marked (s : ScreenRun) : Prop :=
  s.terminal.fullRedraw = true ∨ ∀ row, rowAt s.terminal.lines row ≠ rowAt s.shown row → row ∈ s.terminal.dirtyRows

theorem screen_step {s s' : ScreenRun} {e : ScreenEvent} (h : s.terminal.Current ∧ s.Marked) (hm : e.Made)
    (hs : screenMachine.step s e = some s') : s'.terminal.Current ∧ s'.Marked := by
  cases e with
  | markClean =>
    cases hs
    exact ⟨h.1, .inr fun row hne => absurd rfl hne⟩
  | frame f =>
    simp only [screenMachine] at hs
    split at hs
    · rename_i t ht
      cases hs
      rcases RemoteTerminal.acceptFrame_ok h.1 hm ht with ⟨rfl, -⟩ | ⟨hcurrent, -, hmarked⟩
      · exact h
      · refine ⟨hcurrent, ?_⟩
        unfold ScreenRun.Marked
        cases hfull : t.fullRedraw with
        | true => exact .inl rfl
        | false =>
          obtain ⟨hold, hrows⟩ := hmarked hfull
          rcases h.2 with htrue | hdirty
          · rw [hold] at htrue
            cases htrue
          · refine .inr fun row hne => ?_
            by_cases hsame : rowAt t.lines row = rowAt s.terminal.lines row
            · exact (hrows row).1 (hdirty row (hsame ▸ hne))
            · exact (hrows row).2 hsame
    · cases hs

theorem ScreenRun.Marked.isRowDirty {s : ScreenRun} (h : s.Marked) {row : Nat}
    (hne : rowAt s.terminal.lines row ≠ rowAt s.shown row) : s.terminal.isRowDirty row = true := by
  unfold RemoteTerminal.isRowDirty
  rcases h with hfull | hdirty
  · rw [hfull, Bool.true_or]
  · rw [List.contains_iff_mem.mpr (hdirty row hne), Bool.or_true]

/-- After every frame the screen is the frame's, unpacked whole, and what the page has not drawn of it is
marked; rows that the comparison of two packets leaves out unpack alike. -/
theorem frames_incremental :
    (∀ (es : List ScreenEvent) (s s' : ScreenRun) (frame : TerminalFrame), (∀ e ∈ es, e.Made) →
      screenMachine.run {} es = some s → frame.Made →
      (∀ previous, s.terminal.frame = some previous → previous.revision ≤ frame.revision) →
      screenMachine.step s (.frame frame) = some s' →
      ∃ viewport lines, frame.viewport = some viewport ∧ viewport.unpackRows = .ok lines ∧
        s'.terminal.lines = some lines ∧ s'.terminal.viewportCells = some lines.flatten ∧
        ∀ row, rowAt s'.terminal.lines row ≠ rowAt s'.shown row → s'.terminal.isRowDirty row = true) ∧
    ∀ (previous next : CellPacket) (rows : List Nat) (row : Nat), changedPackedRows previous next = .ok (some rows) →
      row ∉ rows → previous.unpackRow row = next.unpackRow row := by
  refine ⟨fun es s s' frame hes hrun hm hrev hs => ?_, fun previous next rows row h hrow =>
    (changedPackedRows_some h).unpackRow_eq hrow⟩
  have hinv := screenMachine.run_inv_along (fun _ _ _ h hm hs => screen_step h hm hs) hrun
    (screenMachine.along_of_forall hes {}) ⟨⟨rfl, rfl⟩, .inl rfl⟩
  have hinv' := screen_step (e := .frame frame) hinv hm hs
  simp only [screenMachine] at hs
  split at hs
  · rename_i t ht
    cases hs
    rcases RemoteTerminal.acceptFrame_ok hinv.1 hm ht with ⟨-, previous, hp, hlt⟩ | ⟨hcurrent, hframe, -⟩
    · have hle := hrev previous hp
      omega
    · unfold RemoteTerminal.Current at hcurrent
      rw [hframe] at hcurrent
      obtain ⟨viewport, lines, hv, -, -, -, hlines, hunpack, hcells⟩ := hcurrent
      exact ⟨viewport, lines, hv, hunpack, hlines, hcells, fun row hne => hinv'.2.isRowDirty hne⟩
  · cases hs

/-- Three rows, the second a grapheme and the third empty. -/
def threeLines (codepoint : Int) : List (Option (List (Option NativeCell))) :=
  [some [some { codepoint := codepoint }], some [some { codepoint := 0x65, grapheme_len := 1, text := [0x65, 0x301] }],
    some []]

def threeRows (revision : Nat) (codepoint : Int) : TerminalFrame where
  revision := revision
  cols := 1
  rows := 3
  historyEpoch := 0
  alternate := false
  colors := ""
  viewport := (packRows (threeLines codepoint) 1 none).toOption

theorem frames_incremental_one : ∃ s s', screenMachine.run {} [.frame (threeRows 1 0x61), .markClean] = some s ∧
    screenMachine.step s (.frame (threeRows 2 0x62)) = some s' ∧
    (∃ viewport lines, (threeRows 2 0x62).viewport = some viewport ∧ viewport.unpackRows = .ok lines ∧
      s'.terminal.lines = some lines ∧ s'.terminal.viewportCells = some lines.flatten ∧
      ∀ row, rowAt s'.terminal.lines row ≠ rowAt s'.shown row → s'.terminal.isRowDirty row = true) ∧
    s'.terminal.dirtyRows = [0] := by
  have hmade (revision : Nat) (codepoint : Int) : (threeRows revision codepoint).Made :=
    ⟨_, rfl, ⟨threeLines codepoint, 1, none, rfl⟩, rfl, rfl⟩
  have hes : ∀ e ∈ [ScreenEvent.frame (threeRows 1 0x61), .markClean], e.Made := by
    intro e he
    rcases List.mem_pair.mp he with rfl | rfl
    · exact hmade 1 0x61
    · trivial
  refine ⟨_, _, rfl, rfl, frames_incremental.1 _ _ _ _ hes rfl (hmade 2 0x62) ?_ rfl, rfl⟩
  intro previous hp
  cases hp
  decide

end Webshell
