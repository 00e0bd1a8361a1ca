import Webshell.PaneReplay

/-!
# Who sizes a pane, and to what

The stored geometry, the epoch, the owner and the size the PTY really has are
four pieces of state. A request is followed on these alone: it is refused, or
it asks for the stored geometry, or it changes it.
-/

namespace Webshell

open GoText

/-- The part of a pane that resizing is about. -/
structure Sizing where
  geometry : Geometry
  ptyGeometry : Geometry
  resizeEpoch : Nat
  resizeOwner : Option Nat
  closing : Bool
  exited : Bool
  deriving DecidableEq

def TerminalPane.sizing (p : TerminalPane) : Sizing where
  geometry := p.geometry
  ptyGeometry := p.ptyGeometry
  resizeEpoch := p.resizeEpoch
  resizeOwner := p.resizeOwner
  closing := p.closing
  exited := p.exited

/-- Pixel sizes within their bound; the columns and rows are bounded anew each time. -/
def Geometry.Bounded (g : Geometry) : Prop := g.pixelWidth ≤ 65535 ∧ g.pixelHeight ≤ 65535

theorem NormalizeCols_idem (cols : Int) : NormalizeCols (NormalizeCols cols) = NormalizeCols cols := by
  unfold NormalizeCols defaultTerminalCols
  split <;> split <;> omega

theorem NormalizeRows_idem (rows : Int) : NormalizeRows (NormalizeRows rows) = NormalizeRows rows := by
  unfold NormalizeRows defaultTerminalRows
  split <;> split <;> omega

theorem normalizeTerminalPixelDimension_le (value : Int) : normalizeTerminalPixelDimension value ≤ 65535 := by
  unfold normalizeTerminalPixelDimension
  split <;> omega

/-- Filling in a pixel size twice is filling it in once. -/
theorem pixel_idem {current : Int} (h : current ≤ 65535) (value : Int) :
    let filled := if normalizeTerminalPixelDimension value = 0 then current else normalizeTerminalPixelDimension value
    (if normalizeTerminalPixelDimension filled = 0 then current else normalizeTerminalPixelDimension filled) = filled := by
  simp only [normalizeTerminalPixelDimension]
  split_ifs <;> omega

theorem normalizeGeometry_bounded {current : Geometry} (h : current.Bounded) (cols rows pixelWidth pixelHeight : Int) :
    (normalizeGeometry current cols rows pixelWidth pixelHeight).Bounded := by
  unfold normalizeGeometry Geometry.Bounded
  have hw := normalizeTerminalPixelDimension_le pixelWidth
  have hh := normalizeTerminalPixelDimension_le pixelHeight
  obtain ⟨h1, h2⟩ := h
  simp only
  constructor <;> split <;> omega

/-- Normalising twice is normalising once. -/
theorem normalizeGeometry_idem {current : Geometry} (h : current.Bounded) (cols rows pixelWidth pixelHeight : Int) :
    let g := normalizeGeometry current cols rows pixelWidth pixelHeight
    normalizeGeometry current g.cols g.rows g.pixelWidth g.pixelHeight = g := by
  obtain ⟨h1, h2⟩ := h
  simp only [normalizeGeometry, NormalizeCols_idem, NormalizeRows_idem, Geometry.mk.injEq, true_and]
  exact ⟨pixel_idem h1 pixelWidth, pixel_idem h2 pixelHeight⟩

/-! ## What the operations do to the size -/

namespace TerminalPane

@[simp] theorem enqueueText_sizing (p : TerminalPane) (answers : PaneAnswers) (control : PaneControl)
    (closeAfter : Bool) (clients : List Nat) : (p.enqueueText answers control closeAfter clients).sizing = p.sizing := by
  obtain ⟨subscribers, he, -⟩ := enqueueText_told p answers control closeAfter clients
  rw [he]; rfl

theorem recordCheckpointFailure_sizing (p : TerminalPane) (operation : String)
    (batchFrom batchTo pendingBefore : Nat) (answers : PaneAnswers) :
    (p.recordCheckpointFailureLocked operation batchFrom batchTo pendingBefore answers).sizing = p.sizing := by
  obtain ⟨subscribers, failure, he, -⟩ :=
    recordCheckpointFailure_told p operation batchFrom batchTo pendingBefore answers
  rw [he]; rfl

theorem resizeCheckpoint_sizing (p : TerminalPane) (cols rows lines : Int) (answers : PaneAnswers) :
    (p.resizeCheckpointLocked cols rows lines answers).sizing = p.sizing := by
  unfold resizeCheckpointLocked
  split
  · rfl
  · exact recordCheckpointFailure_sizing ..

/-- The stored geometry and, if the PTY is asked and takes it, the PTY's. -/
def stored (p : TerminalPane) (geometry : Geometry) (answers : PaneAnswers) : Sizing :=
  { p.sizing with
    geometry := geometry
    ptyGeometry := if p.exited = true ∨ answers.pty.isSome = true then p.ptyGeometry else geometry }

theorem resizeWithPixels_closing {p : TerminalPane} (h : p.closing = true) (cols rows pixelWidth pixelHeight : Int)
    (answers : PaneAnswers) :
    p.resizeWithPixelsUnlocked cols rows pixelWidth pixelHeight answers = (p, some "pane is closing") := by
  unfold resizeWithPixelsUnlocked
  rw [if_pos h]

theorem resizeWithPixels_same {p : TerminalPane} (h : p.closing = false) {cols rows pixelWidth pixelHeight : Int}
    (hg : normalizeGeometry p.geometry cols rows pixelWidth pixelHeight = p.geometry) (answers : PaneAnswers) :
    p.resizeWithPixelsUnlocked cols rows pixelWidth pixelHeight answers = (p, none) := by
  unfold resizeWithPixelsUnlocked
  simp only [h, hg, Bool.false_eq_true, if_false, if_true]

theorem resizeWithPixels_other {p : TerminalPane} (h : p.closing = false) {cols rows pixelWidth pixelHeight : Int}
    {g : Geometry} (hg : normalizeGeometry p.geometry cols rows pixelWidth pixelHeight = g) (hne : g ≠ p.geometry)
    (answers : PaneAnswers) :
    ∃ p', p.resizeWithPixelsUnlocked cols rows pixelWidth pixelHeight answers =
      (p', if p.exited then none else answers.pty) ∧ p'.sizing = p.stored g answers := by
  unfold resizeWithPixelsUnlocked
  rw [if_neg (Bool.eq_false_iff.mp h)]
  simp only [hg]
  rw [if_neg (Ne.symm hne)]
  have hr := resizeCheckpoint_sizing { p with geometry := g } g.cols g.rows
    (p.historyLimitBytes / averageHistoryBytesPerLine) answers
  generalize resizeCheckpointLocked { p with geometry := g } g.cols g.rows
    (p.historyLimitBytes / averageHistoryBytesPerLine) answers = p' at hr
  have hx : p'.exited = p.exited := congrArg Sizing.exited hr
  by_cases hexited : p.exited = true
  · rw [if_pos (hx.trans hexited), if_pos hexited]
    exact ⟨p', rfl, by rw [hr]; simp [stored, sizing, hexited]⟩
  · rw [if_neg (hx ▸ hexited), if_neg hexited]
    cases hpty : answers.pty with
    | some err => exact ⟨p', rfl, by rw [hr]; simp [stored, sizing, hpty]⟩
    | none =>
      refine ⟨_, rfl, ?_⟩
      have hp : sizing { p' with ptyGeometry := g } = { p'.sizing with ptyGeometry := g } := rfl
      rw [hp, hr]
      simp [stored, sizing, hpty, hexited]

/-! ## One request -/

/-- The geometry a message asks for. -/
def requested (p : TerminalPane) (message : TerminalControlMessage) : Geometry :=
  normalizeGeometry p.geometry message.Cols message.Rows message.PixelWidth message.PixelHeight

/-- The checks of `applyResize`. -/
def Admitted (p : TerminalPane) (message : TerminalControlMessage) (source : Nat) : Prop :=
  match parseTerminalResizeEpoch message.ResizeEpoch with
  | none => trimSpace message.ResizeEpoch = "" ∧ (p.resizeEpoch = 0 ∨ p.resizeOwner = some source)
  | some epoch =>
    p.resizeEpoch ≤ epoch ∧ (epoch = p.resizeEpoch → p.requested message = p.geometry) ∧
      (p.resizeOwner = none ∨ message.Claim = true ∨ epoch = p.resizeEpoch ∨ p.resizeOwner = some source)

/-- The checks of `applyLegacyInputResize`. -/
def AdmittedLegacy (p : TerminalPane) (message : TerminalControlMessage) (source : Nat) : Prop :=
  p.resizeEpoch = 0 ∨ p.resizeOwner = some source ∨ p.requested message = p.geometry

end TerminalPane

/-- The sender owns the size from now on, under the epoch it sent. -/
def Sizing.grant (s : Sizing) (source : Nat) (epoch : Option Nat) : Sizing :=
  { s with resizeOwner := some source, resizeEpoch := epoch.getD s.resizeEpoch }

/-- Everything a request can do: it is refused, it asks for the stored geometry, the PTY
fails after the geometry was stored, or the size changes. -/
inductive Settled (p : TerminalPane) (admitted : Prop) (requested : Geometry) (epoch : Option Nat) (source : Nat)
    (answers : PaneAnswers) (r : TerminalPane.ResizeResult) : Prop
  | refused : ¬admitted ∨ p.closing = true → r.error ≠ none → r.applied = none → r.pane.sizing = p.sizing →
      Settled p admitted requested epoch source answers r
  | same : admitted → p.closing = false → requested = p.geometry → r.error = none →
      r.applied = epoch.map (·, p.geometry) → r.pane.sizing = p.sizing.grant source epoch →
      Settled p admitted requested epoch source answers r
  | failed : admitted → p.closing = false → requested ≠ p.geometry → p.exited = false → answers.pty ≠ none →
      r.error ≠ none → r.applied = none → r.pane.sizing = p.stored requested answers →
      Settled p admitted requested epoch source answers r
  | resized : admitted → p.closing = false → requested ≠ p.geometry → p.exited = true ∨ answers.pty = none →
      r.error = none → r.applied = epoch.map (·, requested) →
      r.pane.sizing = (p.stored requested answers).grant source epoch →
      Settled p admitted requested epoch source answers r

namespace TerminalPane

theorem refuse_settled {p : TerminalPane} {admitted : Prop} (h : ¬admitted) (requested : Geometry)
    (epoch : Option Nat) (source e : Nat) (reason err : String) (answers : PaneAnswers) :
    Settled p admitted requested epoch source answers (p.refuse source e reason err answers) :=
  .refused (Or.inl h) (by simp [refuse]) rfl (enqueueText_sizing ..)

theorem resizeAndOwn_settled (p : TerminalPane) {admitted : Prop} (h : admitted) (message : TerminalControlMessage)
    (source : Nat) (answers : PaneAnswers) :
    Settled p admitted (p.requested message) none source answers
      (p.resizeAndOwn message.Cols message.Rows message.PixelWidth message.PixelHeight source answers) := by
  unfold resizeAndOwn
  cases hc : p.closing with
  | true => rw [resizeWithPixels_closing hc]; exact .refused (Or.inr hc) (by simp) rfl rfl
  | false =>
    by_cases hg : p.requested message = p.geometry
    · rw [resizeWithPixels_same hc hg]
      exact .same h hc hg rfl rfl rfl
    · obtain ⟨p', he, hs⟩ := resizeWithPixels_other hc rfl hg answers
      rw [he]
      by_cases hx : p.exited = true
      · rw [if_pos hx]
        exact .resized h hc hg (Or.inl hx) rfl rfl (congrArg (Sizing.grant · source none) hs)
      · rw [if_neg hx]
        cases hp : answers.pty with
        | some err => exact .failed h hc hg (by simpa using hx) (by simp [hp]) (by simp) rfl hs
        | none => exact .resized h hc hg (Or.inr hp) rfl rfl (congrArg (Sizing.grant · source none) hs)

theorem applyResize_settled {p : TerminalPane} (hb : p.geometry.Bounded) (message : TerminalControlMessage)
    (source : Nat) (answers : PaneAnswers) :
    Settled p (p.Admitted message source) (p.requested message) (parseTerminalResizeEpoch message.ResizeEpoch) source
      answers (p.applyResize message source answers) := by
  unfold applyResize Admitted
  cases hepoch : parseTerminalResizeEpoch message.ResizeEpoch with
  | none =>
    simp only
    split
    · rename_i ht
      exact refuse_settled (fun h => ht h.1) ..
    · rename_i ht
      split
      · rename_i ho
        exact resizeAndOwn_settled p ⟨not_not.mp ht, ho⟩ ..
      · rename_i ho
        exact refuse_settled (fun h => ho h.2) ..
  | some epoch =>
    simp only
    have hidem := normalizeGeometry_idem hb message.Cols message.Rows message.PixelWidth message.PixelHeight
    simp only at hidem
    unfold requested
    generalize normalizeGeometry p.geometry message.Cols message.Rows message.PixelWidth message.PixelHeight = g at hidem ⊢
    split
    · rename_i hstale
      exact refuse_settled (fun h => absurd h.1 (by omega)) ..
    · rename_i hstale
      split
      · rename_i hconf
        exact refuse_settled (fun h => hconf.2 (h.2.1 hconf.1)) ..
      · rename_i hconf
        split
        · rename_i hown
          refine refuse_settled (fun h => ?_) ..
          rcases h.2.2 with h | h | h | h
          · exact hown.1 h
          · rw [hown.2.1] at h; cases h
          · exact hown.2.2.1 h
          · exact hown.2.2.2 h
        · rename_i hown
          have hadm : p.resizeEpoch ≤ epoch ∧ (epoch = p.resizeEpoch → g = p.geometry) ∧ (p.resizeOwner = none ∨
              message.Claim = true ∨ epoch = p.resizeEpoch ∨ p.resizeOwner = some source) := by
            refine ⟨by omega, fun he => not_not.mp fun hn => hconf ⟨he, hn⟩, ?_⟩
            by_contra hn
            simp only [not_or, Bool.not_eq_true] at hn
            exact hown ⟨hn.1, hn.2.1, hn.2.2.1, hn.2.2.2⟩
          cases hc : p.closing with
          | true =>
            rw [resizeWithPixels_closing hc]
            exact .refused (Or.inr hc) (by simp [refuse]) rfl (enqueueText_sizing ..)
          | false =>
            by_cases hg : g = p.geometry
            · rw [resizeWithPixels_same hc (hidem.trans hg)]
              exact .same hadm hc hg rfl rfl (enqueueText_sizing ..)
            · obtain ⟨p', he, hs⟩ := resizeWithPixels_other hc hidem hg answers
              have hgeom : p'.geometry = g := congrArg Sizing.geometry hs
              have hgrant := congrArg (Sizing.grant · source (some epoch)) hs
              rw [he]
              by_cases hx : p.exited = true
              · rw [if_pos hx]
                exact .resized hadm hc hg (Or.inl hx) rfl (by simp [hgeom]) ((enqueueText_sizing ..).trans hgrant)
              · rw [if_neg hx]
                cases hp : answers.pty with
                | some err =>
                  exact .failed hadm hc hg (by simpa using hx) (by simp [hp]) (by simp [refuse]) rfl
                    ((enqueueText_sizing ..).trans hs)
                | none =>
                  exact .resized hadm hc hg (Or.inr hp) rfl (by simp [hgeom]) ((enqueueText_sizing ..).trans hgrant)

theorem legacy_same_iff (p : TerminalPane) (message : TerminalControlMessage) :
    ¬(NormalizeCols message.Cols ≠ p.geometry.cols ∨ NormalizeRows message.Rows ≠ p.geometry.rows ∨
        0 < message.PixelWidth ∧ normalizeTerminalPixelDimension message.PixelWidth ≠ p.geometry.pixelWidth ∨
        0 < message.PixelHeight ∧ normalizeTerminalPixelDimension message.PixelHeight ≠ p.geometry.pixelHeight) ↔
      p.requested message = p.geometry := by
  have pixel : ∀ value current : Int, ¬(0 < value ∧ normalizeTerminalPixelDimension value ≠ current) ↔
      (if normalizeTerminalPixelDimension value = 0 then current else normalizeTerminalPixelDimension value) = current := by
    intro value current
    unfold normalizeTerminalPixelDimension
    split_ifs <;> omega
  unfold requested normalizeGeometry
  rw [Geometry.ext_iff, not_or, not_or, not_or, pixel, pixel, not_not, not_not]

theorem applyLegacy_settled {p : TerminalPane} (message : TerminalControlMessage) (source : Nat)
    (answers : PaneAnswers) (hc : 0 < message.Cols) (hr : 0 < message.Rows) :
    Settled p (p.AdmittedLegacy message source) (p.requested message) none source answers
      (p.applyLegacyInputResize message.Cols message.Rows message.PixelWidth message.PixelHeight source answers) := by
  unfold applyLegacyInputResize AdmittedLegacy
  rw [if_neg (by omega)]
  split
  · rename_i h
    obtain ⟨he, ho, hg⟩ := h
    refine refuse_settled (fun h => ?_) ..
    rcases h with h | h | h
    · exact he h
    · exact ho h
    · exact (legacy_same_iff p message).mpr h hg
  · rename_i h
    refine resizeAndOwn_settled p ?_ message source answers
    by_contra hn
    rw [not_or, not_or] at hn
    exact h ⟨hn.1, hn.2.1, not_not.mp fun hg => hn.2.2 ((legacy_same_iff p message).mp hg)⟩

end TerminalPane

/-! ## Requests in a run -/

/-- The resize a message makes: through `applyLegacyInputResize` or through `applyResize`. -/
structure SizeRequest where
  source : Nat
  message : TerminalControlMessage
  legacy : Bool
  answers : PaneAnswers

def PaneEvent.sizeRequest : PaneEvent → Option SizeRequest
  | .control source message answers =>
    match message.type with
    | .input =>
      if message.Data = "" ∨ message.Generated = true then none
      else if message.ResizeEpoch ≠ "" then some ⟨source, message, false, answers⟩
      else if 0 < message.Cols ∧ 0 < message.Rows then some ⟨source, message, true, answers⟩
      else none
    | .resize => if 0 < message.Cols ∧ 0 < message.Rows then some ⟨source, message, false, answers⟩ else none
    | _ => none
  | .resizeFrame source message answers =>
    if message.type = .resize ∧ 0 < message.Cols ∧ 0 < message.Rows then
      some ⟨source, message, message.ResizeEpoch = "", answers⟩
    else none
  | _ => none

/-- The client and the message of an event, if it is one. -/
def PaneEvent.sender : PaneEvent → Option (Nat × TerminalControlMessage)
  | .control source message _ => some (source, message)
  | .resizeFrame source message _ => some (source, message)
  | _ => none

namespace TerminalPane

def answer (p : TerminalPane) (q : SizeRequest) : ResizeResult :=
  if q.legacy then
    p.applyLegacyInputResize q.message.Cols q.message.Rows q.message.PixelWidth q.message.PixelHeight q.source q.answers
  else p.applyResize q.message q.source q.answers

def AdmittedRequest (p : TerminalPane) (q : SizeRequest) : Prop :=
  if q.legacy then p.AdmittedLegacy q.message q.source else p.Admitted q.message q.source

end TerminalPane

/-- The epoch a granted request brings. -/
def SizeRequest.epoch (q : SizeRequest) : Option Nat :=
  if q.legacy then none else parseTerminalResizeEpoch q.message.ResizeEpoch

theorem sizeRequest_sender {e : PaneEvent} {q : SizeRequest} (h : e.sizeRequest = some q) :
    e.sender = some (q.source, q.message) ∧ (q.legacy = true → 0 < q.message.Cols ∧ 0 < q.message.Rows) := by
  cases e with
  | control source message answers =>
    simp only [PaneEvent.sizeRequest] at h
    split at h
    · split at h
      · cases h
      · split at h
        · cases h; exact ⟨rfl, fun hl => by cases hl⟩
        · split at h
          · rename_i hpos
            cases h; exact ⟨rfl, fun _ => hpos⟩
          · cases h
    · split at h
      · cases h; exact ⟨rfl, fun hl => by cases hl⟩
      · cases h
    · cases h
  | resizeFrame source message answers =>
    simp only [PaneEvent.sizeRequest] at h
    split at h
    · rename_i hpos
      cases h; exact ⟨rfl, fun _ => hpos.2⟩
    · cases h
  | _ => cases h

theorem answer_settled {p : TerminalPane} (hb : p.geometry.Bounded) {q : SizeRequest}
    (hpos : q.legacy = true → 0 < q.message.Cols ∧ 0 < q.message.Rows) :
    Settled p (p.AdmittedRequest q) (p.requested q.message) q.epoch q.source q.answers (p.answer q) := by
  unfold TerminalPane.AdmittedRequest TerminalPane.answer SizeRequest.epoch
  cases hl : q.legacy with
  | true =>
    obtain ⟨hc, hr⟩ := hpos hl
    simp only [if_true]
    exact TerminalPane.applyLegacy_settled q.message q.source q.answers hc hr
  | false =>
    simp only [Bool.false_eq_true, if_false]
    exact TerminalPane.applyResize_settled hb q.message q.source q.answers

theorem step_sizeRequest {e : PaneEvent} {q : SizeRequest} (h : e.sizeRequest = some q) (p : TerminalPane) :
    paneMachine.step p e = p.accept q.source (p.answer q) := by
  cases e with
  | control source message answers =>
    simp only [PaneEvent.sizeRequest] at h
    simp only [paneMachine, TerminalPane.handleTerminalControlMessage]
    split at h
    · rename_i ht
      split at h
      · cases h
      · rename_i hd
        simp only [ht, if_neg hd]
        split at h
        · rename_i he
          cases h
          simp only [if_pos he, TerminalPane.answer, Bool.false_eq_true, if_false]
        · rename_i he
          split at h
          · cases h
            simp only [if_neg he, TerminalPane.answer, if_true]
          · cases h
    · rename_i ht
      split at h
      · rename_i hpos
        cases h
        simp only [ht, if_pos hpos, TerminalPane.answer, Bool.false_eq_true, if_false]
      · cases h
    · cases h
  | resizeFrame source message answers =>
    simp only [PaneEvent.sizeRequest] at h
    simp only [paneMachine, TerminalPane.handleResizeFrame]
    split at h
    · rename_i hpos
      cases h
      rw [if_pos hpos]
      simp only [TerminalPane.answer, decide_eq_true_eq]
    · cases h
  | _ => cases h

end Webshell
