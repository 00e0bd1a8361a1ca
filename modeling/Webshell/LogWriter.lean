import Mathlib.Algebra.Group.Nat.Defs
import Mathlib.Data.List.Basic

/-!
# The log writer

What a child process writes to its standard error is cut into lines and handed
to the log. A line without its end waits in `pending`.
-/

namespace Webshell

def serverLogMessageLimit : Nat := 8 * 2 ^ 10

/-- `published` is what `publish` has been called with. -/
structure LogWriter where
  pending : List UInt8 := []
  published : List (List UInt8) := []
  deriving DecidableEq

namespace LogWriter

def publish (w : LogWriter) (message : List UInt8) : LogWriter := { w with published := w.published ++ [message] }

/-- The loop over the lines that have an end. -/
def publishLines (w : LogWriter) : LogWriter :=
  match h : w.pending.findIdx? (· = 10) with
  | none => w
  | some index => publishLines { w.publish (w.pending.take index) with pending := w.pending.drop (index + 1) }
termination_by w.pending.length
decreasing_by
  have hlt := (List.findIdx?_eq_some_iff_getElem.mp h).1
  simp only [List.length_drop]
  omega

def write (w : LogWriter) (data : List UInt8) : LogWriter :=
  let w := publishLines { w with pending := w.pending ++ data }
  if serverLogMessageLimit < w.pending.length then
    { w.publish (w.pending.take serverLogMessageLimit) with pending := w.pending.drop serverLogMessageLimit }
  else w

def writes (data : List (List UInt8)) : LogWriter := data.foldl write {}

end LogWriter

/-! ## Lines -/

/-- What stands behind the last newline. -/
def lastLine : List UInt8 → List UInt8
  | [] => []
  | byte :: data => if 10 ∈ byte :: data then lastLine data else byte :: data

theorem lastLine_of_not_mem {data : List UInt8} (h : 10 ∉ data) : lastLine data = data := by
  cases data with
  | nil => rfl
  | cons byte data => exact if_neg h

theorem lastLine_newline (line rest : List UInt8) : lastLine (line ++ 10 :: rest) = lastLine rest := by
  induction line with
  | nil =>
    rw [List.nil_append, lastLine, if_pos (List.mem_cons_self ..)]
  | cons byte line ih =>
    rw [List.cons_append, lastLine, if_pos, ih]
    exact List.mem_cons_of_mem _ (List.mem_append_right _ (List.mem_cons_self ..))

theorem findIdx?_newline {data : List UInt8} {index : Nat} (h : data.findIdx? (· = 10) = some index) :
    data = data.take index ++ 10 :: data.drop (index + 1) ∧ 10 ∉ data.take index := by
  obtain ⟨hlt, hnewline, hbefore⟩ := List.findIdx?_eq_some_iff_getElem.mp h
  constructor
  · have hcons := List.drop_eq_getElem_cons hlt
    rw [of_decide_eq_true hnewline] at hcons
    rw [← hcons, List.take_append_drop]
  · intro hm
    obtain ⟨j, hj, hget⟩ := List.mem_take_iff_getElem.mp hm
    exact hbefore j (by omega) (decide_eq_true hget)

theorem not_mem_of_findIdx? {data : List UInt8} (h : data.findIdx? (· = 10) = none) : 10 ∉ data := by
  intro hm
  have hne := List.findIdx?_eq_none_iff.mp h 10 hm
  cases hne

/-! ## Cuts -/

/-- Where the text is cut: at a newline, which goes, or at the limit of a line without one. -/
inductive LogCut
  | newline (line : List UInt8)
  | limit (piece : List UInt8)

namespace LogCut

def text : LogCut → List UInt8
  | newline line => line
  | limit piece => piece

def bytes : LogCut → List UInt8
  | newline line => line ++ [10]
  | limit piece => piece

def Sound : LogCut → Prop
  | newline line => 10 ∉ line
  | limit piece => 10 ∉ piece ∧ piece.length = serverLogMessageLimit

end LogCut

namespace LogWriter

/-- What has been published is `input` cut, up to what is pending. -/
def Cuts (w : LogWriter) (input : List UInt8) : Prop :=
  ∃ cuts : List LogCut, (∀ cut ∈ cuts, cut.Sound) ∧ w.published = cuts.map LogCut.text ∧
    (cuts.map LogCut.bytes).flatten ++ w.pending = input

variable {w : LogWriter} {input : List UInt8}

theorem Cuts.publish (h : w.Cuts input) {c : LogCut} (hc : c.Sound) {rest : List UInt8}
    (hp : w.pending = c.bytes ++ rest) : { w.publish c.text with pending := rest }.Cuts input := by
  obtain ⟨cuts, hsound, hpublished, hinput⟩ := h
  refine ⟨cuts ++ [c], fun d hm => ?_, ?_, ?_⟩
  · rcases List.mem_append.mp hm with hm | hm
    · exact hsound d hm
    · rw [List.mem_singleton.mp hm]
      exact hc
  · rw [List.map_append]
    exact congrArg (· ++ [c.text]) hpublished
  · rw [← hinput, hp]
    simp

/-- The loop leaves the last line. -/
theorem publishLines_cuts (h : w.Cuts input) :
    w.publishLines.Cuts input ∧ w.publishLines.pending = lastLine w.pending ∧ 10 ∉ w.publishLines.pending := by
  induction w using publishLines.induct with
  | case1 w hnone =>
    have hmem := not_mem_of_findIdx? hnone
    have heq : w.publishLines = w := by
      rw [publishLines]
      split
      · rfl
      · rename_i index hindex
        cases hnone.symm.trans hindex
    rw [heq]
    exact ⟨h, (lastLine_of_not_mem hmem).symm, hmem⟩
  | case2 w index hindex ih =>
    obtain ⟨hsplit, hmem⟩ := findIdx?_newline hindex
    have heq : w.publishLines =
        publishLines { w.publish (w.pending.take index) with pending := w.pending.drop (index + 1) } := by
      rw [publishLines]
      split
      · rename_i hnone
        cases hnone.symm.trans hindex
      · rename_i index' hindex'
        cases hindex.symm.trans hindex'
        rfl
    obtain ⟨hcuts, hpending, hlast⟩ := ih (h.publish (c := .newline (w.pending.take index)) hmem
      (by rw [LogCut.bytes, List.append_assoc]; exact hsplit))
    rw [heq]
    have hline := congrArg lastLine hsplit
    rw [lastLine_newline] at hline
    exact ⟨hcuts, hpending.trans hline.symm, hlast⟩

/-- One call of `Write`. -/
theorem write_cuts (h : w.Cuts input) (data : List UInt8) :
    (w.write data).Cuts (input ++ data) ∧ (w.write data).pending =
      (lastLine (w.pending ++ data)).drop (if serverLogMessageLimit < (lastLine (w.pending ++ data)).length then
        serverLogMessageLimit else 0) := by
  have hdata : { w with pending := w.pending ++ data }.Cuts (input ++ data) := by
    obtain ⟨cuts, hsound, hpublished, hinput⟩ := h
    refine ⟨cuts, hsound, hpublished, ?_⟩
    rw [← hinput, List.append_assoc]
  obtain ⟨hcuts, hpending, hmem⟩ := publishLines_cuts hdata
  unfold write
  simp only at hpending ⊢
  rw [← hpending]
  by_cases hlong : serverLogMessageLimit < (publishLines { w with pending := w.pending ++ data }).pending.length
  · rw [if_pos hlong, if_pos hlong]
    refine ⟨hcuts.publish (c := .limit _) ⟨fun hm => hmem (List.mem_of_mem_take hm), ?_⟩ ?_, rfl⟩
    · rw [List.length_take]
      omega
    · exact (List.take_append_drop ..).symm
  · rw [if_neg hlong, if_neg hlong]
    exact ⟨hcuts, rfl⟩

theorem writes_cuts (data : List (List UInt8)) : (writes data).Cuts data.flatten := by
  unfold writes
  suffices h : ∀ (w : LogWriter) (input : List UInt8), w.Cuts input → (data.foldl write w).Cuts (input ++ data.flatten) from
    h {} [] ⟨[], fun _ hm => absurd hm List.not_mem_nil, rfl, rfl⟩
  induction data with
  | nil =>
    intro w input h
    rw [List.flatten_nil, List.append_nil]
    exact h
  | cons chunk data ih =>
    intro w input h
    rw [List.flatten_cons, ← List.append_assoc]
    exact ih _ _ (write_cuts h chunk).1

theorem writes_concat (data : List (List UInt8)) (chunk : List UInt8) :
    writes (data ++ [chunk]) = (writes data).write chunk := by
  unfold writes
  rw [List.foldl_append]
  rfl

/-- The limit is cut off once. -/
theorem pending_write_le (data : List (List UInt8)) (chunk : List UInt8) :
    (writes (data ++ [chunk])).pending.length ≤ serverLogMessageLimit ↔
      (lastLine ((writes data).pending ++ chunk)).length ≤ 2 * serverLogMessageLimit := by
  rw [writes_concat, (write_cuts (writes_cuts data) chunk).2, List.length_drop]
  split <;> omega

end LogWriter

/-! ## All calls -/

/-- Nothing is lost, and no call leaves more than the limit. -/
structure LogKept (data : List (List UInt8)) : Prop where
  cuts : (LogWriter.writes data).Cuts data.flatten
  bounded : ∀ before chunk after, data = before ++ chunk :: after →
    (LogWriter.writes (before ++ [chunk])).pending.length ≤ serverLogMessageLimit

/-- The writer keeps its bound as long as no call brings the line without an end to more than twice the limit;
it loses nothing in any case. -/
theorem log_writer (data : List (List UInt8)) :
    LogKept data ↔ ∀ before chunk after, data = before ++ chunk :: after →
      (lastLine ((LogWriter.writes before).pending ++ chunk)).length ≤ 2 * serverLogMessageLimit := by
  constructor
  · intro h before chunk after heq
    exact (LogWriter.pending_write_le before chunk).mp (h.bounded before chunk after heq)
  · intro h
    refine ⟨LogWriter.writes_cuts data, fun before chunk after heq => ?_⟩
    exact (LogWriter.pending_write_le before chunk).mpr (h before chunk after heq)

/-- One call with one byte more than twice the limit, and no newline. -/
theorem log_writer_long : ¬LogKept [List.replicate 16385 120] := by
  intro h
  have hle := (LogWriter.pending_write_le [] _).mp (h.bounded [] _ [] rfl)
  rw [show (LogWriter.writes []).pending = [] from rfl, List.nil_append, lastLine_of_not_mem, List.length_replicate] at hle
  · exact absurd hle (by decide)
  · intro hm
    exact absurd (List.eq_of_mem_replicate hm) (by decide)

end Webshell
