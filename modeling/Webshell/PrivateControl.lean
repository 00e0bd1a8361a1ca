import Webshell.PaneQueries
import Mathlib.Data.List.Infix

/-!
# Private reports of the shell

The shell reports its terminal device and its working directory in sequences
that are not passed on. A read may end anywhere in one; what may still become a
report is held until the next read.
-/

namespace Webshell

/-! ## The filters -/

/-- `bytes.Index`. -/
def bytesIndex (marker : Bytes) : Bytes → Option Nat
  | [] => if marker = [] then some 0 else none
  | b :: rest => if marker.isPrefixOf (b :: rest) then some 0 else (bytesIndex marker rest).map (· + 1)

/-- The loop of `privatePrefixSuffixLen`, from `keep` down. -/
def suffixLenFrom (buffer marker : Bytes) : Nat → Nat
  | 0 => 0
  | keep + 1 =>
    if buffer.drop (buffer.length - (keep + 1)) = marker.take (keep + 1) then keep + 1
    else suffixLenFrom buffer marker keep

def privatePrefixSuffixLen (buffer marker : Bytes) : Nat :=
  suffixLenFrom buffer marker (min buffer.length (marker.length - 1))

/-- The place and the length of the first terminator. -/
def findPrivateControlTerminator : Bytes → Option (Nat × Nat)
  | [] => none
  | b :: rest =>
    if b = bel then some (0, 1)
    else if b = esc ∧ rest.head? = some (code '\\') then some (0, 2)
    else (findPrivateControlTerminator rest).map fun found => (found.1 + 1, found.2)

inductive ControlScan
  | clear (emit keep : Bytes)
  | unfinished (before rest : Bytes)
  | report (before value rest : Bytes)

/-- What one round of a filter's loop finds. -/
def scanControl (marker buffer : Bytes) : ControlScan :=
  match bytesIndex marker buffer with
  | none =>
    let emit := buffer.length - privatePrefixSuffixLen buffer marker
    .clear (buffer.take emit) (buffer.drop emit)
  | some index =>
    let body := (buffer.drop index).drop marker.length
    match findPrivateControlTerminator body with
    | none => .unfinished (buffer.take index) (buffer.drop index)
    | some (stop, length) => .report (buffer.take index) (body.take stop) (body.drop (stop + length))

structure ControlRound where
  output : Bytes := []
  pending : Bytes := []
  current : Bytes
  deriving DecidableEq

/-- `giveUp` is how much of a sequence that got too long is passed on at once. -/
structure ControlFilter where
  marker : Bytes
  maxPending : Nat
  giveUp : Bytes → Nat
  accept : Bytes → Option Bytes

/-- A round takes at least a byte. -/
def ControlFilter.loop (f : ControlFilter) : Nat → Bytes → ControlRound → ControlRound
  | 0, _, r => r
  | _ + 1, [], r => r
  | fuel + 1, b :: buffer, r =>
    match scanControl f.marker (b :: buffer) with
    | .clear emit keep => { r with output := r.output ++ emit, pending := keep }
    | .unfinished before rest =>
      if f.maxPending < rest.length then
        f.loop fuel (rest.drop (f.giveUp rest)) { r with output := r.output ++ before ++ rest.take (f.giveUp rest) }
      else { r with output := r.output ++ before, pending := rest }
    | .report before value rest =>
      f.loop fuel rest { r with output := r.output ++ before, current := (f.accept value).getD r.current }

/-- The held bytes and the current value, and one read's output before them. -/
def ControlFilter.read (f : ControlFilter) (pending current data : Bytes) : ControlRound :=
  f.loop (pending ++ data).length (pending ++ data) { current := current }

/-- The pane's fields that the filters use. -/
structure PaneControls where
  controlPending : Bytes := []
  tty : Bytes := []
  localCWDPending : Bytes := []
  cwd : Bytes := []
  deriving DecidableEq

def ttyMarker : Bytes := ascii "\x1b]777;webshell-tty="

def ttyFilter (ValidTTY : Bytes → Bool) : ControlFilter where
  marker := ttyMarker
  maxPending := 512
  giveUp := fun _ => 1
  accept := fun value => if ValidTTY value then some value else none

def filterPrivateControlOutput (ValidTTY : Bytes → Bool) (p : PaneControls) (data : Bytes) : Bytes × PaneControls :=
  let r := (ttyFilter ValidTTY).read p.controlPending p.tty data
  (r.output, { p with controlPending := r.pending, tty := r.current })

def unhex (c : UInt8) : Option UInt8 :=
  if code '0' ≤ c ∧ c ≤ code '9' then some (c - code '0')
  else if code 'a' ≤ c ∧ c ≤ code 'f' then some (c - code 'a' + 10)
  else if code 'A' ≤ c ∧ c ≤ code 'F' then some (c - code 'A' + 10)
  else none

/-- `url.PathUnescape`. -/
def pathUnescape : Bytes → Option Bytes
  | [] => some []
  | c :: rest =>
    if c = code '%' then
      match rest with
      | a :: b :: rest =>
        match unhex a, unhex b with
        | some high, some low => (pathUnescape rest).map fun more => (high * 16 + low) :: more
        | _, _ => none
      | _ => none
    else (pathUnescape rest).map (c :: ·)

/-- `isAbs` and `clean` are those of the platform's paths. -/
def localCWD (isAbs : Bytes → Bool) (clean : Bytes → Bytes) (escaped : Bytes) : Option Bytes :=
  match pathUnescape escaped with
  | some value => if value.length ≤ 4096 ∧ isAbs value ∧ 0 ∉ value then some (clean value) else none
  | none => none

def cwdMarker : Bytes := ascii "\x1b]777;webshell-cwd="

def cwdFilter (isAbs : Bytes → Bool) (clean : Bytes → Bytes) : ControlFilter where
  marker := cwdMarker
  maxPending := 16384
  giveUp := List.length
  accept := localCWD isAbs clean

def filterLocalCWDOutput (isAbs : Bytes → Bool) (clean : Bytes → Bytes) (p : PaneControls) (data : Bytes) :
    Bytes × PaneControls :=
  let r := (cwdFilter isAbs clean).read p.localCWDPending p.cwd data
  (r.output, { p with localCWDPending := r.pending, cwd := r.current })

/-- The reads of a stream one after the other. -/
def filterReads (filter : PaneControls → Bytes → Bytes × PaneControls) : List Bytes → PaneControls → Bytes × PaneControls
  | [], p => ([], p)
  | data :: reads, p =>
    let r := filter p data
    let rest := filterReads filter reads r.2
    (r.1 ++ rest.1, rest.2)

/-! ## What is to come of a stream -/

def Unterminated (value : Bytes) : Prop := bel ∉ value ∧ ¬ [esc, code '\\'] <:+: value

def Terminator (t : Bytes) : Prop := t = [bel] ∨ t = [esc, code '\\']

/-- A proper beginning of a report. -/
def Unfinished (marker held : Bytes) : Prop :=
  (held <+: marker ∧ held ≠ marker) ∨ ∃ value, held = marker ++ value ∧ Unterminated value

/-- No report begins here, whatever follows. -/
def Mismatch (marker s : Bytes) : Prop := ¬ marker <+: s ∧ ¬ s <+: marker

/-- The stream, what is passed on of it, the values of its reports, and what is held of it. -/
inductive Filtered (marker : Bytes) : Bytes → Bytes → List Bytes → Bytes → Prop
  | held {h : Bytes} : Unfinished marker h → Filtered marker h [] [] h
  | pass {b : UInt8} {rest output : Bytes} {values : List Bytes} {held : Bytes} : Mismatch marker (b :: rest) →
    Filtered marker rest output values held → Filtered marker (b :: rest) (b :: output) values held
  | report {value t rest output : Bytes} {values : List Bytes} {held : Bytes} : Unterminated value → Terminator t →
    Filtered marker rest output values held →
    Filtered marker (marker ++ value ++ t ++ rest) output (value :: values) held

/-- Every marker in the stream has its terminator in time, or is too close to the stream's end to tell. -/
def Bounded (marker : Bytes) (limit : Nat) (stream : Bytes) : Prop :=
  ∀ front s, stream = front ++ marker ++ s → (marker ++ s).length ≤ limit ∨
    ∃ value t rest, s = value ++ t ++ rest ∧ Unterminated value ∧ Terminator t ∧ (marker ++ value ++ t).length ≤ limit + 1

/-! ## Terminators -/

theorem unterminated_nil : Unterminated [] := ⟨by simp, by simp⟩

theorem unterminated_cons {b : UInt8} {value : Bytes} (hb : b ≠ bel)
    (he : ¬ (b = esc ∧ value.head? = some (code '\\'))) (h : Unterminated value) : Unterminated (b :: value) := by
  refine ⟨fun hm => ?_, fun hi => ?_⟩
  · rcases List.mem_cons.mp hm with hm | hm
    · exact hb hm.symm
    · exact h.1 hm
  · rcases List.infix_cons_iff.mp hi with hp | hi
    · rw [List.cons_prefix_cons] at hp
      obtain ⟨y, rfl⟩ := hp.2
      exact he ⟨hp.1.symm, rfl⟩
    · exact h.2 hi

theorem unterminated_tail {b : UInt8} {value : Bytes} (h : Unterminated (b :: value)) :
    b ≠ bel ∧ ¬ (b = esc ∧ value.head? = some (code '\\')) ∧ Unterminated value := by
  refine ⟨fun hb => h.1 (hb ▸ List.mem_cons_self ..), fun ⟨hb, hh⟩ => h.2 ?_, fun hm => h.1 (List.mem_cons_of_mem _ hm),
    fun hi => h.2 (List.infix_cons_iff.mpr (.inr hi))⟩
  cases value with
  | nil => cases hh
  | cons c value =>
    rw [List.head?_cons, Option.some.injEq] at hh
    subst hb hh
    exact ⟨[], value, rfl⟩

theorem findTerminator_none : ∀ {s : Bytes}, findPrivateControlTerminator s = none → Unterminated s
  | [], _ => unterminated_nil
  | b :: rest, h => by
    rw [findPrivateControlTerminator] at h
    split at h
    · cases h
    split at h
    · cases h
    · rename_i hb he
      rw [Option.map_eq_none_iff] at h
      exact unterminated_cons hb he (findTerminator_none h)

theorem findTerminator_some : ∀ {s : Bytes} {stop length : Nat}, findPrivateControlTerminator s = some (stop, length) →
    ∃ value t rest, s = value ++ t ++ rest ∧ Unterminated value ∧ Terminator t ∧ stop = value.length ∧ length = t.length
  | [], _, _, h => by cases h
  | b :: rest, stop, length, h => by
    rw [findPrivateControlTerminator] at h
    split at h
    · rename_i hb
      cases h
      exact ⟨[], [bel], rest, by simp [hb], unterminated_nil, .inl rfl, rfl, rfl⟩
    rename_i hb
    split at h
    · rename_i he
      cases h
      obtain ⟨rfl, hh⟩ := he
      cases rest with
      | nil => cases hh
      | cons c rest =>
        rw [List.head?_cons, Option.some.injEq] at hh
        subst hh
        exact ⟨[], [esc, code '\\'], rest, rfl, unterminated_nil, .inr rfl, rfl, rfl⟩
    · rename_i he
      obtain ⟨⟨stop', length'⟩, hf, hp⟩ := Option.map_eq_some_iff.mp h
      rw [Prod.mk.injEq] at hp
      obtain ⟨rfl, rfl⟩ := hp
      obtain ⟨value, t, rest', rfl, hv, ht, rfl, rfl⟩ := findTerminator_some hf
      refine ⟨b :: value, t, rest', by simp, unterminated_cons hb (fun hh => he ⟨hh.1, ?_⟩) hv, ht, by simp, rfl⟩
      cases value with
      | nil => cases hh.2
      | cons c value => exact hh.2

/-- The terminator that follows an unterminated value is the first one. -/
theorem findTerminator_first {t : Bytes} (ht : Terminator t) (rest : Bytes) : ∀ {value : Bytes}, Unterminated value →
    findPrivateControlTerminator (value ++ t ++ rest) = some (value.length, t.length)
  | [], _ => by
    rcases ht with rfl | rfl
    · rfl
    · rw [List.nil_append, List.cons_append, findPrivateControlTerminator, if_neg (by decide)]
      rfl
  | b :: value, h => by
    obtain ⟨hb, he, hv⟩ := unterminated_tail h
    rw [List.cons_append, List.cons_append, findPrivateControlTerminator, if_neg hb, if_neg fun hh => he ⟨hh.1, ?_⟩,
      findTerminator_first ht rest hv]
    · rfl
    · cases value with
      | cons c value => exact hh.2
      | nil =>
        -- a terminator does not begin with the second byte of one
        rcases ht with rfl | rfl
        · exact absurd (Option.some.inj hh.2) (by decide)
        · exact absurd (Option.some.inj hh.2) (by decide)

theorem Terminator.not_unterminated {t : Bytes} (ht : Terminator t) (value rest : Bytes) :
    ¬ Unterminated (value ++ t ++ rest) := by
  intro h
  rcases ht with rfl | rfl
  · exact h.1 (by simp)
  · exact h.2 ⟨value, rest, rfl⟩

/-! ## Markers -/

theorem bytesIndex_some {marker : Bytes} : ∀ {s : Bytes} {i : Nat}, bytesIndex marker s = some i →
    marker <+: s.drop i ∧ i ≤ s.length ∧ ∀ j < i, ¬ marker <+: s.drop j
  | [], i, h => by
    rw [bytesIndex] at h
    split at h
    · rename_i hm
      cases h
      exact ⟨by rw [hm]; exact List.nil_prefix, Nat.le_refl _, fun j hj => (by omega)⟩
    · cases h
  | b :: rest, i, h => by
    rw [bytesIndex] at h
    split at h
    · rename_i hp
      cases h
      exact ⟨List.isPrefixOf_iff_prefix.mp hp, Nat.zero_le _, fun j hj => (by omega)⟩
    · rename_i hp
      obtain ⟨k, hk, rfl⟩ := Option.map_eq_some_iff.mp h
      obtain ⟨hpre, hle, hmin⟩ := bytesIndex_some hk
      refine ⟨hpre, Nat.succ_le_succ hle, fun j hj => ?_⟩
      cases j with
      | zero => exact fun hc => hp (List.isPrefixOf_iff_prefix.mpr hc)
      | succ j => exact hmin j (by omega)

theorem bytesIndex_none {marker : Bytes} (hm : marker ≠ []) : ∀ {s : Bytes}, bytesIndex marker s = none →
    ∀ j, ¬ marker <+: s.drop j
  | [], _, j => by
    rw [List.drop_nil, List.prefix_nil]
    exact hm
  | b :: rest, h, j => by
    rw [bytesIndex] at h
    split at h
    · cases h
    · rename_i hp
      rw [Option.map_eq_none_iff] at h
      cases j with
      | zero => exact fun hc => hp (List.isPrefixOf_iff_prefix.mpr hc)
      | succ j => exact bytesIndex_none hm h j

theorem suffixLenFrom_spec (buffer marker : Bytes) : ∀ most, most ≤ buffer.length →
    suffixLenFrom buffer marker most ≤ most ∧
      buffer.drop (buffer.length - suffixLenFrom buffer marker most) <+: marker ∧
      ∀ keep, suffixLenFrom buffer marker most < keep → keep ≤ most → ¬ buffer.drop (buffer.length - keep) <+: marker
  | 0, _ => ⟨Nat.le_refl _, by simp [suffixLenFrom], fun keep h₁ h₂ => (by simp [suffixLenFrom] at h₁; omega)⟩
  | most + 1, hle => by
    rw [suffixLenFrom]
    split
    · rename_i he
      exact ⟨Nat.le_refl _, he ▸ List.take_prefix .., fun keep h₁ h₂ => (by omega)⟩
    · rename_i he
      obtain ⟨h₁, h₂, h₃⟩ := suffixLenFrom_spec buffer marker most (by omega)
      refine ⟨by omega, h₂, fun keep hk hm hp => ?_⟩
      by_cases hlast : keep = most + 1
      · subst hlast
        have hl : (buffer.drop (buffer.length - (most + 1))).length = most + 1 := by rw [List.length_drop]; omega
        rw [List.prefix_iff_eq_take, hl] at hp
        exact he hp
      · exact h₃ keep hk (by omega) hp

/-- A buffer without a marker: what is kept is a proper beginning of one, and no longer end of the
buffer is. -/
theorem privatePrefixSuffixLen_spec {buffer marker : Bytes} (hm : marker ≠ []) (hnone : ∀ j, ¬ marker <+: buffer.drop j) :
    let emit := buffer.length - privatePrefixSuffixLen buffer marker
    Unfinished marker (buffer.drop emit) ∧ ∀ j < emit, Mismatch marker (buffer.drop j) := by
  have hpos : 0 < marker.length := List.length_pos_of_ne_nil hm
  obtain ⟨h₁, h₂, h₃⟩ := suffixLenFrom_spec buffer marker (min buffer.length (marker.length - 1)) (Nat.min_le_left ..)
  simp only
  unfold privatePrefixSuffixLen
  generalize suffixLenFrom buffer marker (min buffer.length (marker.length - 1)) = kept at h₁ h₂ h₃
  constructor
  · refine .inl ⟨h₂, fun he => ?_⟩
    have := congrArg List.length he
    rw [List.length_drop] at this
    omega
  · intro j hj
    refine ⟨hnone j, fun hp => ?_⟩
    have hlen := hp.length_le
    rw [List.length_drop] at hlen
    by_cases hfull : buffer.length - j = marker.length
    · refine hnone j ?_
      rw [hp.eq_of_length (by rw [List.length_drop]; exact hfull)]
    · refine h₃ (buffer.length - j) (by omega) (by omega) ?_
      rwa [show buffer.length - (buffer.length - j) = j by omega]

/-! ## The relation -/

section
variable {marker : Bytes}

theorem Unfinished.not_mismatch {s : Bytes} (h : Unfinished marker s) : ¬ Mismatch marker s := by
  intro hm
  rcases h with ⟨hp, -⟩ | ⟨value, rfl, -⟩
  · exact hm.2 hp
  · exact hm.1 (List.prefix_append ..)

theorem Unfinished.not_report {value t rest : Bytes} (ht : Terminator t) :
    ¬ Unfinished marker (marker ++ value ++ t ++ rest) := by
  have hpos : 0 < t.length := by rcases ht with rfl | rfl <;> decide
  rintro (⟨hp, -⟩ | ⟨value', he, hu⟩)
  · have := hp.length_le
    simp only [List.length_append] at this
    omega
  · rw [List.append_assoc, List.append_assoc, List.append_cancel_left_eq] at he
    rw [← he, ← List.append_assoc] at hu
    exact ht.not_unterminated _ _ hu

theorem Mismatch.append {s : Bytes} (h : Mismatch marker s) (more : Bytes) : Mismatch marker (s ++ more) := by
  refine ⟨fun hp => ?_, fun hp => h.2 ((List.prefix_append s more).trans hp)⟩
  rcases List.prefix_or_prefix_of_prefix hp (List.prefix_append s more) with hc | hc
  · exact h.1 hc
  · exact h.2 hc

theorem Filtered.held_unfinished {s output held : Bytes} {values : List Bytes} (h : Filtered marker s output values held) :
    Unfinished marker held := by
  induction h with
  | held hu => exact hu
  | pass _ _ ih => exact ih
  | report _ _ _ ih => exact ih

theorem Filtered.unique {s output held : Bytes} {values : List Bytes} (h : Filtered marker s output values held) :
    ∀ {output' held' : Bytes} {values' : List Bytes}, Filtered marker s output' values' held' →
      output' = output ∧ values' = values ∧ held' = held := by
  induction h with
  | held hu =>
    intro output' held' values' h'
    cases h' with
    | held _ => exact ⟨rfl, rfl, rfl⟩
    | pass hm _ => exact absurd hm hu.not_mismatch
    | report _ ht _ => exact absurd hu (Unfinished.not_report ht)
  | pass hm _ ih =>
    intro output' held' values' h'
    generalize hs : _ :: _ = s' at h' hm
    cases h' with
    | held hu => exact absurd hm hu.not_mismatch
    | pass _ hr =>
      cases hs
      obtain ⟨rfl, rfl, rfl⟩ := ih hr
      exact ⟨rfl, rfl, rfl⟩
    | report _ _ _ =>
      refine absurd ?_ hm.1
      simp only [List.append_assoc]
      exact List.prefix_append ..
  | report hv ht _ ih =>
    rename_i value t rest output values held _
    intro output' held' values' h'
    generalize hs : marker ++ value ++ t ++ rest = s' at h'
    cases h' with
    | held hu => exact absurd (hs ▸ hu) (Unfinished.not_report ht)
    | pass hm _ =>
      refine absurd ?_ hm.1
      rw [← hs]
      simp only [List.append_assoc]
      exact List.prefix_append ..
    | report hv' ht' hr =>
      rename_i value' t' rest' values'
      simp only [List.append_assoc, List.append_cancel_left_eq] at hs
      have hf := findTerminator_first ht rest hv
      have hf' := findTerminator_first ht' rest' hv'
      simp only [List.append_assoc] at hf hf'
      rw [hs, hf', Option.some.injEq, Prod.mk.injEq] at hf
      obtain ⟨rfl, htail⟩ := List.append_inj hs hf.1.symm
      obtain ⟨rfl, rfl⟩ := List.append_inj htail hf.2.symm
      obtain ⟨rfl, rfl, rfl⟩ := ih hr
      exact ⟨rfl, rfl, rfl⟩

/-- A second piece goes on from what is held of the first. -/
theorem Filtered.append {s output held : Bytes} {values : List Bytes} (h : Filtered marker s output values held)
    {more output' held' : Bytes} {values' : List Bytes} (h' : Filtered marker (held ++ more) output' values' held') :
    Filtered marker (s ++ more) (output ++ output') (values ++ values') held' := by
  induction h with
  | held _ => exact h'
  | pass hm _ ih => exact .pass (hm.append more) (ih h')
  | report hv ht _ ih =>
    have := Filtered.report hv ht (ih h')
    simpa only [List.append_assoc, List.cons_append] using this

/-- Nothing begins before `rest`. -/
theorem Filtered.skip (before : Bytes) {rest output held : Bytes} {values : List Bytes}
    (hm : ∀ j < before.length, Mismatch marker ((before ++ rest).drop j)) (h : Filtered marker rest output values held) :
    Filtered marker (before ++ rest) (before ++ output) values held := by
  induction before with
  | nil => exact h
  | cons b before ih =>
    refine .pass (hm 0 (Nat.succ_pos _)) (ih fun j hj => ?_)
    exact hm (j + 1) (Nat.succ_lt_succ hj)

/-! ## One round -/

/-- Before the first marker nothing begins. -/
theorem mismatch_before {buffer : Bytes} {i : Nat} (hi : marker <+: buffer.drop i)
    (hmin : ∀ j < i, ¬ marker <+: buffer.drop j) {j : Nat} (hj : j < i) (hle : i ≤ buffer.length) :
    Mismatch marker (buffer.drop j) := by
  refine ⟨hmin j hj, fun hp => ?_⟩
  have h₁ := hp.length_le
  have h₂ := hi.length_le
  rw [List.length_drop] at h₁ h₂
  omega

/-- What a round finds, in terms of the relation. -/
theorem scanControl_spec (hm : marker ≠ []) (buffer : Bytes) :
    match scanControl marker buffer with
    | .clear emit keep => Filtered marker buffer emit [] keep
    | .unfinished before rest => buffer = before ++ rest ∧ Unfinished marker rest ∧ marker <+: rest ∧
        Filtered marker buffer before [] rest
    | .report before value rest => (∃ t, buffer = before ++ (marker ++ value ++ t ++ rest) ∧ Terminator t) ∧
        ∀ output values held, Filtered marker rest output values held →
          Filtered marker buffer (before ++ output) (value :: values) held := by
  unfold scanControl
  cases hi : bytesIndex marker buffer with
  | none =>
    obtain ⟨hu, hmis⟩ := privatePrefixSuffixLen_spec hm (bytesIndex_none hm hi)
    simp only at hu hmis ⊢
    generalize buffer.length - privatePrefixSuffixLen buffer marker = emit at hu hmis
    have h := Filtered.skip (buffer.take emit) (fun j hj => ?_) (.held hu)
    · rwa [List.take_append_drop, List.append_nil] at h
    · rw [List.take_append_drop]
      rw [List.length_take] at hj
      exact hmis j (by omega)
  | some i =>
    obtain ⟨hp, hle, hmin⟩ := bytesIndex_some hi
    obtain ⟨body, hbody⟩ := hp
    have hdrop : (buffer.drop i).drop marker.length = body := by rw [← hbody, List.drop_left]
    have hcut : buffer.take i ++ buffer.drop i = buffer := List.take_append_drop ..
    have hbefore : ∀ j < (buffer.take i).length, Mismatch marker ((buffer.take i ++ buffer.drop i).drop j) := by
      intro j hj
      rw [hcut]
      rw [List.length_take] at hj
      exact mismatch_before ⟨body, hbody⟩ hmin (by omega) hle
    simp only [hdrop]
    cases hf : findPrivateControlTerminator body with
    | none =>
      have hu : Unfinished marker (buffer.drop i) := .inr ⟨body, hbody.symm, findTerminator_none hf⟩
      have h := Filtered.skip (buffer.take i) hbefore (.held hu)
      rw [hcut, List.append_nil] at h
      exact ⟨hcut.symm, hu, ⟨body, hbody⟩, h⟩
    | some found =>
      obtain ⟨stop, length⟩ := found
      obtain ⟨value, t, rest, rfl, hv, ht, rfl, rfl⟩ := findTerminator_some hf
      have htake : (value ++ t ++ rest).take value.length = value := by rw [List.append_assoc, List.take_left]
      have hrest : (value ++ t ++ rest).drop (value.length + t.length) = rest := by
        rw [← List.length_append, List.drop_left]
      simp only [htake, hrest]
      have hwhole : buffer = buffer.take i ++ (marker ++ value ++ t ++ rest) := by
        rw [List.append_assoc marker, List.append_assoc marker, hbody, hcut]
      refine ⟨⟨t, hwhole, ht⟩, fun output values held h => ?_⟩
      have hb : buffer.drop i = marker ++ value ++ t ++ rest := by
        rw [← hbody]
        simp only [List.append_assoc]
      have h' := Filtered.skip (buffer.take i) hbefore (hb ▸ Filtered.report hv ht h)
      rwa [hcut] at h'

theorem Bounded.part {limit : Nat} (front : Bytes) {s : Bytes} (back : Bytes) (h : Bounded marker limit (front ++ s ++ back)) :
    Bounded marker limit s := by
  intro pre rest he
  rcases h (front ++ pre) (rest ++ back) (by rw [he]; simp only [List.append_assoc]) with hl | ⟨value, t, more, hs, hv, ht, hl⟩
  · refine .inl ?_
    simp only [List.length_append] at hl ⊢
    omega
  · by_cases hlen : (value ++ t).length ≤ rest.length
    · have hp : value ++ t <+: rest :=
        List.prefix_of_prefix_length_le ⟨more, hs.symm⟩ (List.prefix_append ..) hlen
      obtain ⟨more', rfl⟩ := hp
      exact .inr ⟨value, t, more', rfl, hv, ht, hl⟩
    · refine .inl ?_
      simp only [List.length_append] at hl hlen ⊢
      omega

/-! ## One read -/

/-- The values of the reports, accepted or not, one after the other. -/
def ControlFilter.values (f : ControlFilter) (values : List Bytes) (current : Bytes) : Bytes :=
  ((values.filterMap f.accept).getLast?).getD current

theorem ControlFilter.values_cons (f : ControlFilter) (value : Bytes) (values : List Bytes) (current : Bytes) :
    f.values (value :: values) current = f.values values ((f.accept value).getD current) := by
  unfold ControlFilter.values
  cases ha : f.accept value with
  | none => rw [List.filterMap_cons_none ha]; rfl
  | some v =>
    rw [List.filterMap_cons_some ha, List.getLast?_cons]
    simp

theorem ControlFilter.values_append (f : ControlFilter) (values more : List Bytes) (current : Bytes) :
    f.values (values ++ more) current = f.values more (f.values values current) := by
  induction values generalizing current with
  | nil => rfl
  | cons value values ih => rw [List.cons_append, f.values_cons, ih, ← f.values_cons]

/-- While no sequence gets too long, the loop does what the relation says. -/
theorem ControlFilter.loop_spec (f : ControlFilter) (hm : f.marker ≠ []) : ∀ (fuel : Nat) (buffer : Bytes) (r : ControlRound),
    buffer.length ≤ fuel → Bounded f.marker f.maxPending buffer → r.pending = [] →
    ∃ output values held, Filtered f.marker buffer output values held ∧
      f.loop fuel buffer r = { output := r.output ++ output, pending := held, current := f.values values r.current } := by
  have hpos : 0 < f.marker.length := List.length_pos_of_ne_nil hm
  have hempty (r : ControlRound) (hr : r.pending = []) : ∃ output values held, Filtered f.marker [] output values held ∧
      r = { output := r.output ++ output, pending := held, current := f.values values r.current } := by
    refine ⟨[], [], [], .held (.inl ⟨List.nil_prefix, Ne.symm hm⟩), ?_⟩
    rw [List.append_nil, ← hr]
    rfl
  intro fuel
  induction fuel with
  | zero =>
    intro buffer r hl _ hr
    rw [List.length_eq_zero_iff.mp (Nat.le_zero.mp hl)]
    exact hempty r hr
  | succ fuel ih =>
    intro buffer r hl hb hr
    cases buffer with
    | nil => exact hempty r hr
    | cons b buffer =>
      have hspec := scanControl_spec hm (b :: buffer)
      rw [ControlFilter.loop]
      cases hs : scanControl f.marker (b :: buffer) with
      | clear emit keep =>
        rw [hs] at hspec
        exact ⟨emit, [], keep, hspec, rfl⟩
      | unfinished before rest =>
        rw [hs] at hspec
        obtain ⟨hcut, hu, ⟨body, rfl⟩, hfilt⟩ := hspec
        have hshort : (f.marker ++ body).length ≤ f.maxPending := by
          rcases hb before body (by rw [hcut, List.append_assoc]) with hshort | ⟨value, t, more, rfl, -, ht, -⟩
          · exact hshort
          · refine absurd hu ?_
            rw [← List.append_assoc, ← List.append_assoc]
            exact Unfinished.not_report ht
        simp only [if_neg (Nat.not_lt.mpr hshort)]
        exact ⟨before, [], _, hfilt, rfl⟩
      | report before value rest =>
        rw [hs] at hspec
        obtain ⟨⟨t, hcut, -⟩, hfilt⟩ := hspec
        have hlen : rest.length ≤ fuel := by
          have := congrArg List.length hcut
          simp only [List.length_append, List.length_cons] at this hl
          omega
        have hrest : Bounded f.marker f.maxPending rest := by
          refine Bounded.part (before ++ (f.marker ++ value ++ t)) [] ?_
          rw [List.append_nil, List.append_assoc before, ← hcut]
          exact hb
        obtain ⟨output, values, held, hf, he⟩ := ih rest
          { r with output := r.output ++ before, current := (f.accept value).getD r.current } hlen hrest hr
        refine ⟨before ++ output, value :: values, held, hfilt output values held hf, ?_⟩
        simp only [he, ControlFilter.values_cons, List.append_assoc]

end

/-! ## Every cut -/

section
variable (f : ControlFilter) {filter : PaneControls → Bytes → Bytes × PaneControls} {put : Bytes → Bytes → PaneControls}

/-- A filter whose fields of the pane are the held bytes and the current value. -/
structure Filters (f : ControlFilter) (filter : PaneControls → Bytes → Bytes × PaneControls)
    (put : Bytes → Bytes → PaneControls) : Prop where
  marker : f.marker ≠ []
  read : ∀ pending current data, filter (put pending current) data =
    ((f.read pending current data).output, put (f.read pending current data).pending (f.read pending current data).current)

theorem Filters.cuts (hf : Filters f filter put) : ∀ (reads : List Bytes) (seen output held current : Bytes)
    (values : List Bytes), Filtered f.marker seen output values held →
    Bounded f.marker f.maxPending (seen ++ reads.flatten) →
    ∃ output' values' held', Filtered f.marker (seen ++ reads.flatten) (output ++ output') (values ++ values') held' ∧
      filterReads filter reads (put held current) = (output', put held' (f.values values' current)) := by
  intro reads
  induction reads with
  | nil =>
    intro seen output held current values h _
    exact ⟨[], [], held, by simpa using h, rfl⟩
  | cons data reads ih =>
    intro seen output held current values h hb
    -- the held bytes are the end of what was seen
    obtain ⟨front, hseen⟩ : ∃ front, seen = front ++ held := by
      clear hb
      induction h with
      | held _ => exact ⟨[], rfl⟩
      | pass _ _ ih =>
        obtain ⟨front, he⟩ := ih
        exact ⟨_ :: front, by rw [he]; rfl⟩
      | report _ _ _ ih =>
        obtain ⟨front, he⟩ := ih
        exact ⟨_ ++ front, by rw [he, ← List.append_assoc]⟩
    have hbuffer : Bounded f.marker f.maxPending (held ++ data) := by
      refine Bounded.part front reads.flatten ?_
      rw [List.flatten_cons, hseen] at hb
      simpa only [List.append_assoc] using hb
    obtain ⟨output₁, values₁, held₁, hfilt, he⟩ :=
      f.loop_spec hf.marker _ (held ++ data) { current := current } (Nat.le_refl _) hbuffer rfl
    obtain ⟨output₂, values₂, held₂, hrest, hreads⟩ := ih (seen ++ data) (output ++ output₁) held₁
      (f.values values₁ current) (values ++ values₁) (h.append hfilt) (by simpa using hb)
    refine ⟨output₁ ++ output₂, values₁ ++ values₂, held₂, by simpa using hrest, ?_⟩
    have hread : f.read held current data =
        { output := output₁, pending := held₁, current := f.values values₁ current } := he
    rw [filterReads, hf.read, hread]
    simp only [hreads, ControlFilter.values_append]

/-- From the start of a stream. -/
theorem Filters.stream (hf : Filters f filter put) {reads : List Bytes} (hb : Bounded f.marker f.maxPending reads.flatten)
    (current : Bytes) : ∃ output values held, Filtered f.marker reads.flatten output values held ∧ Unfinished f.marker held ∧
      filterReads filter reads (put [] current) = (output, put held (f.values values current)) ∧
      ∀ reads' : List Bytes, reads'.flatten = reads.flatten →
        filterReads filter reads' (put [] current) = filterReads filter reads (put [] current) := by
  have hnil : Filtered f.marker [] [] [] [] := .held (.inl ⟨List.nil_prefix, Ne.symm hf.marker⟩)
  obtain ⟨output, values, held, hfilt, he⟩ := hf.cuts f reads [] [] [] current [] hnil hb
  refine ⟨output, values, held, hfilt, hfilt.held_unfinished, he, fun reads' hsame => ?_⟩
  obtain ⟨output', values', held', hfilt', he'⟩ :=
    hf.cuts f reads' [] [] [] current [] hnil (by rw [List.nil_append, hsame]; exact hb)
  rw [hsame] at hfilt'
  obtain ⟨h₁, h₂, h₃⟩ := hfilt.unique hfilt'
  simp only [List.nil_append] at h₁ h₂
  rw [he, he', h₁, h₂, h₃]

end

theorem ttyFilters (ValidTTY : Bytes → Bool) (p : PaneControls) : Filters (ttyFilter ValidTTY)
    (filterPrivateControlOutput ValidTTY) fun pending tty => { p with controlPending := pending, tty := tty } where
  marker := show ttyMarker ≠ [] by decide
  read _ _ _ := rfl

theorem cwdFilters (isAbs : Bytes → Bool) (clean : Bytes → Bytes) (p : PaneControls) : Filters (cwdFilter isAbs clean)
    (filterLocalCWDOutput isAbs clean) fun pending cwd => { p with localCWDPending := pending, cwd := cwd } where
  marker := show cwdMarker ≠ [] by decide
  read _ _ _ := rfl

/-- The sum of what a filter made of a stream: the relation holds, the held bytes are a proper
beginning of a report, the last accepted report stands, and the cuts do not show. -/
def CutsHidden (f : ControlFilter) (filter : PaneControls → Bytes → Bytes × PaneControls)
    (put : Bytes → Bytes → PaneControls) (current : Bytes) (reads : List Bytes) : Prop :=
  ∃ output values held, Filtered f.marker reads.flatten output values held ∧ Unfinished f.marker held ∧
    filterReads filter reads (put [] current) = (output, put held (f.values values current)) ∧
    ∀ reads' : List Bytes, reads'.flatten = reads.flatten →
      filterReads filter reads' (put [] current) = filterReads filter reads (put [] current)

theorem privateControls_cut (ValidTTY isAbs : Bytes → Bool) (clean : Bytes → Bytes) (p : PaneControls) (reads : List Bytes) :
    (Bounded ttyMarker 512 reads.flatten →
      CutsHidden (ttyFilter ValidTTY) (filterPrivateControlOutput ValidTTY)
        (fun pending tty => { p with controlPending := pending, tty := tty }) p.tty reads) ∧
    (Bounded cwdMarker 16384 reads.flatten →
      CutsHidden (cwdFilter isAbs clean) (filterLocalCWDOutput isAbs clean)
        (fun pending cwd => { p with localCWDPending := pending, cwd := cwd }) p.cwd reads) :=
  ⟨fun h => (ttyFilters ValidTTY p).stream _ h p.tty, fun h => (cwdFilters isAbs clean p).stream _ h p.cwd⟩

theorem Bounded.of_short {marker stream : Bytes} {limit : Nat} (h : stream.length ≤ limit) : Bounded marker limit stream := by
  intro front s he
  have := congrArg List.length he
  simp only [List.length_append] at this ⊢
  exact .inl (by omega)

/-- Two reports, cut inside a marker and between the two bytes of a terminator. -/
def demoReads : List Bytes :=
  [ascii "a\x1b]777;web", ascii "shell-tty=/dev/pts/3\x1b", ascii "\\b\x1b]777;webshell-cwd=/home%20x\x07c\x1b]7"]

def demoTTY (value : Bytes) : Bool := value = ascii "/dev/pts/3"

def demoAbs (value : Bytes) : Bool := value.head? = some (code '/')

theorem privateControls_cut_demo :
    CutsHidden (ttyFilter demoTTY) (filterPrivateControlOutput demoTTY)
      (fun pending tty => { controlPending := pending, tty := tty }) [] demoReads ∧
    CutsHidden (cwdFilter demoAbs id) (filterLocalCWDOutput demoAbs id)
      (fun pending cwd => { localCWDPending := pending, cwd := cwd }) [] demoReads :=
  ⟨(privateControls_cut demoTTY demoAbs id {} demoReads).1 (.of_short (by decide)),
    (privateControls_cut demoTTY demoAbs id {} demoReads).2 (.of_short (by decide))⟩

end Webshell
