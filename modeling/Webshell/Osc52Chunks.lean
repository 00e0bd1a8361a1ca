import Webshell.Osc52

/-!
# Clipboard writes and how the output is cut

The loop is a scanner whose decisions stand, so what it writes and keeps does
not show where the stream was cut.
-/

namespace Webshell

/-! ## The scanner -/

/-- What the front of a stream is; a body is an action. -/
def osc52Front (buffer : Utf16) : Scanner.Decision Utf16 :=
  if osc52Start <+: buffer then
    match osc52End (buffer.drop osc52Start.length) with
    | some (stop, terminatorLength) =>
      .take (osc52Start.length + stop + terminatorLength) false [(buffer.drop osc52Start.length).take stop]
    | none => .hold
  else if buffer <+: osc52Start then .hold
  else .take 1 false []

section Terminators

variable {rest : Utf16} {stop terminatorLength : Nat}

theorem osc52End_some (h : osc52End rest = some (stop, terminatorLength)) :
    Search.indexOf BEL rest = some stop ∧ terminatorLength = 1 ∧ (∀ st, Search.indexOf ST rest = some st → stop ≤ st) ∨
      Search.indexOf ST rest = some stop ∧ terminatorLength = 2 ∧ (∀ bel, Search.indexOf BEL rest = some bel → stop < bel) := by
  unfold osc52End at h
  split at h
  · rename_i bel hbel hst
    cases h
    exact .inl ⟨hbel, rfl, fun st h => by rw [hst] at h; cases h⟩
  · rename_i bel st hbel hst
    split at h
    · rename_i hle
      cases h
      refine .inl ⟨hbel, rfl, fun st' h => ?_⟩
      cases hst.symm.trans h
      exact hle
    · rename_i hlt
      cases h
      refine .inr ⟨hst, rfl, fun bel' h => ?_⟩
      cases hbel.symm.trans h
      exact Nat.lt_of_not_le hlt
  · rename_i st hbel hst
    cases h
    exact .inr ⟨hst, rfl, fun bel h => by rw [hbel] at h; cases h⟩
  · cases h

theorem osc52End_bel (h : Search.indexOf BEL rest = some stop) (hst : ∀ st, Search.indexOf ST rest = some st → stop ≤ st) :
    osc52End rest = some (stop, 1) := by
  unfold osc52End
  rw [h]
  cases hs : Search.indexOf ST rest with
  | none => rfl
  | some st =>
    simp only
    rw [if_pos (hst st hs)]

theorem osc52End_st (h : Search.indexOf ST rest = some stop) (hbel : ∀ bel, Search.indexOf BEL rest = some bel → stop < bel) :
    osc52End rest = some (stop, 2) := by
  unfold osc52End
  rw [h]
  cases hb : Search.indexOf BEL rest with
  | none => rfl
  | some bel =>
    simp only
    rw [if_neg (Nat.not_le_of_lt (hbel bel hb))]

theorem osc52End_none (h : osc52End rest = none) : Search.indexOf BEL rest = none ∧ Search.indexOf ST rest = none := by
  unfold osc52End at h
  split at h
  · cases h
  · split at h <;> cases h
  · cases h
  · rename_i hbel hst
    exact ⟨hbel, hst⟩

theorem osc52End_le (h : osc52End rest = some (stop, terminatorLength)) :
    stop + terminatorLength ≤ rest.length ∧ 0 < terminatorLength := by
  rcases osc52End_some h with ⟨hbel, rfl, -⟩ | ⟨hst, rfl, -⟩
  · exact ⟨(Search.indexOf_some hbel).1, Nat.one_pos⟩
  · exact ⟨(Search.indexOf_some hst).1, Nat.two_pos⟩

/-- The first terminator stays the first one. -/
theorem osc52End_append (h : osc52End rest = some (stop, terminatorLength)) (more : Utf16) :
    osc52End (rest ++ more) = some (stop, terminatorLength) := by
  have hbelLength : BEL.length = 1 := rfl
  have hstLength : ST.length = 2 := rfl
  rcases osc52End_some h with ⟨hbel, rfl, hfirst⟩ | ⟨hst, rfl, hfirst⟩
  · apply osc52End_bel (Search.indexOf_append hbel more)
    intro st hst
    cases hs : Search.indexOf ST rest with
    | some st' =>
      cases (Search.indexOf_append hs more).symm.trans hst
      exact hfirst st hs
    | none =>
      have hlt := Search.lt_of_indexOf_append hs hst
      have hle := (Search.indexOf_some hbel).1
      omega
  · apply osc52End_st (Search.indexOf_append hst more)
    intro bel hbel
    cases hb : Search.indexOf BEL rest with
    | some bel' =>
      cases (Search.indexOf_append hb more).symm.trans hbel
      exact hfirst bel hb
    | none =>
      have hlt := Search.lt_of_indexOf_append hb hbel
      have hle := (Search.indexOf_some hst).1
      omega

end Terminators

theorem osc52Front_progress : Scanner.Progress osc52Front := by
  intro buffer n shown actions hne h
  unfold osc52Front at h
  split at h
  · rename_i hstart
    split at h
    · rename_i stop terminatorLength hend
      cases h
      have hle := (osc52End_le hend).1
      have hlength := hstart.length_le
      have hfive : osc52Start.length = 5 := rfl
      rw [List.length_drop] at hle
      omega
    · cases h
  · split at h
    · cases h
    · cases h
      exact ⟨Nat.one_pos, List.length_pos_of_ne_nil hne⟩

theorem osc52Front_stands : Scanner.Stands osc52Front := by
  intro buffer n shown actions h more
  unfold osc52Front at h
  split at h
  · rename_i hstart
    split at h
    · rename_i stop terminatorLength hend
      cases h
      have hle := (osc52End_le hend).1
      unfold osc52Front
      rw [if_pos (hstart.trans (List.prefix_append ..)), List.drop_append_of_le_length hstart.length_le,
        osc52End_append hend]
      simp only
      rw [List.take_append_of_le_length (by omega)]
    · cases h
  · rename_i hstart
    split at h
    · cases h
    · rename_i hpart
      cases h
      have hstart' : ¬ osc52Start <+: buffer ++ more := by
        intro hpre
        rcases List.prefix_or_prefix_of_prefix hpre (List.prefix_append buffer more) with hs | hs
        · exact hstart hs
        · exact hpart hs
      unfold osc52Front
      rw [if_neg hstart', if_neg fun hpre => hpart ((List.prefix_append ..).trans hpre)]

theorem osc52Front_flush (buffer : Utf16) : osc52Front buffer ≠ .flush := by
  unfold osc52Front
  split
  · split <;> nofun
  · split <;> nofun

theorem osc52_agrees (buffer more : Utf16) : Scanner.Agrees osc52Front buffer more :=
  Scanner.agrees_of_stands osc52Front_progress osc52Front_stands osc52Front_flush buffer more

/-! ## The loop scans -/

section Loop

variable {buffer : Utf16} {start : Nat}

theorem retainFrom_cons (c : UInt16) (rest : Utf16) : ∀ {size : Nat}, size ≤ rest.length →
    retainFrom (c :: rest) size = retainFrom rest size
  | 0, _ => rfl
  | size + 1, h => by
    have hdrop : (c :: rest).drop ((c :: rest).length - (size + 1)) = rest.drop (rest.length - (size + 1)) := by
      rw [List.length_cons, show rest.length + 1 - (size + 1) = rest.length - (size + 1) + 1 by omega, List.drop_succ_cons]
    rw [retainFrom, retainFrom, hdrop, retainFrom_cons c rest (by omega)]

theorem retain_cons {c : UInt16} {rest : Utf16} (h : ¬ c :: rest <+: osc52Start) :
    retainIncompletePrefix (c :: rest) = retainIncompletePrefix rest := by
  have hfive : osc52Start.length = 5 := rfl
  unfold retainIncompletePrefix
  rw [List.length_cons, hfive]
  by_cases hlong : 5 ≤ rest.length
  · rw [Nat.min_eq_left hlong, Nat.min_eq_left (by omega)]
    exact retainFrom_cons c rest hlong
  · have hwhole : ((c :: rest).drop ((c :: rest).length - (rest.length + 1))).isPrefixOf osc52Start = false := by
      rw [List.length_cons, Nat.sub_self, List.drop_zero]
      exact Bool.eq_false_iff.mpr fun hpre => h (List.isPrefixOf_iff_prefix.mp hpre)
    rw [Nat.min_eq_right (by omega), Nat.min_eq_right (by omega), retainFrom]
    simp only [hwhole, Bool.false_eq_true, if_false]
    exact retainFrom_cons c rest (Nat.le_refl _)

theorem retain_self (h : buffer <+: osc52Start) : retainIncompletePrefix buffer = buffer := by
  unfold retainIncompletePrefix
  rw [Nat.min_eq_right h.length_le]
  cases buffer with
  | nil => rfl
  | cons c rest =>
    have hwhole : (c :: rest).drop ((c :: rest).length - (rest.length + 1)) = c :: rest := by
      rw [List.length_cons, Nat.sub_self, List.drop_zero]
    rw [List.length_cons, retainFrom]
    simp only [hwhole, List.isPrefixOf_iff_prefix.mpr h, if_true]

theorem run_skip {c : UInt16} {rest : Utf16} (hs : ¬ osc52Start <+: c :: rest) (hp : ¬ c :: rest <+: osc52Start) :
    Scanner.run osc52Front (c :: rest) = Scanner.run osc52Front rest := by
  have hfront : osc52Front (c :: rest) = .take 1 false [] := by
    unfold osc52Front
    rw [if_neg hs, if_neg hp]
  rw [Scanner.run_take osc52Front_progress (List.cons_ne_nil _ _) hfront]
  rfl

theorem run_none : ∀ {buffer : Utf16}, Search.indexOf osc52Start buffer = none →
    Scanner.run osc52Front buffer = ⟨[], [], retainIncompletePrefix buffer⟩
  | [], _ => rfl
  | c :: rest, h => by
    obtain ⟨hs, hrest⟩ := Search.indexOf_cons_none h
    by_cases hp : c :: rest <+: osc52Start
    · have hfront : osc52Front (c :: rest) = .hold := by
        unfold osc52Front
        rw [if_neg hs, if_pos hp]
      rw [Scanner.run_hold hfront, retain_self hp]
    · rw [run_skip hs hp, run_none hrest, retain_cons hp]

theorem run_start : ∀ {buffer : Utf16} {start : Nat}, Search.indexOf osc52Start buffer = some start →
    Scanner.run osc52Front buffer = Scanner.run osc52Front (buffer.drop start)
  | buffer, 0, _ => by rw [List.drop_zero]
  | [], start + 1, h => by cases h
  | c :: rest, start + 1, h => by
    obtain ⟨hle, -, hmin⟩ := Search.indexOf_some h
    have hs : ¬ osc52Start <+: c :: rest := hmin 0 (Nat.succ_pos _)
    have hp : ¬ c :: rest <+: osc52Start := by
      intro hpre
      have := hpre.length_le
      omega
    have hrest : Search.indexOf osc52Start rest = some start := by
      unfold Search.indexOf at h
      rw [if_neg fun hpre => hs (List.isPrefixOf_iff_prefix.mp hpre)] at h
      obtain ⟨k, hk, hsucc⟩ := Option.map_eq_some_iff.mp h
      cases hsucc
      exact hk
    rw [run_skip hs hp, run_start hrest, List.drop_succ_cons]

theorem consumeLoop_eq {maxPending maxDecoded : Nat} : ∀ {fuel : Nat} {buffer : Utf16} {writes : List Utf16},
    buffer.length < fuel → buffer.length ≤ maxPending → consumeLoop maxPending maxDecoded fuel buffer writes =
      ⟨(Scanner.run osc52Front buffer).pending,
        writes ++ (Scanner.run osc52Front buffer).actions.filterMap (bodyWrite maxDecoded)⟩
  | 0, _, _, hf, _ => absurd hf (Nat.not_lt_zero _)
  | fuel + 1, buffer, writes, hf, hm => by
    rw [consumeLoop]
    by_cases hne : buffer = []
    · rw [if_pos hne, hne]
      exact congrArg (Osc52Consumed.mk _) (List.append_nil _).symm
    · rw [if_neg hne]
      cases hi : Search.indexOf osc52Start buffer with
      | none =>
        rw [run_none hi]
        exact congrArg (Osc52Consumed.mk _) (List.append_nil _).symm
      | some start =>
        obtain ⟨hle, hpre, -⟩ := Search.indexOf_some hi
        have hlength : (buffer.drop start).length ≤ maxPending := by
          rw [List.length_drop]
          omega
        have hne' : buffer.drop start ≠ [] := by
          intro hnil
          rw [hnil, List.prefix_nil] at hpre
          cases hpre
        rw [run_start hi]
        simp only
        rw [← List.drop_drop]
        cases hend : osc52End ((buffer.drop start).drop osc52Start.length) with
        | none =>
          have hfront : osc52Front (buffer.drop start) = .hold := by
            unfold osc52Front
            rw [if_pos hpre, hend]
          rw [Scanner.run_hold hfront, if_neg (Nat.not_lt_of_le hlength)]
          exact congrArg (Osc52Consumed.mk _) (List.append_nil _).symm
        | some found =>
          obtain ⟨stop, terminatorLength⟩ := found
          have hfront : osc52Front (buffer.drop start) = .take (osc52Start.length + stop + terminatorLength) false
              [((buffer.drop start).drop osc52Start.length).take stop] := by
            unfold osc52Front
            rw [if_pos hpre, hend]
          have hpos := (osc52End_le hend).2
          have hbuffer := List.length_pos_of_ne_nil hne
          have hrest : (buffer.drop (start + osc52Start.length + stop + terminatorLength)).length < fuel := by
            rw [List.length_drop]
            omega
          have hsum : start + osc52Start.length + stop + terminatorLength =
              start + (osc52Start.length + stop + terminatorLength) := by omega
          rw [Scanner.run_take osc52Front_progress hne' hfront]
          simp only
          rw [consumeLoop_eq hrest (by rw [List.length_drop]; omega), hsum, ← List.drop_drop]
          simp only [Scanner.Result.andThen, Scanner.taken, List.singleton_append, List.append_assoc]
          congr 2
          rw [List.filterMap_cons]
          cases bodyWrite maxDecoded (((buffer.drop start).drop osc52Start.length).take stop) <;> rfl

end Loop

/-! ## What is kept -/

/-- An incomplete sequence, or what may become one. -/
def Osc52Pending (pending : Utf16) : Prop :=
  pending = [] ∨ pending <+: osc52Start ∨
    osc52Start <+: pending ∧ ¬ BEL <:+: pending.drop osc52Start.length ∧ ¬ ST <:+: pending.drop osc52Start.length

theorem not_infix_of_none {part text : Utf16} (h : Search.indexOf part text = none) : ¬ part <:+: text := by
  rintro ⟨before, after, rfl⟩
  apply Search.indexOf_none h before.length
  rw [List.append_assoc, List.drop_left' rfl]
  exact List.prefix_append ..

theorem pending_of_hold {pending : Utf16} (h : osc52Front pending = .hold) : Osc52Pending pending := by
  unfold osc52Front at h
  split at h
  · rename_i hstart
    split at h
    · cases h
    · rename_i hend
      obtain ⟨hbel, hst⟩ := osc52End_none hend
      exact .inr (.inr ⟨hstart, not_infix_of_none hbel, not_infix_of_none hst⟩)
  · split at h
    · rename_i hpart
      exact .inr (.inl hpart)
    · cases h

/-- A complete sequence, and what stands before it. -/
structure Osc52Sequence where
  gap : Utf16
  body : Utf16
  terminator : Utf16

namespace Osc52Sequence

def text (q : Osc52Sequence) : Utf16 := q.gap ++ osc52Start ++ q.body ++ q.terminator

structure Complete (q : Osc52Sequence) : Prop where
  gap : ¬ osc52Start <:+: q.gap
  terminator : q.terminator = BEL ∨ q.terminator = ST
  bel : ¬ BEL <:+: q.body
  st : ¬ ST <:+: q.body

end Osc52Sequence

/-- A stream is the sequences it holds, with one action each, then what is no sequence, then what is kept. -/
def Osc52Parsed (stream : Utf16) (bodies : List Utf16) (pending : Utf16) : Prop :=
  ∃ sequences : List Osc52Sequence, sequences.map Osc52Sequence.body = bodies ∧
    (∀ q ∈ sequences, q.Complete) ∧
    ∃ gap, stream = sequences.flatMap Osc52Sequence.text ++ gap ++ pending ∧ ¬ osc52Start <:+: gap

theorem not_infix_cons {c : UInt16} {gap more : Utf16} (hs : ¬ osc52Start <+: c :: (gap ++ more))
    (hg : ¬ osc52Start <:+: gap) : ¬ osc52Start <:+: c :: gap := by
  intro hin
  rcases List.infix_cons_iff.mp hin with hpre | hin
  · exact hs (hpre.trans (by rw [← List.cons_append]; exact List.prefix_append ..))
  · exact hg hin

theorem Osc52Parsed.skip {c : UInt16} {rest pending : Utf16} {bodies : List Utf16} (hs : ¬ osc52Start <+: c :: rest)
    (h : Osc52Parsed rest bodies pending) : Osc52Parsed (c :: rest) bodies pending := by
  obtain ⟨sequences, hbodies, hall, gap, hrest, hgap⟩ := h
  cases sequences with
  | nil =>
    refine ⟨[], hbodies, hall, c :: gap, by rw [hrest]; rfl, ?_⟩
    rw [hrest, List.flatMap_nil, List.nil_append] at hs
    exact not_infix_cons hs hgap
  | cons q sequences =>
    have hq := hall q (List.mem_cons_self ..)
    refine ⟨{ q with gap := c :: q.gap } :: sequences, hbodies, ?_, gap, by rw [hrest]; rfl, hgap⟩
    intro r hr
    rcases List.mem_cons.mp hr with rfl | hr
    · refine ⟨?_, hq.terminator, hq.bel, hq.st⟩
      apply @not_infix_cons c q.gap (osc52Start ++ q.body ++ q.terminator ++ sequences.flatMap Osc52Sequence.text ++ gap ++ pending)
      · rw [hrest] at hs
        simpa [Osc52Sequence.text] using hs
      · exact hq.gap
    · exact hall r (List.mem_cons_of_mem _ hr)

theorem Osc52Parsed.sequence {body terminator rest pending : Utf16} {bodies : List Utf16}
    (hc : (⟨[], body, terminator⟩ : Osc52Sequence).Complete) (h : Osc52Parsed rest bodies pending) :
    Osc52Parsed (osc52Start ++ body ++ terminator ++ rest) (body :: bodies) pending := by
  obtain ⟨sequences, hbodies, hall, gap, hrest, hgap⟩ := h
  refine ⟨⟨[], body, terminator⟩ :: sequences, by rw [List.map_cons, hbodies], ?_, gap, ?_, hgap⟩
  · intro q hq
    rcases List.mem_cons.mp hq with rfl | hq
    · exact hc
    · exact hall q hq
  · rw [hrest]
    simp only [Osc52Sequence.text, List.flatMap_cons, List.nil_append, List.append_assoc]

/-- What stands before its first place holds no such part. -/
theorem not_infix_take {part text : Utf16} {stop : Nat} (hne : part ≠ [])
    (h : ∀ m, Search.indexOf part text = some m → stop ≤ m) : ¬ part <:+: text.take stop := by
  rintro ⟨before, after, heq⟩
  have hlength := congrArg List.length heq
  rw [List.length_append, List.length_append, List.length_take] at hlength
  have hpre : part <+: text.drop before.length := by
    have hdrop : part <+: (text.take stop).drop before.length := by
      rw [← heq, List.append_assoc, List.drop_left' rfl]
      exact List.prefix_append ..
    rw [List.drop_take] at hdrop
    exact hdrop.trans (List.take_prefix ..)
  cases hi : Search.indexOf part text with
  | none => exact Search.indexOf_none hi _ hpre
  | some m =>
    have hle := h m hi
    have hpos := List.length_pos_of_ne_nil hne
    have hmin := (Search.indexOf_some hi).2.2
    have : m ≤ before.length := by
      by_contra hlt
      exact hmin before.length (by omega) hpre
    omega

theorem complete_of_end {rest : Utf16} {stop terminatorLength : Nat} (h : osc52End rest = some (stop, terminatorLength)) :
    ∃ terminator, rest = rest.take stop ++ terminator ++ rest.drop (stop + terminatorLength) ∧
      (⟨[], rest.take stop, terminator⟩ : Osc52Sequence).Complete := by
  have hempty : ¬ osc52Start <:+: ([] : Utf16) := by
    intro hin
    cases List.infix_nil.mp hin
  rcases osc52End_some h with ⟨hbel, rfl, hfirst⟩ | ⟨hst, rfl, hfirst⟩
  · refine ⟨BEL, by rw [List.append_assoc]; exact Search.indexOf_split hbel, hempty, .inl rfl, ?_, ?_⟩
    · apply not_infix_take (List.cons_ne_nil _ _)
      intro m hm
      cases hbel.symm.trans hm
      exact Nat.le_refl _
    · exact not_infix_take (List.cons_ne_nil _ _) hfirst
  · refine ⟨ST, by rw [List.append_assoc]; exact Search.indexOf_split hst, hempty, .inr rfl, ?_, ?_⟩
    · exact not_infix_take (List.cons_ne_nil _ _) fun m hm => Nat.le_of_lt (hfirst m hm)
    · apply not_infix_take (List.cons_ne_nil _ _)
      intro m hm
      cases hst.symm.trans hm
      exact Nat.le_refl _

theorem osc52_parsed (n : Nat) : ∀ stream : Utf16, stream.length ≤ n →
    Osc52Parsed stream (Scanner.run osc52Front stream).actions (Scanner.run osc52Front stream).pending ∧
      Osc52Pending (Scanner.run osc52Front stream).pending := by
  have hempty : ¬ osc52Start <:+: ([] : Utf16) := by
    intro hin
    cases List.infix_nil.mp hin
  induction n with
  | zero =>
    intro stream hn
    rw [List.length_eq_zero_iff.mp (Nat.le_zero.mp hn)]
    exact ⟨⟨[], rfl, nofun, [], rfl, hempty⟩, .inl rfl⟩
  | succ n ih =>
    intro stream hn
    cases stream with
    | nil => exact ⟨⟨[], rfl, nofun, [], rfl, hempty⟩, .inl rfl⟩
    | cons c rest =>
      cases hfront : osc52Front (c :: rest) with
      | flush => exact absurd hfront (osc52Front_flush _)
      | hold =>
        rw [Scanner.run_hold hfront]
        exact ⟨⟨[], rfl, nofun, [], rfl, hempty⟩, pending_of_hold hfront⟩
      | take count shown actions =>
        unfold osc52Front at hfront
        split at hfront
        · rename_i hstart
          split at hfront
          · rename_i stop terminatorLength hend
            cases hfront
            have hrun : osc52Front (c :: rest) = .take (osc52Start.length + stop + terminatorLength) false
                [((c :: rest).drop osc52Start.length).take stop] := by
              unfold osc52Front
              rw [if_pos hstart, hend]
            obtain ⟨terminator, hsplit, hcomplete⟩ := complete_of_end hend
            have hsum : osc52Start.length + stop + terminatorLength = osc52Start.length + (stop + terminatorLength) :=
              Nat.add_assoc ..
            have hlength : ((c :: rest).drop (osc52Start.length + stop + terminatorLength)).length ≤ n := by
              have hfive : osc52Start.length = 5 := rfl
              rw [List.length_drop]
              omega
            obtain ⟨hparsed, hpending⟩ := ih _ hlength
            rw [Scanner.run_take osc52Front_progress (List.cons_ne_nil _ _) hrun]
            refine ⟨?_, hpending⟩
            have hwhole : c :: rest = osc52Start ++ ((c :: rest).drop osc52Start.length).take stop ++ terminator ++
                (c :: rest).drop (osc52Start.length + stop + terminatorLength) := by
              obtain ⟨after, hafter⟩ := hstart
              have hdrop : (c :: rest).drop osc52Start.length = after := by rw [← hafter, List.drop_left' rfl]
              rw [hsum, ← List.drop_drop]
              rw [hdrop] at hsplit ⊢
              rw [List.append_assoc, List.append_assoc, ← List.append_assoc (after.take stop), ← hsplit, hafter]
            have hnext := hparsed.sequence hcomplete
            rw [← hwhole] at hnext
            exact hnext
          · cases hfront
        · rename_i hstart
          split at hfront
          · cases hfront
          · rename_i hpart
            rw [run_skip hstart hpart]
            obtain ⟨hparsed, hpending⟩ := ih rest (Nat.le_of_succ_le_succ hn)
            exact ⟨hparsed.skip hstart, hpending⟩

/-! ## Chunks -/

def osc52Stream (chunks : List OscChunk) : Utf16 := chunks.flatMap chunkText

/-- What is kept never exceeds the limit together with the next chunk. -/
def ChunksFit (maxPending maxDecoded : Nat) (chunks : List OscChunk) : Prop :=
  ∀ before chunk after, chunks = before ++ chunk :: after →
    (consumeChunks maxPending maxDecoded before).pending.length + (chunkText chunk).length ≤ maxPending

section Chunks

variable {maxPending maxDecoded : Nat}

theorem consume_eq {pending : Utf16} {chunk : OscChunk} (h : pending.length + (chunkText chunk).length ≤ maxPending) :
    consumeTerminalOsc52Chunk pending chunk maxPending maxDecoded =
      ⟨(Scanner.run osc52Front (pending ++ chunkText chunk)).pending,
        (Scanner.run osc52Front (pending ++ chunkText chunk)).actions.filterMap (bodyWrite maxDecoded)⟩ := by
  rw [← List.length_append] at h
  unfold consumeTerminalOsc52Chunk
  simp only
  rw [if_neg (Nat.not_lt_of_le h), consumeLoop_eq (Nat.lt_succ_self _) h, List.nil_append]

theorem consumeChunks_concat (before : List OscChunk) (chunk : OscChunk) :
    consumeChunks maxPending maxDecoded (before ++ [chunk]) =
      ⟨(consumeTerminalOsc52Chunk (consumeChunks maxPending maxDecoded before).pending chunk maxPending maxDecoded).pending,
        (consumeChunks maxPending maxDecoded before).writes ++
          (consumeTerminalOsc52Chunk (consumeChunks maxPending maxDecoded before).pending chunk maxPending maxDecoded).writes⟩ := by
  unfold consumeChunks
  rw [List.foldl_append]
  rfl

/-- However the stream is cut, it is scanned as a whole. -/
theorem consumeChunks_eq (chunks : List OscChunk) (h : ChunksFit maxPending maxDecoded chunks) :
    consumeChunks maxPending maxDecoded chunks = ⟨(Scanner.run osc52Front (osc52Stream chunks)).pending,
      (Scanner.run osc52Front (osc52Stream chunks)).actions.filterMap (bodyWrite maxDecoded)⟩ := by
  obtain ⟨n, hn⟩ : ∃ n, n = chunks.length := ⟨_, rfl⟩
  induction n generalizing chunks with
  | zero =>
    rw [List.length_eq_zero_iff.mp hn.symm]
    rfl
  | succ n ih =>
    rcases List.eq_nil_or_concat chunks with hnil | ⟨before, chunk, hconcat⟩
    · rw [hnil] at hn
      cases hn
    · rw [List.concat_eq_append] at hconcat
      subst hconcat
      have hbefore : ChunksFit maxPending maxDecoded before := by
        intro front c back heq
        exact h front c (back ++ [chunk]) (by rw [heq, List.append_assoc]; rfl)
      have hfits := h before chunk [] rfl
      have hlength : n = before.length := by
        rw [List.length_append] at hn
        exact Nat.succ.inj hn
      have hstream : osc52Stream (before ++ [chunk]) = osc52Stream before ++ chunkText chunk := by
        unfold osc52Stream
        rw [List.flatMap_append, List.flatMap_singleton]
      rw [consumeChunks_concat, consume_eq hfits, ih before hbefore hlength, hstream,
        osc52_agrees (osc52Stream before) (chunkText chunk)]
      simp only [Scanner.Result.andThen, List.filterMap_append]

/-- A stream in chunks is the same stream in one call that has room for it. -/
theorem osc52_chunks {limit : Nat} {chunks : List OscChunk} (hf : ChunksFit maxPending maxDecoded chunks)
    (hl : (osc52Stream chunks).length ≤ limit) :
    consumeChunks maxPending maxDecoded chunks =
        consumeTerminalOsc52Chunk [] (.text (osc52Stream chunks)) limit maxDecoded ∧
      (consumeChunks maxPending maxDecoded chunks).pending <:+ osc52Stream chunks ∧
      Osc52Pending (consumeChunks maxPending maxDecoded chunks).pending ∧
      ∃ bodies, Osc52Parsed (osc52Stream chunks) bodies (consumeChunks maxPending maxDecoded chunks).pending ∧
        (consumeChunks maxPending maxDecoded chunks).writes = bodies.filterMap (bodyWrite maxDecoded) := by
  obtain ⟨hparsed, hpending⟩ := osc52_parsed _ (osc52Stream chunks) (Nat.le_refl _)
  have hwhole : consumeTerminalOsc52Chunk [] (.text (osc52Stream chunks)) limit maxDecoded =
      ⟨(Scanner.run osc52Front (osc52Stream chunks)).pending,
        (Scanner.run osc52Front (osc52Stream chunks)).actions.filterMap (bodyWrite maxDecoded)⟩ := by
    apply consume_eq
    rw [List.length_nil, Nat.zero_add]
    exact hl
  rw [consumeChunks_eq chunks hf]
  exact ⟨hwhole.symm, Scanner.run_pending_suffix osc52Front_progress _, hpending, _, hparsed, rfl⟩

theorem chunksFit_pair {first second : OscChunk} (hfirst : (chunkText first).length ≤ maxPending)
    (hsecond : (consumeChunks maxPending maxDecoded [first]).pending.length + (chunkText second).length ≤ maxPending) :
    ChunksFit maxPending maxDecoded [first, second] := by
  intro before chunk after h
  cases before with
  | nil =>
    obtain ⟨rfl, -⟩ := List.cons.inj h
    exact (Nat.zero_add _).trans_le hfirst
  | cons c before =>
    obtain ⟨rfl, hrest⟩ := List.cons.inj h
    cases before with
    | nil =>
      obtain ⟨rfl, -⟩ := List.cons.inj hrest
      exact hsecond
    | cons d before => simp at hrest

end Chunks

/-- The terminator comes in a chunk of its own. -/
theorem osc52_chunks_cut :
    let chunks : List OscChunk := [.text (osc52Text "\x1b]52;c;aGk="), .text (osc52Text "\x07")]
    consumeChunks 16 16 chunks = consumeTerminalOsc52Chunk [] (.text (osc52Stream chunks)) 16 16 ∧
      (consumeChunks 16 16 chunks).writes = [osc52Text "hi"] := by
  intro chunks
  have hfits : ChunksFit 16 16 chunks := chunksFit_pair (by decide +kernel) (by decide +kernel)
  exact ⟨(osc52_chunks hfits (by decide +kernel)).1, by decide +kernel⟩

/-- One call has no room for a stream whose chunks all fit. -/
theorem osc52_chunks_long :
    let chunks : List OscChunk := [.text (osc52Text "\x1b]52;c;aGk=\x07"), .text (osc52Text "0123456789")]
    ChunksFit 16 16 chunks ∧ (consumeChunks 16 16 chunks).writes = [osc52Text "hi"] ∧
      (consumeTerminalOsc52Chunk [] (.text (osc52Stream chunks)) 16 16).writes = [] :=
  ⟨chunksFit_pair (by decide +kernel) (by decide +kernel), by decide +kernel, by decide +kernel⟩

end Webshell
