import Webshell.PaneQueryCuts
import Webshell.ProgramStatusMoves
import Mathlib.Algebra.GroupWithZero.Nat

/-!
# The OSC strings of a stream

The scanner reads byte by byte and keeps a payload while it lasts. What it hands
on are the OSC strings the whole stream shows, however it was cut into writes.
-/

namespace Webshell

open ProgramStatusTracker (maxPendingStatus)

/-- The bytes a part of the stream takes, and the payload it is observed with. -/
structure StatusItem where
  size : Nat
  payload : Option Bytes

/-- Without the ESC at its end. -/
def dropEscape (body : Bytes) : Bytes := if body.getLast? = some esc then body.dropLast else body

/-- A text an OSC string may have: not too long, and no ESC in it. -/
def StatusText (text : Bytes) : Prop := text.length ≤ maxPendingStatus ∧ esc ∉ text

instance (text : Bytes) : Decidable (StatusText text) := inferInstanceAs (Decidable (_ ∧ _))

/-- The payload of a string with its terminator: BEL, `ESC BEL` or `ESC \`. -/
def statusPayload (string : Bytes) : Option Bytes :=
  if StatusText (dropEscape string.dropLast) then some (dropEscape string.dropLast) else none

/-- The strings that are skipped. -/
def skippedKind (kind : UInt8) : Prop := kind = code 'P' ∨ kind = code '_' ∨ kind = code '^' ∨ kind = code 'X'

instance (kind : UInt8) : Decidable (skippedKind kind) := inferInstanceAs (Decidable (_ ∨ _))

/-- The string that is open, to its terminator. -/
def openFront (bell : Bool) (body : Bytes) : Scanner.Decision StatusItem :=
  match findTerminator bell 0 body with
  | none => .hold
  | some stop => .take (stop + 2) false [⟨stop + 2, if bell = true then statusPayload (body.take stop) else none⟩]

/-- What the front of a stream is. -/
def statusFront : Bytes → Scanner.Decision StatusItem
  | [] => .hold
  | ch :: rest =>
    if ch ≠ esc then .take 1 false [⟨1, none⟩]
    else
      match rest with
      | [] => .hold
      | kind :: body =>
        if kind = code ']' then openFront true body
        else if skippedKind kind then openFront false body
        else if kind = esc then .take 1 false [⟨1, none⟩]
        else .take 2 false [⟨2, none⟩]

/-- The payloads of the items, with the offsets behind them. -/
def payloadsFrom : Nat → List StatusItem → List (Nat × Bytes)
  | _, [] => []
  | base, item :: items =>
    (item.payload.map fun payload => (base + item.size, payload)).toList ++ payloadsFrom (base + item.size) items

/-- The OSC strings of a stream that begins at `base`. -/
def oscStrings (base : Nat) (stream : Bytes) : List (Nat × Bytes) :=
  payloadsFrom base (Scanner.run statusFront stream).actions

/-! ## One decision -/

theorem statusFront_plain {ch : UInt8} (h : ch ≠ esc) (rest : Bytes) :
    statusFront (ch :: rest) = .take 1 false [⟨1, none⟩] := by
  unfold statusFront
  exact if_pos h

theorem statusFront_osc (body : Bytes) : statusFront (esc :: code ']' :: body) = openFront true body := rfl

theorem statusFront_skipped {kind : UInt8} (h : skippedKind kind) (body : Bytes) :
    statusFront (esc :: kind :: body) = openFront false body := by
  have hne : kind ≠ code ']' := by
    rcases h with rfl | rfl | rfl | rfl <;> decide
  unfold statusFront
  simp only
  rw [if_neg (by simp), if_neg hne, if_pos h]

theorem statusFront_escapes (body : Bytes) : statusFront (esc :: esc :: body) = .take 1 false [⟨1, none⟩] := rfl

theorem statusFront_other {kind : UInt8} (h1 : kind ≠ code ']') (h2 : ¬ skippedKind kind) (h3 : kind ≠ esc) (body : Bytes) :
    statusFront (esc :: kind :: body) = .take 2 false [⟨2, none⟩] := by
  unfold statusFront
  simp only
  rw [if_neg (by simp), if_neg h1, if_neg h2, if_neg h3]

/-- The ways a stream begins. -/
inductive StatusFront : Bytes → Prop
  | nil : StatusFront []
  | plain (ch : UInt8) (rest : Bytes) : ch ≠ esc → StatusFront (ch :: rest)
  | escape : StatusFront [esc]
  | osc (body : Bytes) : StatusFront (esc :: code ']' :: body)
  | skipped (kind : UInt8) (body : Bytes) : skippedKind kind → StatusFront (esc :: kind :: body)
  | escapes (body : Bytes) : StatusFront (esc :: esc :: body)
  | other (kind : UInt8) (body : Bytes) : kind ≠ code ']' → ¬ skippedKind kind → kind ≠ esc → StatusFront (esc :: kind :: body)

theorem statusFront_cases : ∀ stream : Bytes, StatusFront stream
  | [] => .nil
  | [ch] => by
    by_cases h : ch = esc
    · exact h ▸ .escape
    · exact .plain ch [] h
  | ch :: kind :: body => by
    by_cases h : ch = esc
    · subst h
      by_cases h1 : kind = code ']'
      · exact h1 ▸ .osc body
      · by_cases h2 : skippedKind kind
        · exact .skipped kind body h2
        · by_cases h3 : kind = esc
          · exact h3 ▸ .escapes body
          · exact .other kind body h1 h2 h3
    · exact .plain ch (kind :: body) h

theorem openFront_take {bell : Bool} {body : Bytes} {n : Nat} {shown : Bool} {items : List StatusItem}
    (h : openFront bell body = .take n shown items) : 0 < n ∧ n ≤ body.length + 2 := by
  unfold openFront at h
  split at h
  · cases h
  · rename_i stop hstop
    cases h
    have := findTerminator_bounds hstop
    omega

theorem statusFront_progress : Scanner.Progress statusFront := by
  intro stream n shown items hne h
  cases statusFront_cases stream with
  | nil => exact absurd rfl hne
  | plain ch rest hch =>
    rw [statusFront_plain hch] at h
    cases h
    exact ⟨Nat.one_pos, by rw [List.length_cons]; omega⟩
  | escape => cases h
  | osc body => exact openFront_take h
  | skipped kind body hk =>
    rw [statusFront_skipped hk] at h
    exact openFront_take h
  | escapes body =>
    cases h
    exact ⟨Nat.one_pos, by simp only [List.length_cons]; omega⟩
  | other kind body h1 h2 h3 =>
    rw [statusFront_other h1 h2 h3] at h
    cases h
    exact ⟨by omega, by simp only [List.length_cons]; omega⟩

theorem openFront_stands {bell : Bool} {body : Bytes} {n : Nat} {shown : Bool} {items : List StatusItem}
    (h : openFront bell body = .take n shown items) (more : Bytes) : openFront bell (body ++ more) = .take n shown items := by
  unfold openFront at h ⊢
  cases hstop : findTerminator bell 0 body with
  | none => rw [hstop] at h; cases h
  | some stop =>
    rw [hstop] at h
    have hle := (findTerminator_bounds hstop).2
    rw [findTerminator_append hstop more]
    simp only
    rw [List.take_append_of_le_length (by omega)]
    exact h

/-- A decision at the front stands, whatever follows. -/
theorem statusFront_stands {stream : Bytes} {n : Nat} {shown : Bool} {items : List StatusItem}
    (h : statusFront stream = .take n shown items) (more : Bytes) : statusFront (stream ++ more) = .take n shown items := by
  cases statusFront_cases stream with
  | nil => cases h
  | plain ch rest hch =>
    rw [statusFront_plain hch] at h
    rw [List.cons_append, statusFront_plain hch]
    exact h
  | escape => cases h
  | osc body => exact openFront_stands h more
  | skipped kind body hk =>
    rw [statusFront_skipped hk] at h
    rw [List.cons_append, List.cons_append, statusFront_skipped hk]
    exact openFront_stands h more
  | escapes body => exact h
  | other kind body h1 h2 h3 =>
    rw [statusFront_other h1 h2 h3] at h
    rw [List.cons_append, List.cons_append, statusFront_other h1 h2 h3]
    exact h

theorem statusFront_not_flush (stream : Bytes) : statusFront stream ≠ .flush := by
  have hopen (bell : Bool) (body : Bytes) : openFront bell body ≠ .flush := by
    unfold openFront
    split <;> nofun
  cases statusFront_cases stream with
  | nil => nofun
  | plain ch rest hch => rw [statusFront_plain hch]; nofun
  | escape => nofun
  | osc body => exact hopen true body
  | skipped kind body hk => rw [statusFront_skipped hk]; exact hopen false body
  | escapes body => nofun
  | other kind body h1 h2 h3 => rw [statusFront_other h1 h2 h3]; nofun

theorem statusFront_agrees (stream more : Bytes) : Scanner.Agrees statusFront stream more :=
  Scanner.agrees_of_stands statusFront_progress (fun _ _ _ _ h more => statusFront_stands h more) statusFront_not_flush
    stream more

/-! ## The scanner holds what is open -/

theorem findTerminator_next {bell : Bool} (ch : UInt8) : ∀ {i : Nat} {body : Bytes}, findTerminator bell i body = none →
    findTerminator bell i (body ++ [ch]) =
      if (bell = true ∧ ch = bel) ∨ (body.getLast? = some esc ∧ ch = code '\\') then some (i + body.length + 1) else none
  | i, [], _ => by
    rw [List.nil_append, findTerminator, findTerminator]
    by_cases h : bell = true ∧ ch = bel
    · rw [if_pos (by simp [h]), if_pos (.inl h)]
      rfl
    · rw [if_neg (by simpa using h), if_neg (by simp), if_neg (by simpa using h)]
  | i, b :: rest, h => by
    rw [findTerminator] at h
    split at h
    · cases h
    · rename_i hb
      split at h
      · cases h
      · rename_i he
        rw [List.cons_append, findTerminator, if_neg hb]
        cases rest with
        | nil =>
          have hnext := findTerminator_next ch h
          rw [List.nil_append] at hnext ⊢
          by_cases hesc : b = esc ∧ ch = code '\\'
          · rw [if_pos ⟨hesc.1, congrArg some hesc.2⟩, if_pos (.inr ⟨congrArg some hesc.1, hesc.2⟩)]
            rfl
          · have hno : ¬ (b = esc ∧ [ch].head? = some (code '\\')) := fun h => hesc ⟨h.1, Option.some.inj h.2⟩
            rw [if_neg hno, hnext]
            simp only [List.getLast?_singleton, Option.some.injEq, hesc, List.getLast?_nil, reduceCtorEq, false_and,
              or_false, List.length_nil, List.length_cons, Nat.zero_add, Nat.add_zero]
        | cons c rest =>
          have hno : ¬ (b = esc ∧ (c :: rest ++ [ch]).head? = some (code '\\')) := he
          rw [if_neg hno, findTerminator_next ch h, List.getLast?_cons_cons, List.length_cons (a := b)]
          congr 2
          omega

theorem dropEscape_escape (body : Bytes) : dropEscape (body ++ [esc]) = body := by
  unfold dropEscape
  rw [List.getLast?_append, List.getLast?_singleton, Option.some_or, if_pos rfl, List.dropLast_concat]

theorem dropEscape_other {body : Bytes} (h : body.getLast? ≠ some esc) : dropEscape body = body := by
  unfold dropEscape
  rw [if_neg h]

/-- What the tracker holds of the stream it has read. -/
inductive StatusHolds (s : ProgramStatusTracker) : Bytes → Prop
  | ground : s.scanner = .ground → StatusHolds s []
  | escape : s.scanner = .escape → StatusHolds s [esc]
  | osc (body : Bytes) : findTerminator true 0 body = none →
    s.scanner = (if body.getLast? = some esc then .oscEscape else .osc) →
    (s.overflow = false ↔ StatusText (dropEscape body)) → (s.overflow = false → s.pending = dropEscape body) →
    StatusHolds s (esc :: code ']' :: body)
  | string (kind : UInt8) (body : Bytes) : skippedKind kind → findTerminator false 0 body = none →
    s.scanner = (if body.getLast? = some esc then .stringEscape else .string) → StatusHolds s (esc :: kind :: body)

/-- What a byte comes to, behind what is held. -/
structure StatusReads (s : ProgramStatusTracker) (held : Bytes) (ch : UInt8) (next : ProgramStatusTracker) (items : List StatusItem)
    (held' : Bytes) : Prop where
  run : Scanner.run statusFront (held ++ [ch]) = ⟨[], items, held'⟩
  holds : StatusHolds next held'
  size : (items.map StatusItem.size).sum + held'.length = held.length + 1
  payloads : ∀ base, payloadsFrom base items = ((s.handed ch).map fun payload => (base + held.length + 1, payload)).toList

theorem run_held {stream : Bytes} (h : statusFront stream = .hold) : Scanner.run statusFront stream = ⟨[], [], stream⟩ :=
  Scanner.run_hold h

theorem run_taken {stream rest : Bytes} (hne : stream ≠ []) {n : Nat} {item : StatusItem} {items : List StatusItem}
    (h : statusFront stream = .take n false [item]) (hr : Scanner.run statusFront (stream.drop n) = ⟨[], items, rest⟩) :
    Scanner.run statusFront stream = ⟨[], item :: items, rest⟩ := by
  rw [Scanner.run_take statusFront_progress hne h, hr]
  rfl

theorem StatusHolds.hold {s : ProgramStatusTracker} {held : Bytes} (h : StatusHolds s held) :
    Scanner.run statusFront held = ⟨[], [], held⟩ := by
  apply run_held
  cases h with
  | ground _ => rfl
  | escape _ => rfl
  | osc body hn =>
    rw [statusFront_osc]
    unfold openFront
    rw [hn]
  | string kind body hk hn =>
    rw [statusFront_skipped hk]
    unfold openFront
    rw [hn]

section Reads

variable {s : ProgramStatusTracker} {ch : UInt8} {now : Nat}

theorem handed_none (h : s.scanner ≠ .osc) (h' : s.scanner ≠ .oscEscape) (ch : UInt8) : s.handed ch = none := by
  unfold ProgramStatusTracker.handed
  rw [if_neg]
  rintro ⟨hs | hs, -⟩
  · exact h hs
  · exact h' hs

/-- A byte that nothing is observed at. -/
theorem quiet_reads {held held' : Bytes} {next : ProgramStatusTracker} {items : List StatusItem} (hh : s.handed ch = none)
    (hi : ∀ item ∈ items, item.payload = none) (hrun : Scanner.run statusFront (held ++ [ch]) = ⟨[], items, held'⟩)
    (hnext : StatusHolds next held') (hsize : (items.map StatusItem.size).sum + held'.length = held.length + 1) :
    StatusReads s held ch next items held' := by
  refine ⟨hrun, hnext, hsize, fun base => ?_⟩
  rw [hh, Option.map_none, Option.toList_none]
  clear hrun hsize
  induction items generalizing base with
  | nil => rfl
  | cons item items ih =>
    rw [payloadsFrom, hi item (List.mem_cons_self ..), Option.map_none, Option.toList_none, List.nil_append]
    exact ih (fun item hm => hi item (List.mem_cons_of_mem _ hm)) _

theorem ground_reads (h : s.scanner = .ground) (ch : UInt8) (now : Nat) :
    ∃ items held', StatusReads s [] ch (s.scanByte ch now) items held' := by
  have hh : s.handed ch = none := handed_none (by rw [h]; nofun) (by rw [h]; nofun) ch
  unfold ProgramStatusTracker.scanByte
  rw [h]
  simp only
  by_cases he : ch = esc
  · subst he
    rw [if_pos rfl]
    exact ⟨[], [esc], quiet_reads hh nofun (run_held rfl) (.escape rfl) rfl⟩
  · rw [if_neg he]
    refine ⟨[⟨1, none⟩], [], quiet_reads hh ?_ (run_taken (List.cons_ne_nil _ _) (statusFront_plain he []) rfl) (.ground h) rfl⟩
    exact fun item hm => List.mem_singleton.mp hm ▸ rfl

theorem escape_reads (h : s.scanner = .escape) (ch : UInt8) (now : Nat) :
    ∃ items held', StatusReads s [esc] ch (s.scanByte ch now) items held' := by
  have hh : s.handed ch = none := handed_none (by rw [h]; nofun) (by rw [h]; nofun) ch
  have hone {n : Nat} : ∀ item ∈ [(⟨n, none⟩ : StatusItem)], item.payload = none :=
    fun item hm => List.mem_singleton.mp hm ▸ rfl
  unfold ProgramStatusTracker.scanByte
  rw [h]
  simp only
  by_cases h1 : ch = code ']'
  · subst h1
    rw [if_pos rfl]
    refine ⟨[], _, quiet_reads hh nofun (run_held rfl) (.osc [] rfl rfl ?_ fun _ => rfl) rfl⟩
    exact ⟨fun _ => ⟨Nat.zero_le _, nofun⟩, fun _ => rfl⟩
  · rw [if_neg h1]
    by_cases h2 : ch = code 'P' ∨ ch = code '_' ∨ ch = code '^' ∨ ch = code 'X'
    · rw [if_pos h2]
      exact ⟨[], _, quiet_reads hh nofun (run_held (statusFront_skipped h2 [])) (.string ch [] h2 rfl rfl) rfl⟩
    · rw [if_neg h2]
      by_cases h3 : ch = esc
      · subst h3
        rw [if_pos rfl]
        exact ⟨[⟨1, none⟩], [esc], quiet_reads hh hone (run_taken (List.cons_ne_nil _ _) (statusFront_escapes [])
          (run_held rfl)) (.escape h) rfl⟩
      · rw [if_neg h3]
        exact ⟨[⟨2, none⟩], [], quiet_reads hh hone (run_taken (List.cons_ne_nil _ _) (statusFront_other h1 h2 h3 []) rfl)
          (.ground rfl) rfl⟩

theorem string_reads {kind : UInt8} {body : Bytes} (hk : skippedKind kind) (hn : findTerminator false 0 body = none)
    (h : s.scanner = (if body.getLast? = some esc then .stringEscape else .string)) (ch : UInt8) (now : Nat) :
    ∃ items held', StatusReads s (esc :: kind :: body) ch (s.scanByte ch now) items held' := by
  have hh : s.handed ch = none := by
    apply handed_none <;> rw [h] <;> split <;> nofun
  have hnext := findTerminator_next ch hn
  by_cases hend : body.getLast? = some esc ∧ ch = code '\\'
  · rw [if_pos (.inr hend)] at hnext
    rw [if_pos hend.1] at h
    have hscan : s.scanByte ch now = { s with scanner := .ground } := by
      unfold ProgramStatusTracker.scanByte
      rw [h]
      exact if_pos hend.2
    have hfront : statusFront (esc :: kind :: (body ++ [ch])) = .take (body.length + 1 + 2) false [⟨body.length + 1 + 2, none⟩] := by
      rw [statusFront_skipped hk]
      unfold openFront
      rw [hnext]
      simp only [Nat.zero_add, Bool.false_eq_true, if_false]
    have hrest : Scanner.run statusFront ((esc :: kind :: (body ++ [ch])).drop (body.length + 1 + 2)) = ⟨[], [], []⟩ := by
      rw [List.drop_of_length_le (by simp)]
      rfl
    rw [hscan]
    refine ⟨[⟨body.length + 1 + 2, none⟩], [], quiet_reads hh ?_ (run_taken (List.cons_ne_nil _ _) hfront hrest)
      (.ground rfl) (by simp)⟩
    exact fun item hm => List.mem_singleton.mp hm ▸ rfl
  · rw [if_neg (by simpa using hend)] at hnext
    have hfront : statusFront (esc :: kind :: (body ++ [ch])) = .hold := by
      rw [statusFront_skipped hk]
      unfold openFront
      rw [hnext]
    refine ⟨[], esc :: kind :: (body ++ [ch]), quiet_reads hh nofun (run_held hfront) (.string kind _ hk hnext ?_) (by simp)⟩
    rw [List.getLast?_append, List.getLast?_singleton, Option.some_or]
    unfold ProgramStatusTracker.scanByte
    by_cases hl : body.getLast? = some esc
    · rw [if_pos hl] at h
      rw [h]
      simp only
      rw [if_neg fun hc => hend ⟨hl, hc⟩]
      by_cases he : ch = esc
      · rw [if_neg (not_not.mpr he), if_pos (congrArg some he)]
        exact h
      · rw [if_pos he, if_neg fun hc => he (Option.some.inj hc)]
    · rw [if_neg hl] at h
      rw [h]
      simp only
      by_cases he : ch = esc
      · rw [if_pos he, if_pos (congrArg some he)]
      · rw [if_neg he, if_neg fun hc => he (Option.some.inj hc)]
        exact h

theorem osc_ends {body : Bytes} (hn : findTerminator true 0 body = none)
    (h : s.scanner = (if body.getLast? = some esc then .oscEscape else .osc))
    (hover : s.overflow = false ↔ StatusText (dropEscape body)) (hpending : s.overflow = false → s.pending = dropEscape body)
    (hend : ch = bel ∨ (body.getLast? = some esc ∧ ch = code '\\')) (now : Nat) :
    ∃ items held', StatusReads s (esc :: code ']' :: body) ch (s.scanByte ch now) items held' := by
  have hnext := findTerminator_next ch hn
  rw [if_pos (hend.imp_left fun he => ⟨rfl, he⟩)] at hnext
  have hopen : s.scanner = .osc ∨ s.scanner = .oscEscape := by
    rw [h]
    split
    · exact .inr rfl
    · exact .inl rfl
  have hends : ch = bel ∨ (s.scanner = .oscEscape ∧ ch = code '\\') := by
    refine hend.imp_right fun he => ⟨?_, he.2⟩
    rw [h, if_pos he.1]
  have hhanded : s.handed ch = if StatusText (dropEscape body) then some (dropEscape body) else none := by
    unfold ProgramStatusTracker.handed
    by_cases ho : s.overflow = false
    · rw [if_pos ⟨hopen, hends, ho⟩, if_pos (hover.mp ho), hpending ho]
    · rw [if_neg fun hc => ho hc.2.2, if_neg fun hc => ho (hover.mpr hc)]
  have hscan : (s.scanByte ch now).scanner = .ground := by
    have hbyte : s.scanByte ch now = s.oscByte ch now := by
      unfold ProgramStatusTracker.scanByte
      rcases hopen with ho | ho <;> rw [ho]
    rw [hbyte]
    unfold ProgramStatusTracker.oscByte
    rw [if_pos hends]
  have hfront : statusFront (esc :: code ']' :: (body ++ [ch])) = .take (body.length + 1 + 2) false
      [⟨body.length + 1 + 2, statusPayload (body ++ [ch])⟩] := by
    rw [statusFront_osc]
    unfold openFront
    rw [hnext]
    simp only [Nat.zero_add, if_true]
    rw [List.take_of_length_le (by rw [List.length_append, List.length_singleton])]
  have hrest : Scanner.run statusFront ((esc :: code ']' :: (body ++ [ch])).drop (body.length + 1 + 2)) = ⟨[], [], []⟩ := by
    rw [List.drop_of_length_le (by simp)]
    rfl
  refine ⟨[⟨body.length + 1 + 2, statusPayload (body ++ [ch])⟩], [], ?_, .ground hscan, by simp, fun base => ?_⟩
  · exact run_taken (List.cons_ne_nil _ _) hfront hrest
  · rw [hhanded, payloadsFrom, payloadsFrom, List.append_nil]
    unfold statusPayload
    rw [List.dropLast_concat]
    have hoffset : base + (body.length + 1 + 2) = base + (esc :: code ']' :: body).length + 1 := by
      simp only [List.length_cons]
      omega
    rw [hoffset]

theorem osc_goesOn {body : Bytes} (hn : findTerminator true 0 body = none)
    (h : s.scanner = (if body.getLast? = some esc then .oscEscape else .osc))
    (hover : s.overflow = false ↔ StatusText (dropEscape body)) (hpending : s.overflow = false → s.pending = dropEscape body)
    (hend : ¬ (ch = bel ∨ (body.getLast? = some esc ∧ ch = code '\\'))) (now : Nat) :
    ∃ items held', StatusReads s (esc :: code ']' :: body) ch (s.scanByte ch now) items held' := by
  have hnext := findTerminator_next ch hn
  rw [if_neg fun hc => hend (hc.imp_left And.right)] at hnext
  have hfront : statusFront (esc :: code ']' :: (body ++ [ch])) = .hold := by
    rw [statusFront_osc]
    unfold openFront
    rw [hnext]
  suffices hholds : StatusHolds (s.scanByte ch now) (esc :: code ']' :: (body ++ [ch])) by
    have hends : ¬ (ch = bel ∨ (s.scanner = .oscEscape ∧ ch = code '\\')) := by
      rintro (hc | ⟨hc, hch⟩)
      · exact hend (.inl hc)
      · refine hend (.inr ⟨?_, hch⟩)
        rw [h] at hc
        by_contra hl
        rw [if_neg hl] at hc
        cases hc
    have hh : s.handed ch = none := by
      unfold ProgramStatusTracker.handed
      rw [if_neg fun hc => hends hc.2.1]
    exact ⟨[], _, quiet_reads hh nofun (run_held hfront) hholds (by simp)⟩
  have hlast : (body ++ [ch]).getLast? = some ch := by
    rw [List.getLast?_append, List.getLast?_singleton, Option.some_or]
  by_cases hl : body.getLast? = some esc
  · -- an ESC that ended nothing is part of the text now
    rw [if_pos hl] at h
    have hmem : esc ∈ body := List.mem_of_getLast? hl
    have hends : ¬ (ch = bel ∨ (s.scanner = .oscEscape ∧ ch = code '\\')) :=
      fun hc => hend (hc.imp_right fun he => ⟨hl, he.2⟩)
    have hscan : s.scanByte ch now = s.oscByte ch now := by
      unfold ProgramStatusTracker.scanByte
      rw [h]
    rw [hscan]
    unfold ProgramStatusTracker.oscByte
    rw [if_neg hends, if_pos h]
    simp only
    by_cases he : ch = esc
    · subst he
      rw [if_pos rfl]
      refine .osc _ hnext (by rw [hlast, if_pos rfl]) ⟨nofun, fun ht => ?_⟩ nofun
      rw [dropEscape_escape] at ht
      exact absurd hmem ht.2
    · have hne : (body ++ [ch]).getLast? ≠ some esc := by
        rw [hlast]
        exact fun hc => he (Option.some.inj hc)
      rw [if_neg he, if_neg (by simp)]
      refine .osc _ hnext (by rw [if_neg hne]) ⟨nofun, fun ht => ?_⟩ nofun
      rw [dropEscape_other hne] at ht
      exact absurd (List.mem_append_left _ hmem) ht.2
  · rw [if_neg hl] at h
    have hno : s.scanner ≠ .oscEscape := by
      rw [h]
      nofun
    have hends : ¬ (ch = bel ∨ (s.scanner = .oscEscape ∧ ch = code '\\')) :=
      fun hc => hend (hc.imp_right fun he => absurd he.1 hno)
    have hscan : s.scanByte ch now = s.oscByte ch now := by
      unfold ProgramStatusTracker.scanByte
      rw [h]
    rw [dropEscape_other hl] at hover hpending
    rw [hscan]
    unfold ProgramStatusTracker.oscByte
    rw [if_neg hends, if_neg hno]
    simp only
    by_cases he : ch = esc
    · subst he
      rw [if_pos rfl]
      refine .osc _ hnext (by rw [hlast, if_pos rfl]) ?_ ?_
      · rw [dropEscape_escape]
        exact hover
      · rw [dropEscape_escape]
        exact hpending
    · have hne : (body ++ [ch]).getLast? ≠ some esc := by
        rw [hlast]
        exact fun hc => he (Option.some.inj hc)
      rw [if_neg he]
      by_cases hroom : s.pending.length < maxPendingStatus ∧ s.overflow = false
      · rw [if_pos hroom]
        have htext := hover.mp hroom.2
        have hp := hpending hroom.2
        refine .osc _ hnext (by rw [if_neg hne]) ?_ ?_
        · rw [dropEscape_other hne]
          refine ⟨fun _ => ⟨?_, ?_⟩, fun _ => hroom.2⟩
          · rw [List.length_append, ← hp]
            exact hroom.1
          · rw [List.mem_append, List.mem_singleton]
            rintro (hm | hm)
            · exact htext.2 hm
            · exact he hm.symm
        · rw [dropEscape_other hne, hp]
          exact fun _ => rfl
      · rw [if_neg hroom]
        refine .osc _ hnext (by rw [if_neg hne]) ⟨nofun, fun ht => ?_⟩ nofun
        rw [dropEscape_other hne] at ht
        have hlen := ht.1
        rw [List.length_append, List.length_singleton] at hlen
        have ho : s.overflow = false := hover.mpr ⟨by omega, fun hm => ht.2 (List.mem_append_left _ hm)⟩
        rw [hpending ho] at hroom
        exact absurd ⟨by omega, ho⟩ hroom

theorem StatusHolds.reads {held : Bytes} (h : StatusHolds s held) (ch : UInt8) (now : Nat) :
    ∃ items held', StatusReads s held ch (s.scanByte ch now) items held' := by
  cases h with
  | ground hs => exact ground_reads hs ch now
  | escape hs => exact escape_reads hs ch now
  | osc body hn hs hover hpending =>
    by_cases hend : ch = bel ∨ (body.getLast? = some esc ∧ ch = code '\\')
    · exact osc_ends hn hs hover hpending hend now
    · exact osc_goesOn hn hs hover hpending hend now
  | string kind body hk hn hs => exact string_reads hk hn hs ch now

/-- Only the scanner's fields count. -/
theorem StatusHolds.congr {held : Bytes} {t : ProgramStatusTracker} (h : StatusHolds s held) (hs : t.scanner = s.scanner)
    (ho : t.overflow = s.overflow) (hp : t.pending = s.pending) : StatusHolds t held := by
  cases h with
  | ground h => exact .ground (hs.trans h)
  | escape h => exact .escape (hs.trans h)
  | osc body hn h hover hpending =>
    exact .osc body hn (hs.trans h) (by rw [ho]; exact hover) (by rw [ho, hp]; exact hpending)
  | string kind body hk hn h => exact .string kind body hk hn (hs.trans h)

end Reads

/-! ## Runs -/

theorem payloadsFrom_append (items more : List StatusItem) : ∀ base,
    payloadsFrom base (items ++ more) = payloadsFrom base items ++ payloadsFrom (base + (items.map StatusItem.size).sum) more := by
  induction items with
  | nil => exact fun _ => rfl
  | cons item items ih =>
    intro base
    rw [List.cons_append, payloadsFrom, payloadsFrom, ih, List.map_cons, List.sum_cons, List.append_assoc, Nat.add_assoc]

def StatusStep.bytes : StatusStep → Bytes
  | .byte ch _ _ => [ch]
  | _ => []

/-- The bytes are read at their offsets, the first behind `base`. -/
def OffsetsFrom : Nat → List StatusStep → Prop
  | _, [] => True
  | base, .byte _ offset _ :: es => offset = base + 1 ∧ OffsetsFrom (base + 1) es
  | base, _ :: es => OffsetsFrom base es

theorem clear_scanner (s : ProgramStatusTracker) (now : Nat) :
    (s.clear now).scanner = s.scanner ∧ (s.clear now).overflow = s.overflow := by
  unfold ProgramStatusTracker.clear ProgramStatusTracker.set
  simp only
  split
  · split
    · exact ⟨rfl, rfl⟩
    · split
      · exact ⟨rfl, rfl⟩
      · split <;> exact ⟨rfl, rfl⟩
  · exact ⟨rfl, rfl⟩

theorem StatusHolds.clear {s : ProgramStatusTracker} {held : Bytes} (h : StatusHolds s held) (now : Nat) :
    StatusHolds (s.clear now) held :=
  h.congr (clear_scanner s now).1 (clear_scanner s now).2 (clear_pending now)

/-- Behind what is held, the strings are observed that the stream shows. -/
theorem run_strings (es : List StatusStep) : ∀ {s : ProgramStatusTracker} {held : Bytes} {start : Nat}, StatusHolds s held →
    OffsetsFrom (start + held.length) es →
    (statusMoves s es).filterMap StatusMove.osc = oscStrings start (held ++ es.flatMap StatusStep.bytes) := by
  induction es with
  | nil =>
    intro s held start h _
    unfold oscStrings
    rw [List.flatMap_nil, List.append_nil, h.hold]
    rfl
  | cons e es ih =>
    intro s held start h ho
    rw [statusMoves, List.filterMap_cons, List.flatMap_cons]
    cases e with
    | byte ch offset now =>
      obtain ⟨hoffset, ho⟩ := ho
      have hbefore : StatusHolds { s with outputOffset := offset } held := h.congr rfl rfl rfl
      obtain ⟨items, held', hreads⟩ := hbefore.reads ch now
      have hcut := statusFront_agrees (held ++ [ch]) (es.flatMap StatusStep.bytes)
      unfold Scanner.Agrees at hcut
      have hstart : start + (items.map StatusItem.size).sum + held'.length = start + held.length + 1 := by
        rw [Nat.add_assoc, hreads.size, Nat.add_assoc]
      have hoffsets : OffsetsFrom (start + (items.map StatusItem.size).sum + held'.length) es := by
        rw [hstart]
        exact ho
      have hrest := ih (s := s.step (.byte ch offset now)) hreads.holds hoffsets
      unfold oscStrings at hrest ⊢
      simp only [StatusStep.bytes]
      rw [← List.append_assoc, hcut, hreads.run]
      simp only [Scanner.Result.andThen]
      rw [payloadsFrom_append, hreads.payloads, ← hrest]
      have hhanded : { s with outputOffset := offset }.handed ch = s.handed ch := rfl
      rw [hhanded, ← hoffset]
      unfold StatusMove.osc
      simp only
      cases s.handed ch <;> rfl
    | clear now =>
      have hrest := ih (h.clear now) ho
      exact hrest
    | handOff busy scanStartedAt now =>
      have hnext : StatusHolds (s.step (.handOff busy scanStartedAt now)) held := by
        unfold ProgramStatusTracker.step ProgramStatusTracker.handOff
        simp only
        split
        · exact h.clear now
        · exact h
      have hrest := ih hnext ho
      exact hrest

/-! ## Writes -/

inductive StatusEvent
  | write (data : Bytes) (startOffset : Nat) (now : Nat → Nat)
  | clear (now : Nat)
  | handOff (busy : Bool) (scanStartedAt now : Nat)

def byteSteps : Bytes → Nat → (Nat → Nat) → List StatusStep
  | [], _, _ => []
  | ch :: data, startOffset, now => .byte ch (startOffset + 1) (now 0) :: byteSteps data (startOffset + 1) fun index => now (index + 1)

namespace StatusEvent

def steps : StatusEvent → List StatusStep
  | .write data startOffset now => byteSteps data startOffset now
  | .clear now => [.clear now]
  | .handOff busy scanStartedAt now => [.handOff busy scanStartedAt now]

def bytes : StatusEvent → Bytes
  | .write data _ _ => data
  | _ => []

end StatusEvent

/-- Each write starts where the last has ended, the first at `base`. -/
def ContiguousWrites : Nat → List StatusEvent → Prop
  | _, [] => True
  | base, .write data startOffset _ :: es => startOffset = base ∧ ContiguousWrites (base + data.length) es
  | base, _ :: es => ContiguousWrites base es

namespace ProgramStatusTracker

def handle (s : ProgramStatusTracker) : StatusEvent → ProgramStatusTracker
  | .write data startOffset now => s.write data startOffset now
  | .clear now => s.clear now
  | .handOff busy scanStartedAt now => s.handOff busy scanStartedAt now

theorem write_steps (data : Bytes) : ∀ (s : ProgramStatusTracker) (startOffset : Nat) (now : Nat → Nat),
    s.write data startOffset now = s.run (byteSteps data startOffset now) := by
  induction data with
  | nil => exact fun _ _ _ => rfl
  | cons ch data ih => exact fun s startOffset now => ih _ _ _

theorem handle_steps (s : ProgramStatusTracker) (e : StatusEvent) : s.handle e = s.run e.steps := by
  cases e with
  | write data startOffset now => exact write_steps data s startOffset now
  | clear now => rfl
  | handOff busy scanStartedAt now => rfl

theorem handles_steps (es : List StatusEvent) : ∀ s : ProgramStatusTracker,
    es.foldl handle s = s.run (es.flatMap StatusEvent.steps) := by
  induction es with
  | nil => exact fun _ => rfl
  | cons e es ih =>
    intro s
    have happend : s.run (e.steps ++ es.flatMap StatusEvent.steps) = (s.run e.steps).run (es.flatMap StatusEvent.steps) :=
      List.foldl_append
    rw [List.foldl_cons, ih, handle_steps, List.flatMap_cons, happend]

end ProgramStatusTracker

theorem byteSteps_bytes (data : Bytes) : ∀ (startOffset : Nat) (now : Nat → Nat),
    (byteSteps data startOffset now).flatMap StatusStep.bytes = data := by
  induction data with
  | nil => exact fun _ _ => rfl
  | cons ch data ih =>
    intro startOffset now
    rw [byteSteps, List.flatMap_cons, ih]
    rfl

theorem byteSteps_offsets (data : Bytes) : ∀ (base : Nat) (now : Nat → Nat) (es : List StatusStep),
    OffsetsFrom (base + data.length) es → OffsetsFrom base (byteSteps data base now ++ es) := by
  induction data with
  | nil => exact fun _ _ _ h => h
  | cons ch data ih =>
    intro base now es h
    rw [List.length_cons, Nat.add_comm data.length, ← Nat.add_assoc] at h
    exact ⟨rfl, ih (base + 1) _ es h⟩

theorem steps_offsets (es : List StatusEvent) : ∀ base, ContiguousWrites base es → OffsetsFrom base (es.flatMap StatusEvent.steps) := by
  induction es with
  | nil => exact fun _ _ => trivial
  | cons e es ih =>
    intro base h
    rw [List.flatMap_cons]
    cases e with
    | write data startOffset now =>
      obtain ⟨rfl, h⟩ := h
      exact byteSteps_offsets data _ now _ (ih _ h)
    | clear now => exact ih base h
    | handOff busy scanStartedAt now => exact ih base h

theorem steps_bytes (es : List StatusEvent) :
    (es.flatMap StatusEvent.steps).flatMap StatusStep.bytes = es.flatMap StatusEvent.bytes := by
  rw [List.flatMap_assoc]
  congr 1
  funext e
  cases e with
  | write data startOffset now => exact byteSteps_bytes data startOffset now
  | clear now => rfl
  | handOff busy scanStartedAt now => rfl

/-- However a stream is cut into writes, and whenever the state is cleared: the strings observed are those of the
stream, what is kept is bounded, the counters count, and no source overrules a higher one. -/
theorem program_status {base : Nat} {events : List StatusEvent} (h : ContiguousWrites base events) :
    let moves := statusMoves {} (events.flatMap StatusEvent.steps)
    let s := events.foldl ProgramStatusTracker.handle {}
    moves.filterMap StatusMove.osc = oscStrings base (events.flatMap StatusEvent.bytes) ∧
    (∀ m ∈ moves, m.after.pending.length ≤ 4096 ∧ m.after.completed ≤ m.after.revision ∧
      m.before.revision ≤ m.after.revision ∧ m.before.completed ≤ m.after.completed) ∧
    s.revision = (moves.filter StatusMove.changes).length ∧
    s.completed = (moves.filterMap StatusMove.completion).length ∧
    s.completedOffset = ((moves.filterMap StatusMove.completion).getLast?.map Prod.fst).getD 0 ∧
    ∀ l₁ x l₂ y l₃ source offset payload, moves = l₁ ++ x :: (l₂ ++ y :: l₃) → x.Sets source →
      (∀ m ∈ l₂, m.call ≠ some .clear) → y.osc = some (offset, payload) → oscSource payload < source →
      y.after.toProgramStatus = y.before.toProgramStatus := by
  have hfresh : StatusBounded {} := ⟨Nat.zero_le _, Nat.le_refl _, Nat.zero_le _⟩
  have hrevision := run_revision (events.flatMap StatusEvent.steps) {}
  obtain ⟨hcompleted, hoffset⟩ := run_completed (events.flatMap StatusEvent.steps) {}
  simp only
  rw [ProgramStatusTracker.handles_steps]
  refine ⟨?_, fun m hm => ?_, by rw [hrevision]; exact Nat.zero_add _, by rw [hcompleted]; exact Nat.zero_add _, hoffset, ?_⟩
  · have hstrings := @run_strings (events.flatMap StatusEvent.steps) {} [] base (.ground rfl) (steps_offsets events base h)
    rw [hstrings, List.nil_append, steps_bytes]
  · obtain ⟨hbefore, hafter⟩ := statusMoves_inv (I := StatusBounded) (fun _ e h => h.step e) hfresh m hm
    have hnext := hbefore.step m.step
    have hgo := ProgramStatusTracker.step_goes (s := m.before) m.step
    rw [hafter]
    refine ⟨hnext.pending, hnext.completed, ?_, ?_⟩
    · rw [hgo.revision]
      omega
    · rcases hgo.completed with ⟨hc, -⟩ | ⟨hc, -⟩ <;> omega
  · intro l₁ x l₂ y l₃ source offset payload hl hx hc hy hlow
    exact run_priority hfresh hl hx hc hy hlow

/-- The end of a command, reported in two writes. -/
def cutReport : List StatusEvent :=
  [.write (ascii "$\x1b]133;D\x1b") 10 fun _ => 0, .clear 0, .write (ascii "\\$") 19 fun _ => 0]

theorem program_status_cut :
    (statusMoves {} (cutReport.flatMap StatusEvent.steps)).filterMap StatusMove.osc =
      oscStrings 10 (ascii "$\x1b]133;D\x1b\\$") ∧
    oscStrings 10 (ascii "$\x1b]133;D\x1b\\$") = [(20, ascii "133;D")] :=
  ⟨(@program_status 10 cutReport ⟨rfl, rfl, trivial⟩).1, by decide⟩

end Webshell
