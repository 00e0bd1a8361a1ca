import Webshell.Checkpoint

/-!
# Scanning the output piece by piece

The engine scans what it holds back together with each new piece, from the
ground state. It hands over the same bytes as one scan of the whole output.
-/

namespace Webshell

/-! ## Runes -/

theorem runeStart_some {b low high : UInt8} {size : Nat} (h : runeStart b = some (size, low, high)) :
    2 ≤ size ∧ size ≤ 4 ∧ 0x80 ≤ low := by
  unfold runeStart at h
  repeat' split at h
  all_goals cases h
  all_goals exact ⟨by omega, by omega, by decide⟩

theorem decodeRuneSize_pos (b : UInt8) (rest : Bytes) : 0 < decodeRuneSize (b :: rest) := by
  unfold decodeRuneSize
  simp only
  split
  · omega
  · rename_i size low high hs
    have := (runeStart_some hs).1
    split
    · omega
    · split
      · omega
      · split <;> omega

theorem decodeRuneSize_le (b : UInt8) (rest : Bytes) : decodeRuneSize (b :: rest) ≤ rest.length + 1 := by
  unfold decodeRuneSize
  simp only
  split
  · omega
  · split
    · simp
    · rename_i c rest
      rw [List.length_cons]
      split
      · omega
      · rename_i hlen
        simp only [not_or, Nat.not_lt, Bool.or_eq_true, decide_eq_true_eq] at hlen
        split <;> omega

/-- More input does not change a rune that is full. -/
theorem fullRune_append {b : UInt8} {rest : Bytes} (h : fullRune (b :: rest) = true) (ys : Bytes) :
    fullRune (b :: (rest ++ ys)) = true ∧ decodeRuneSize (b :: (rest ++ ys)) = decodeRuneSize (b :: rest) := by
  unfold fullRune at h ⊢
  unfold decodeRuneSize
  simp only at h ⊢
  cases hs : runeStart b with
  | none => exact ⟨rfl, rfl⟩
  | some r =>
    obtain ⟨size, low, high⟩ := r
    obtain ⟨h2, h4, -⟩ := runeStart_some hs
    rw [hs] at h
    simp only at h ⊢
    cases rest with
    | nil =>
      rw [if_neg (by simp; omega)] at h
      cases h
    | cons c rest =>
      simp only [List.cons_append, List.length_cons, Bool.or_eq_true, decide_eq_true_eq] at h ⊢
      by_cases hout : c < low ∨ high < c
      · refine ⟨by split <;> rfl, ?_⟩
        rw [if_pos (Or.imp_left Or.inr hout), if_pos (Or.imp_left Or.inr hout)]
      · rw [if_neg hout] at h ⊢
        have hlate (n : Nat) : (n < size ∨ c < low) ∨ high < c ↔ n < size := by
          rw [or_assoc, or_iff_left hout]
        simp only [hlate]
        by_cases hlen : size ≤ rest.length + 1 + 1
        · have htake : (rest ++ ys).take (size - 2) = rest.take (size - 2) := List.take_append_of_le_length (by omega)
          rw [if_pos (by rw [List.length_append]; omega), htake, if_neg (show ¬rest.length + 2 < size by omega),
            if_neg (show ¬(rest ++ ys).length + 2 < size by rw [List.length_append]; omega)]
          exact ⟨rfl, rfl⟩
        · rw [if_neg hlen] at h
          cases rest with
          | nil => cases h
          | cons d rest =>
            -- the rune has four bytes, of which the third is wrong
            have hd : isContinuation d = false := by simpa using h
            have hsize : size = 4 := by simp at hlen; omega
            subst hsize
            simp only [List.cons_append, Nat.reduceSub, List.take_succ_cons, List.all_cons, hd, Bool.false_and]
            refine ⟨by simp, ?_⟩
            split <;> simp

/-! ## The steps of the scan -/

/-- The state after a byte, which cancels a sequence if it is CAN or SUB. -/
def scanNext (b : UInt8) (state : ScanState) (osc : Bool) : ScanState × Bool :=
  scanByte b osc (if b = 0x18 ∨ b = 0x1a then .ground else state)

theorem boundaryLoop_skip (skip : Nat) : ∀ (xs : Bytes) (i safe : Nat) (state : ScanState) (osc : Bool),
    boundaryLoop xs skip i safe state osc = boundaryLoop (xs.drop skip) 0 (i + skip) safe state osc := by
  induction skip with
  | zero => exact fun _ _ _ _ _ => rfl
  | succ skip ih =>
    intro xs i safe state osc
    cases xs with
    | nil => rfl
    | cons b rest =>
      rw [boundaryLoop, ih, List.drop_succ_cons, show i + 1 + skip = i + (skip + 1) by omega]

section
variable {b : UInt8} {rest : Bytes} {i safe : Nat} {state : ScanState} {osc : Bool}

theorem boundaryLoop_stuck (hb : 0x80 ≤ b) (hf : fullRune (b :: rest) = false) :
    boundaryLoop (b :: rest) 0 i safe .ground osc = safe := by
  rw [boundaryLoop, if_pos ⟨rfl, hb⟩, hf]
  rfl

theorem boundaryLoop_rune (hb : 0x80 ≤ b) (hf : fullRune (b :: rest) = true) :
    boundaryLoop (b :: rest) 0 i safe .ground osc =
      boundaryLoop ((b :: rest).drop (decodeRuneSize (b :: rest))) 0 (i + decodeRuneSize (b :: rest))
        (i + decodeRuneSize (b :: rest)) .ground osc := by
  have hpos := decodeRuneSize_pos b rest
  rw [boundaryLoop, if_pos ⟨rfl, hb⟩, hf]
  simp only [Bool.not_true, Bool.false_eq_true, if_false]
  rw [boundaryLoop_skip, show i + 1 + (decodeRuneSize (b :: rest) - 1) = i + decodeRuneSize (b :: rest) by omega]
  congr 1
  obtain ⟨n, hn⟩ : ∃ n, decodeRuneSize (b :: rest) = n + 1 := ⟨_, (Nat.sub_add_cancel hpos).symm⟩
  rw [hn, List.drop_succ_cons, Nat.add_sub_cancel]

theorem boundaryLoop_byte (h : ¬(state = .ground ∧ 0x80 ≤ b)) :
    boundaryLoop (b :: rest) 0 i safe state osc =
      boundaryLoop rest 0 (i + 1) (if (scanNext b state osc).1 = .ground then i + 1 else safe) (scanNext b state osc).1
        (scanNext b state osc).2 := by
  rw [boundaryLoop, if_neg h]
  rfl

end

/-- Induction along the steps of the scan. -/
theorem scan_induction {motive : Bytes → Nat → Nat → ScanState → Bool → Prop}
    (nil : ∀ i safe state osc, motive [] i safe state osc)
    (stuck : ∀ b rest i safe osc, 0x80 ≤ b → fullRune (b :: rest) = false → motive (b :: rest) i safe .ground osc)
    (rune : ∀ b rest i safe osc, 0x80 ≤ b → fullRune (b :: rest) = true →
      motive ((b :: rest).drop (decodeRuneSize (b :: rest))) (i + decodeRuneSize (b :: rest))
        (i + decodeRuneSize (b :: rest)) .ground osc → motive (b :: rest) i safe .ground osc)
    (byte : ∀ b rest i safe state osc, ¬(state = .ground ∧ 0x80 ≤ b) →
      motive rest (i + 1) (if (scanNext b state osc).1 = .ground then i + 1 else safe) (scanNext b state osc).1
        (scanNext b state osc).2 → motive (b :: rest) i safe state osc) :
    ∀ xs i safe state osc, motive xs i safe state osc := by
  intro xs
  induction hn : xs.length using Nat.strongRecOn generalizing xs with
  | _ n ih =>
    intro i safe state osc
    cases xs with
    | nil => exact nil i safe state osc
    | cons b rest =>
      rw [List.length_cons] at hn
      by_cases h : state = .ground ∧ 0x80 ≤ b
      · obtain ⟨rfl, hb⟩ := h
        cases hf : fullRune (b :: rest) with
        | false => exact stuck b rest i safe osc hb hf
        | true =>
          have hpos := decodeRuneSize_pos b rest
          refine rune b rest i safe osc hb hf (ih _ ?_ _ rfl _ _ _ _)
          rw [List.length_drop, List.length_cons]
          omega
      · exact byte b rest i safe state osc h (ih rest.length (by omega) rest rfl _ _ _ _)

/-! ## Scanning on -/

/-- Between strings the scan does not look at what kind the last one was. -/
def InString (state : ScanState) : Prop := state = .string ∨ state = .stringEscape

theorem scanByte_osc (b : UInt8) {state : ScanState} {osc osc' : Bool} (h : InString state → osc' = osc) :
    (scanByte b osc' state).1 = (scanByte b osc state).1 ∧
      (InString (scanByte b osc state).1 → (scanByte b osc' state).2 = (scanByte b osc state).2) := by
  unfold InString at h ⊢
  cases state with
  | string => rw [h (Or.inl rfl)]; exact ⟨rfl, fun _ => rfl⟩
  | stringEscape => rw [h (Or.inr rfl)]; exact ⟨rfl, fun _ => rfl⟩
  | ground => simp only [scanByte]; split <;> simp
  | csi =>
    simp only [scanByte]
    split
    · simp
    · split <;> simp
  | escape =>
    simp only [scanByte]
    split
    · simp
    · split
      · simp
      · split <;> simp

theorem scanNext_osc (b : UInt8) {state : ScanState} {osc osc' : Bool} (h : InString state → osc' = osc) :
    (scanNext b state osc').1 = (scanNext b state osc).1 ∧
      (InString (scanNext b state osc).1 → (scanNext b state osc').2 = (scanNext b state osc).2) := by
  refine scanByte_osc b fun hs => ?_
  split at hs
  · rcases hs with hs | hs <;> cases hs
  · exact h hs

/-- A scan that starts further on ends further on. -/
theorem boundaryLoop_shift (k : Nat) : ∀ (xs : Bytes) (i safe : Nat) (state : ScanState) (osc : Bool) (osc' : Bool),
    (InString state → osc' = osc) →
      boundaryLoop xs 0 (i + k) (safe + k) state osc' = boundaryLoop xs 0 i safe state osc + k := by
  refine scan_induction ?_ ?_ ?_ ?_
  · exact fun i safe state osc osc' _ => rfl
  · intro b rest i safe osc hb hf osc' _
    rw [boundaryLoop_stuck hb hf, boundaryLoop_stuck hb hf]
  · intro b rest i safe osc hb hf ih osc' hosc
    rw [boundaryLoop_rune hb hf, boundaryLoop_rune hb hf, ← ih osc' hosc]
    congr 1 <;> omega
  · intro b rest i safe state osc h ih osc' hosc
    obtain ⟨hstate, hosc'⟩ := scanNext_osc b hosc
    rw [boundaryLoop_byte h, boundaryLoop_byte h, ← ih _ hosc', hstate]
    congr 1
    · omega
    · split <;> omega

theorem boundaryLoop_ground (xs : Bytes) (i : Nat) (osc : Bool) :
    boundaryLoop xs 0 i i .ground osc = i + terminalCheckpointBoundary xs := by
  have h := boundaryLoop_shift i xs 0 0 .ground false osc (fun hs => by rcases hs with hs | hs <;> cases hs)
  rw [Nat.zero_add] at h
  rw [h, Nat.add_comm]
  rfl

/-- A scan of more bytes goes on where the scan of the first ones saw the ground state last. -/
theorem boundaryLoop_append (ys : Bytes) : ∀ (xs : Bytes) (i safe : Nat) (state : ScanState) (osc : Bool),
    (state = .ground → safe = i) →
      (state ≠ .ground ∧ boundaryLoop xs 0 i safe state osc = safe) ∨
        (i ≤ boundaryLoop xs 0 i safe state osc ∧ boundaryLoop xs 0 i safe state osc ≤ i + xs.length ∧
          ∃ osc', boundaryLoop (xs ++ ys) 0 i safe state osc =
            boundaryLoop (xs.drop (boundaryLoop xs 0 i safe state osc - i) ++ ys) 0 (boundaryLoop xs 0 i safe state osc)
              (boundaryLoop xs 0 i safe state osc) .ground osc') := by
  refine scan_induction ?_ ?_ ?_ ?_
  · intro i safe state osc hs
    by_cases hg : state = .ground
    · subst hg
      obtain rfl := hs rfl
      refine Or.inr ⟨Nat.le_refl _, Nat.le_refl _, osc, ?_⟩
      simp [boundaryLoop]
    · exact Or.inl ⟨hg, rfl⟩
  · intro b rest i safe osc hb hf hs
    obtain rfl := hs rfl
    rw [boundaryLoop_stuck hb hf]
    exact Or.inr ⟨Nat.le_refl _, by omega, osc, by simp⟩
  · intro b rest i safe osc hb hf ih _
    obtain ⟨hf', hsize⟩ := fullRune_append hf ys
    have hle := decodeRuneSize_le b rest
    have hdrop : (b :: (rest ++ ys)).drop (decodeRuneSize (b :: rest)) =
        (b :: rest).drop (decodeRuneSize (b :: rest)) ++ ys := by
      rw [← List.cons_append, List.drop_append_of_le_length (by simpa using hle)]
    rw [List.cons_append, boundaryLoop_rune hb hf, boundaryLoop_rune hb hf', hsize, hdrop]
    rcases ih fun _ => rfl with ⟨hg, -⟩ | ⟨hlow, hhigh, osc', he⟩
    · exact absurd rfl hg
    · refine Or.inr ⟨by omega, ?_, osc', ?_⟩
      · rw [List.length_drop, List.length_cons] at hhigh
        rw [List.length_cons]
        omega
      · rw [he, List.drop_drop]
        congr 3
        omega
  · intro b rest i safe state osc h ih hsafe
    have hs : (scanNext b state osc).1 = .ground →
        (if (scanNext b state osc).1 = .ground then i + 1 else safe) = i + 1 := fun hg => if_pos hg
    have hstep : boundaryLoop (b :: rest) 0 i safe state osc = _ := boundaryLoop_byte h
    rcases ih hs with ⟨hg, hstay⟩ | ⟨hlow, hhigh, osc', he⟩
    · rw [hstay, if_neg hg] at hstep
      rw [hstep]
      by_cases hg' : state = .ground
      · obtain rfl := hsafe hg'
        subst hg'
        exact Or.inr ⟨Nat.le_refl _, by omega, osc, by simp⟩
      · exact Or.inl ⟨hg', rfl⟩
    · rw [← hstep] at hlow hhigh he
      refine Or.inr ⟨by omega, ?_, osc', ?_⟩
      · rw [List.length_cons]
        omega
      · rw [List.cons_append, boundaryLoop_byte h, he]
        generalize boundaryLoop (b :: rest) 0 i safe state osc = r at hlow
        obtain ⟨n, rfl⟩ : ∃ n, r = i + 1 + n := ⟨r - (i + 1), by omega⟩
        rw [show i + 1 + n - (i + 1) = n by omega, show i + 1 + n - i = n + 1 by omega, List.drop_succ_cons]

theorem terminalCheckpointBoundary_le (xs : Bytes) : terminalCheckpointBoundary xs ≤ xs.length := by
  rcases boundaryLoop_append [] xs 0 0 .ground false fun _ => rfl with ⟨hg, -⟩ | ⟨-, hle, -⟩
  · exact absurd rfl hg
  · rwa [Nat.zero_add] at hle

/-- **Restart.** What was held back is scanned again with the new bytes, from the ground state. -/
theorem terminalCheckpointBoundary_append (xs ys : Bytes) :
    terminalCheckpointBoundary (xs ++ ys) =
      terminalCheckpointBoundary xs + terminalCheckpointBoundary (xs.drop (terminalCheckpointBoundary xs) ++ ys) := by
  rcases boundaryLoop_append ys xs 0 0 .ground false fun _ => rfl with ⟨hg, -⟩ | ⟨-, -, osc', he⟩
  · exact absurd rfl hg
  · rw [boundaryLoop_ground, boundaryLoop_ground, boundaryLoop_ground] at he
    simpa only [Nat.zero_add, Nat.sub_zero] using he

/-! ## No boundary inside the start of a graphics command -/

/-- The state knows of an `ESC` or `ESC _` at the end of what was scanned. -/
def Tracked (scanned : Bytes) (state : ScanState) : Prop :=
  (∀ front, scanned = front ++ [0x1b] → state = .escape ∨ state = .stringEscape) ∧
    ∀ front, scanned = front ++ [0x1b, 0x5f] → state = .string

theorem Tracked.byte {scanned : Bytes} {state : ScanState} {b : UInt8} (h : Tracked scanned state) (osc : Bool) :
    Tracked (scanned ++ [b]) (scanNext b state osc).1 := by
  constructor
  · intro front he
    obtain ⟨-, hb⟩ := List.append_inj' he rfl
    cases hb
    unfold scanNext
    rw [if_neg (by decide)]
    cases state <;> simp [scanByte]
  · intro front he
    have he : scanned ++ [b] = (front ++ [0x1b]) ++ [0x5f] := by simpa using he
    obtain ⟨hs, hb⟩ := List.append_inj' he rfl
    cases hb
    unfold scanNext
    rw [if_neg (by decide)]
    rcases h.1 front hs with rfl | rfl <;> simp [scanByte]

theorem rune_bytes {b : UInt8} (hb : 0x80 ≤ b) (rest : Bytes) :
    ∀ x ∈ (b :: rest).take (decodeRuneSize (b :: rest)), 0x80 ≤ x := by
  have one : ∀ x ∈ (b :: rest).take 1, 0x80 ≤ x := by
    intro x hx
    rw [List.take_succ_cons, List.take_zero, List.mem_singleton] at hx
    rw [hx]; exact hb
  unfold decodeRuneSize
  simp only
  split
  · exact one
  · rename_i size low high hs
    obtain ⟨h2, -, hlow⟩ := runeStart_some hs
    cases rest with
    | nil => exact one
    | cons c rest =>
      simp only [Bool.or_eq_true, decide_eq_true_eq]
      split
      · exact one
      · rename_i hin
        rw [not_or, not_or] at hin
        split
        · rename_i hall
          obtain ⟨n, rfl⟩ : ∃ n, size = n + 2 := ⟨size - 2, by omega⟩
          intro x hx
          rw [List.take_succ_cons, List.take_succ_cons, List.mem_cons, List.mem_cons] at hx
          rcases hx with rfl | rfl | hx
          · exact hb
          · exact UInt8.le_trans hlow (UInt8.not_lt.mp hin.1.2)
          · have := List.all_eq_true.mp hall x hx
            unfold isContinuation at this
            simp only [Bool.and_eq_true, decide_eq_true_eq] at this
            exact this.1
        · exact one

theorem Tracked.rune {scanned word : Bytes} (hne : word ≠ []) (hw : ∀ x ∈ word, 0x80 ≤ x) :
    Tracked (scanned ++ word) .ground := by
  obtain ⟨front', last, rfl⟩ := List.eq_nil_or_concat word |>.resolve_left hne
  have hlast := hw last (by simp)
  rw [List.concat_eq_append, ← List.append_assoc]
  constructor
  · intro front he
    obtain ⟨-, hb⟩ := List.append_inj' he rfl
    cases hb
    exact absurd hlast (by decide)
  · intro front he
    have he : scanned ++ front' ++ [last] = (front ++ [0x1b]) ++ [0x5f] := by simpa using he
    obtain ⟨-, hb⟩ := List.append_inj' he rfl
    cases hb
    exact absurd hlast (by decide)

theorem boundaryLoop_tracked : ∀ (xs : Bytes) (i safe : Nat) (state : ScanState) (osc : Bool), ∀ scanned : Bytes,
    scanned.length = i → Tracked scanned state → Tracked ((scanned ++ xs).take safe) .ground →
      Tracked ((scanned ++ xs).take (boundaryLoop xs 0 i safe state osc)) .ground := by
  refine scan_induction ?_ ?_ ?_ ?_
  · exact fun i safe state osc scanned _ _ hs => hs
  · intro b rest i safe osc hb hf scanned _ _ hs
    rw [boundaryLoop_stuck hb hf]
    exact hs
  · intro b rest i safe osc hb hf ih scanned hl ht _
    have hle := decodeRuneSize_le b rest
    have hpos := decodeRuneSize_pos b rest
    have hbytes := rune_bytes hb rest
    rw [boundaryLoop_rune hb hf]
    have hword : ((b :: rest).take (decodeRuneSize (b :: rest))).length = decodeRuneSize (b :: rest) := by
      rw [List.length_take, List.length_cons]; omega
    have htracked : Tracked (scanned ++ (b :: rest).take (decodeRuneSize (b :: rest))) .ground := by
      refine Tracked.rune (fun he => ?_) hbytes
      rw [he] at hword
      simp only [List.length_nil] at hword
      omega
    have h := ih (scanned ++ (b :: rest).take (decodeRuneSize (b :: rest))) (by rw [List.length_append, hword, hl]) htracked
    rw [List.append_assoc, List.take_append_drop] at h
    refine h ?_
    rw [List.take_append, List.take_of_length_le (by omega), hl, Nat.add_sub_cancel_left]
    exact htracked
  · intro b rest i safe state osc h ih scanned hl ht hs
    have htracked := ht.byte (b := b) osc
    rw [boundaryLoop_byte h]
    have hi := ih (scanned ++ [b]) (by simp [hl]) htracked
    rw [List.append_assoc, List.singleton_append] at hi
    refine hi ?_
    split
    · rename_i hg
      rw [List.take_append, List.take_of_length_le (by omega), hl, Nat.add_sub_cancel_left, List.take_succ_cons,
        List.take_zero, ← hg]
      exact htracked
    · exact hs

/-- No boundary lies behind an `ESC` or `ESC _`. -/
theorem boundary_tracked (xs : Bytes) : Tracked (xs.take (terminalCheckpointBoundary xs)) .ground := by
  have hnil : Tracked [] .ground := by
    constructor <;> intro front he
    · exact absurd he (by simp)
    · exact absurd he (by simp)
  exact boundaryLoop_tracked xs 0 0 .ground false [] rfl hnil (by simpa using hnil)

theorem containsGraphics_iff {xs : Bytes} : containsGraphics xs = true ↔ [0x1b, 0x5f, 0x47] <:+: xs := by
  induction xs with
  | nil => simp [containsGraphics]
  | cons b rest ih =>
    rw [List.infix_cons_iff, ← ih, containsGraphics.eq_def]
    split
    · rename_i tail he
      rw [he]
      exact iff_of_true rfl (Or.inl ⟨tail, rfl⟩)
    · rename_i other tail hno he
      cases he
      constructor
      · exact Or.inr
      · rintro (⟨tail, he⟩ | h)
        · cases he
          exact (hno tail rfl rfl).elim
        · exact h
    · rename_i he
      cases he

/-- Graphics in the output show in what was held back and what is new. -/
theorem containsGraphics_append {xs : Bytes} (h : containsGraphics xs = false) (ys : Bytes) :
    containsGraphics (xs ++ ys) = containsGraphics (xs.drop (terminalCheckpointBoundary xs) ++ ys) := by
  have hle := terminalCheckpointBoundary_le xs
  have htracked := boundary_tracked xs
  have hxs : ¬[0x1b, 0x5f, 0x47] <:+: xs := fun hi => by
    rw [containsGraphics_iff.mpr hi] at h; cases h
  generalize terminalCheckpointBoundary xs = r at hle htracked
  have hsplit : xs ++ ys = xs.take r ++ (xs.drop r ++ ys) := by rw [← List.append_assoc, List.take_append_drop]
  apply Bool.eq_iff_iff.mpr
  rw [containsGraphics_iff, containsGraphics_iff]
  constructor
  · rintro ⟨front, tail, he⟩
    rw [List.append_assoc, hsplit] at he
    rcases Nat.lt_or_ge front.length r with hlt | hge
    · -- the command would begin before the boundary
      have htake : xs.take r = front ++ ([0x1b, 0x5f, 0x47] ++ tail).take (r - front.length) := by
        have := congrArg (List.take r) he
        rw [List.take_append, List.take_of_length_le (by omega)] at this
        rw [this, List.take_append, List.length_take, Nat.min_eq_left hle, Nat.sub_self, List.take_zero, List.append_nil,
          List.take_take, Nat.min_self]
      obtain ⟨n, hn⟩ : ∃ n, r - front.length = n + 1 := ⟨r - front.length - 1, by omega⟩
      rw [hn] at htake
      match n with
      | 0 => exact absurd (htracked.1 front htake) (by simp)
      | 1 => exact absurd (htracked.2 front htake) (by simp)
      | n + 2 =>
        refine absurd ?_ hxs
        have hin : [0x1b, 0x5f, 0x47] <:+: xs.take r := ⟨front, tail.take n, by rw [htake]; simp⟩
        exact hin.trans (List.take_prefix r xs).isInfix
    · obtain ⟨rest, rfl⟩ : ∃ rest, front = xs.take r ++ rest := by
        refine ⟨front.drop r, ?_⟩
        have := congrArg (List.take r) he
        rw [List.take_append_of_le_length hge, List.take_append, List.length_take, Nat.min_eq_left hle, Nat.sub_self,
          List.take_zero, List.append_nil, List.take_take, Nat.min_self] at this
        rw [← this, List.take_append_drop]
      rw [List.append_assoc] at he
      exact ⟨rest, tail, by rw [List.append_assoc]; exact List.append_cancel_left he⟩
  · rw [hsplit]
    exact fun hi => hi.trans (List.suffix_append _ _).isInfix

/-! ## The engine over a whole output -/

/-- The bytes a write passes to the parser. -/
def CheckpointEngine.handOver (e : CheckpointEngine) (data : Bytes) : Bytes :=
  let input := e.pending ++ data
  if !e.healthy || containsGraphics input then []
  else if 2 ^ 20 < (input.drop (terminalCheckpointBoundary input)).length then []
  else input.take (terminalCheckpointBoundary input)

/-- An engine with all the bytes its parser has been given. -/
structure CheckpointFeed where
  engine : CheckpointEngine
  handed : Bytes

inductive CheckpointCall
  | write (data : Bytes) (answers : ParserAnswers)
  | resize (cols rows lines : Int) (answers : ParserAnswers)

def CheckpointCall.bytes : CheckpointCall → Bytes
  | .write data _ => data
  | .resize .. => []

def CheckpointFeed.call (f : CheckpointFeed) : CheckpointCall → CheckpointFeed
  | .write data answers => { engine := f.engine.write data answers, handed := f.handed ++ f.engine.handOver data }
  | .resize cols rows lines answers => { f with engine := f.engine.resize cols rows lines answers }

def feed (cols rows lines : Int) (calls : List CheckpointCall) : CheckpointFeed :=
  calls.foldl CheckpointFeed.call { engine := .new cols rows lines, handed := [] }

def outputOf (calls : List CheckpointCall) : Bytes := calls.flatMap CheckpointCall.bytes

/-- An engine that has not failed has seen the output. -/
def FeedInv (out : Bytes) (f : CheckpointFeed) : Prop :=
  f.engine.err = none → f.engine.legacyGraphics = containsGraphics out ∧
    (f.engine.legacyGraphics = false → f.engine.closed = false ∧ f.handed ++ f.engine.pending = out ∧
      f.handed.length = terminalCheckpointBoundary out)

theorem healthy_iff {e : CheckpointEngine} :
    e.healthy = true ↔ e.closed = false ∧ e.err = none ∧ e.legacyGraphics = false := by
  unfold CheckpointEngine.healthy
  simp [and_assoc]

/-- What a write leaves of an engine that follows the output, when it does not fail. -/
theorem write_cases {e : CheckpointEngine} {data : Bytes} {answers : ParserAnswers} (hh : e.healthy = true)
    (herr : (e.write data answers).err = none) :
    (containsGraphics (e.pending ++ data) = true ∧ (e.write data answers).legacyGraphics = true) ∨
      (containsGraphics (e.pending ++ data) = false ∧ (e.write data answers).legacyGraphics = false ∧
        (e.write data answers).closed = false ∧
          (e.write data answers).pending = (e.pending ++ data).drop (terminalCheckpointBoundary (e.pending ++ data)) ∧
            e.handOver data = (e.pending ++ data).take (terminalCheckpointBoundary (e.pending ++ data))) := by
  obtain ⟨hclosed, -, hlegacy⟩ := healthy_iff.mp hh
  unfold CheckpointEngine.write at herr ⊢
  unfold CheckpointEngine.handOver
  rw [hh] at herr ⊢
  simp only [Bool.not_true, Bool.false_eq_true, if_false, Bool.false_or] at herr ⊢
  cases hg : containsGraphics (e.pending ++ data) with
  | true =>
    refine Or.inl ⟨rfl, ?_⟩
    simp only [if_true]
    unfold CheckpointEngine.close
    split <;> rfl
  | false =>
    rw [hg] at herr
    simp only [Bool.false_eq_true, if_false] at herr ⊢
    refine Or.inr ⟨trivial, ?_⟩
    split at herr
    · cases herr
    · rename_i hsmall
      rw [if_neg hsmall]
      split <;> exact ⟨hlegacy, hclosed, rfl, rfl⟩

theorem containsGraphics_mono {xs : Bytes} (h : containsGraphics xs = true) (ys : Bytes) :
    containsGraphics (xs ++ ys) = true :=
  containsGraphics_iff.mpr ((containsGraphics_iff.mp h).trans (List.prefix_append _ _).isInfix)

theorem FeedInv.write {out : Bytes} {f : CheckpointFeed} (h : FeedInv out f) (data : Bytes) (answers : ParserAnswers) :
    FeedInv (out ++ data) (f.call (.write data answers)) := by
  intro herr
  simp only [CheckpointFeed.call] at herr ⊢
  by_cases hh : f.engine.healthy = true
  · obtain ⟨hclosed, herr₀, hlegacy⟩ := healthy_iff.mp hh
    obtain ⟨hg, hopen⟩ := h herr₀
    obtain ⟨-, hout, hlen⟩ := hopen hlegacy
    rw [hlegacy] at hg
    -- what is held back is the output after the boundary
    have hpending : f.engine.pending = out.drop (terminalCheckpointBoundary out) := by
      rw [← hlen, ← hout, List.drop_left]
    have hsame := containsGraphics_append hg.symm data
    rw [← hpending] at hsame
    rcases write_cases hh herr with ⟨hgraphics, hnew⟩ | ⟨hgraphics, hnew, hopen', hpend, hover⟩
    · exact ⟨by rw [hnew, hsame, hgraphics], fun hf => by rw [hnew] at hf; cases hf⟩
    · refine ⟨by rw [hnew, hsame, hgraphics], fun _ => ⟨hopen', ?_, ?_⟩⟩
      · rw [hpend, hover, List.append_assoc, List.take_append_drop, ← List.append_assoc, hout]
      · have hall := terminalCheckpointBoundary_append out data
        rw [← hpending] at hall
        rw [hover, List.length_append, List.length_take, hlen, Nat.min_eq_left (terminalCheckpointBoundary_le _), hall]
  · -- a write to an engine that has stopped changes nothing
    have hstop : f.engine.write data answers = f.engine := by
      unfold CheckpointEngine.write
      rw [if_pos (by simpa using hh)]
    rw [hstop] at herr ⊢
    obtain ⟨hg, hopen⟩ := h herr
    have hlegacy : f.engine.legacyGraphics = true := by
      by_contra hno
      rw [Bool.not_eq_true] at hno
      exact hh (healthy_iff.mpr ⟨(hopen hno).1, herr, hno⟩)
    rw [hlegacy] at hg
    exact ⟨by rw [hlegacy, containsGraphics_mono hg.symm], fun hf => by rw [hlegacy] at hf; cases hf⟩

theorem resize_frame (e : CheckpointEngine) (cols rows lines : Int) (answers : ParserAnswers) :
    ((e.resize cols rows lines answers).err = none → e.err = none) ∧
      (e.resize cols rows lines answers).legacyGraphics = e.legacyGraphics ∧
        (e.resize cols rows lines answers).closed = e.closed ∧ (e.resize cols rows lines answers).pending = e.pending := by
  unfold CheckpointEngine.resize
  split
  · exact ⟨fun h => h, rfl, rfl, rfl⟩
  · rename_i hs
    have hh : e.healthy = true := by simpa using hs
    obtain ⟨-, herr, -⟩ := healthy_iff.mp hh
    refine ⟨fun _ => herr, ?_⟩
    simp only
    split <;> split
    · exact ⟨rfl, rfl, rfl⟩
    · split
      · exact ⟨rfl, rfl, rfl⟩
      · split <;> exact ⟨rfl, rfl, rfl⟩
    · exact ⟨rfl, rfl, rfl⟩
    · split
      · exact ⟨rfl, rfl, rfl⟩
      · split <;> exact ⟨rfl, rfl, rfl⟩

theorem FeedInv.call {out : Bytes} {f : CheckpointFeed} (h : FeedInv out f) (c : CheckpointCall) :
    FeedInv (out ++ c.bytes) (f.call c) := by
  cases c with
  | write data answers => exact h.write data answers
  | resize cols rows lines answers =>
    intro herr
    simp only [CheckpointFeed.call, CheckpointCall.bytes, List.append_nil] at herr ⊢
    obtain ⟨hkeep, hl, hc, hp⟩ := resize_frame f.engine cols rows lines answers
    rw [hl, hc, hp]
    exact h (hkeep herr)

theorem FeedInv.calls (calls : List CheckpointCall) : ∀ {out : Bytes} {f : CheckpointFeed}, FeedInv out f →
    FeedInv (out ++ outputOf calls) (calls.foldl CheckpointFeed.call f) := by
  induction calls with
  | nil =>
    intro out f h
    simpa [outputOf] using h
  | cons c calls ih =>
    intro out f h
    have hnext := ih (h.call c)
    rwa [List.append_assoc] at hnext

/-- However an output is cut into writes: as long as the engine has not failed, it knows whether there were
graphics, and before them what it handed over and holds back is the output, cut at its boundary. -/
theorem feed_exact {cols rows lines : Int} {calls : List CheckpointCall} (h : (feed cols rows lines calls).engine.err = none) :
    ((feed cols rows lines calls).engine.legacyGraphics = true ↔ [0x1b, 0x5f, 0x47] <:+: outputOf calls) ∧
      ((feed cols rows lines calls).engine.legacyGraphics = false →
        (feed cols rows lines calls).handed ++ (feed cols rows lines calls).engine.pending = outputOf calls ∧
          (feed cols rows lines calls).handed.length = terminalCheckpointBoundary (outputOf calls)) := by
  have hstart : FeedInv [] { engine := .new cols rows lines, handed := [] } := fun _ => ⟨rfl, fun _ => ⟨rfl, rfl, rfl⟩⟩
  obtain ⟨hg, hopen⟩ := FeedInv.calls calls hstart h
  rw [List.nil_append] at hg hopen
  refine ⟨?_, fun hl => (hopen hl).2⟩
  rw [← containsGraphics_iff, ← hg]
  rfl

/-- A rune and a CSI sequence, each cut in two. -/
theorem feed_exact_cut : (feed 80 24 1000 [.write [0x61, 0xc3] {}, .write [0xa9, 0x1b] {}, .write [0x5b, 0x6d, 0x62] {}]).handed =
      [0x61, 0xc3, 0xa9, 0x1b, 0x5b, 0x6d, 0x62] ∧
    ((feed 80 24 1000 [.write [0x61, 0xc3] {}, .write [0xa9, 0x1b] {}, .write [0x5b, 0x6d, 0x62] {}]).engine.legacyGraphics =
        true ↔ [0x1b, 0x5f, 0x47] <:+:
          outputOf [.write [0x61, 0xc3] {}, .write [0xa9, 0x1b] {}, .write [0x5b, 0x6d, 0x62] {}]) :=
  ⟨by decide, (feed_exact (by decide)).1⟩

end Webshell
