import Mathlib.Data.List.Nodup
import Mathlib.Data.List.Perm.Subperm
import Webshell.PaneQueries

/-!
# The echo of generated input

What the agent types into the PTY itself may come back as echo, as it is or
with its control bytes spelled `^X`. Each such echo is taken out of the output
once. A read may end inside an echo: its beginning is held until the next read.
-/

namespace Webshell

def ttyEchoControlBytes (data : Bytes) : Bytes :=
  data.flatMap fun b =>
    if b = 0x7f then [code '^', code '?'] else if b < 0x20 then [code '^', b + 0x40] else [b]

/-- Input to be taken out of the output when it comes back; there is some. -/
structure GeneratedEcho where
  raw : Bytes
  raw_ne : raw ≠ []
  deriving DecidableEq

def GeneratedEcho.quoted (e : GeneratedEcho) : Bytes := ttyEchoControlBytes e.raw

structure EchoFilter where
  generatedEchoPending : List GeneratedEcho
  generatedEchoOutputPending : Bytes
  deriving DecidableEq

def EchoFilter.addGeneratedEchoFilter (f : EchoFilter) (data : Bytes) : EchoFilter :=
  if h : data = [] then f else { f with generatedEchoPending := f.generatedEchoPending ++ [⟨data, h⟩] }

def maxPendingGeneratedEchoOutput : Nat := 128

/-- The length of the first pending echo that the buffer starts with, and the others. -/
def matchFront (buffer : Bytes) : List GeneratedEcho → Option (Nat × List GeneratedEcho)
  | [] => none
  | e :: pending =>
    if e.raw <+: buffer then some (e.raw.length, pending)
    else if e.quoted <+: buffer then some (e.quoted.length, pending)
    else (matchFront buffer pending).map fun r => (r.1, e :: r.2)

def maxKeep (buffer : Bytes) (pending : List GeneratedEcho) : Nat :=
  pending.foldl (fun keep e => min keep (max (e.raw.length - 1) (e.quoted.length - 1)))
    (min buffer.length maxPendingGeneratedEchoOutput)

/-- The text is the beginning of an echo. -/
def beginsEcho (suffix : Bytes) (pending : List GeneratedEcho) : Bool :=
  pending.any fun e =>
    decide (suffix.length < e.raw.length ∧ suffix = e.raw.take suffix.length) ||
      decide (suffix.length < e.quoted.length ∧ suffix = e.quoted.take suffix.length)

def longestKeep (buffer : Bytes) (pending : List GeneratedEcho) : Nat → Nat
  | 0 => 0
  | keep + 1 =>
    if beginsEcho (buffer.drop (buffer.length - (keep + 1))) pending then keep + 1
    else longestKeep buffer pending keep

def generatedEchoPrefixMatchLen (buffer : Bytes) (pending : List GeneratedEcho) : Nat :=
  longestKeep buffer pending (maxKeep buffer pending)

structure EchoResult where
  output : Bytes
  pending : List GeneratedEcho
  held : Bytes
  deriving DecidableEq

def EchoResult.prepend (r : EchoResult) (output : Bytes) : EchoResult := { r with output := output ++ r.output }

/-- The loop of `filterGeneratedInputEcho`. -/
def echoScan : Nat → List GeneratedEcho → Bytes → EchoResult
  | 0, pending, _ => ⟨[], pending, []⟩
  | _ + 1, pending, [] => ⟨[], pending, []⟩
  | fuel + 1, pending, b :: buffer =>
    match matchFront (b :: buffer) pending with
    | some (n, pending) => echoScan fuel pending ((b :: buffer).drop n)
    | none =>
      let keep := generatedEchoPrefixMatchLen (b :: buffer) pending
      if 0 < keep then
        let emit := (b :: buffer).length - keep
        ⟨(b :: buffer).take emit, pending, (b :: buffer).drop emit⟩
      else (echoScan fuel pending buffer).prepend [b]

def EchoFilter.filterGeneratedInputEcho (f : EchoFilter) (data : Bytes) : EchoFilter × Bytes :=
  if data = [] then (f, [])
  else
    let buffer := f.generatedEchoOutputPending ++ data
    if f.generatedEchoPending = [] then (⟨[], []⟩, buffer)
    else
      let r := echoScan buffer.length f.generatedEchoPending buffer
      (⟨r.pending, r.held⟩, r.output)

/-- Feeding `a` and then `b` shows, keeps and holds what feeding both at once does. -/
def EchoFilter.CutAgrees (f : EchoFilter) (a b : Bytes) : Prop :=
  let first := f.filterGeneratedInputEcho a
  let second := first.1.filterGeneratedInputEcho b
  let whole := f.filterGeneratedInputEcho (a ++ b)
  whole.2 = first.2 ++ second.2 ∧ whole.1 = second.1

/-! ## Spellings -/

/-- A byte that a TTY echoes as it is. -/
def Verbatim (b : UInt8) : Prop := b ≠ 0x7f ∧ ¬b < 0x20

theorem ttyEcho_same {data : Bytes} (h : ∀ b ∈ data, Verbatim b) : ttyEchoControlBytes data = data := by
  induction data with
  | nil => rfl
  | cons b data ih =>
    have hb := h b (List.mem_cons_self ..)
    have ih := ih fun x hx => h x (List.mem_cons_of_mem _ hx)
    unfold ttyEchoControlBytes at ih ⊢
    rw [List.flatMap_cons, ih, if_neg hb.1, if_neg hb.2]
    rfl

theorem ttyEcho_verbatim (data : Bytes) : ∀ b ∈ ttyEchoControlBytes data, Verbatim b := by
  have hcontrol : ∀ b : UInt8, b < 0x20 → Verbatim (b + 0x40) := by
    intro b hb
    have hn : b.toNat < 32 := hb
    refine ⟨fun he => ?_, fun hl => ?_⟩
    · have := congrArg UInt8.toNat he
      rw [UInt8.toNat_add] at this
      simp at this
      omega
    · have hl : (b + 0x40).toNat < 32 := hl
      rw [UInt8.toNat_add] at hl
      simp at hl
      omega
  intro b hb
  obtain ⟨x, -, hx⟩ := List.mem_flatMap.mp hb
  split at hx
  · rcases List.mem_cons.mp hx with rfl | hx
    · unfold Verbatim; decide
    · rw [List.mem_singleton.mp hx]; unfold Verbatim; decide
  · split at hx
    · rename_i hc
      rcases List.mem_cons.mp hx with rfl | hx
      · unfold Verbatim; decide
      · rw [List.mem_singleton.mp hx]; exact hcontrol x hc
    · rename_i hd hc
      rw [List.mem_singleton.mp hx]
      exact ⟨hd, hc⟩

theorem ttyEcho_length (data : Bytes) : data.length ≤ (ttyEchoControlBytes data).length := by
  induction data with
  | nil => exact Nat.le_refl _
  | cons b data ih =>
    unfold ttyEchoControlBytes at ih ⊢
    rw [List.flatMap_cons, List.length_append, List.length_cons]
    have : 1 ≤ (if b = 0x7f then [code '^', code '?'] else if b < 0x20 then [code '^', b + 0x40] else [b]).length := by
      split
      · decide
      · split <;> simp
    omega

namespace GeneratedEcho

variable (e : GeneratedEcho)

theorem raw_le : e.raw.length ≤ e.quoted.length := ttyEcho_length e.raw

theorem raw_pos : 0 < e.raw.length := List.length_pos_iff.mpr e.raw_ne

theorem quoted_pos : 0 < e.quoted.length := Nat.lt_of_lt_of_le e.raw_pos e.raw_le

variable {e}

/-- Input of which each byte is in the quoted spelling is spelled as it is. -/
theorem quoted_eq (h : ∀ b ∈ e.raw, b ∈ e.quoted) : e.quoted = e.raw :=
  ttyEcho_same fun b hb => ttyEcho_verbatim e.raw b (h b hb)

/-- Neither spelling is in a piece of the quoted one that is shorter than it. -/
theorem not_in_piece {piece : Bytes} (hp : piece <:+: e.quoted) (hl : piece.length < e.quoted.length) :
    ¬e.raw <:+: piece ∧ ¬e.quoted <:+: piece := by
  constructor
  · intro hr
    have he := e.quoted_eq fun b hb => hp.subset (hr.subset hb)
    have := hr.length_le
    rw [he] at hl
    omega
  · intro hq
    have := hq.length_le
    omega

end GeneratedEcho

/-! ## One turn of the loop -/

theorem matchFront_some {buffer : Bytes} : ∀ {pending : List GeneratedEcho} {n : Nat} {rest : List GeneratedEcho},
    matchFront buffer pending = some (n, rest) → ∃ front e back, pending = front ++ e :: back ∧ rest = front ++ back ∧
      (e.raw <+: buffer ∧ n = e.raw.length ∨ e.quoted <+: buffer ∧ n = e.quoted.length)
  | [], _, _, h => by cases h
  | e :: pending, n, rest, h => by
    rw [matchFront] at h
    split at h
    · rename_i hr
      cases h
      exact ⟨[], e, pending, rfl, rfl, .inl ⟨hr, rfl⟩⟩
    · split at h
      · rename_i hq
        cases h
        exact ⟨[], e, pending, rfl, rfl, .inr ⟨hq, rfl⟩⟩
      · obtain ⟨⟨m, others⟩, hm, he⟩ := Option.map_eq_some_iff.mp h
        cases he
        obtain ⟨front, e', back, rfl, rfl, hor⟩ := matchFront_some hm
        exact ⟨e :: front, e', back, rfl, rfl, hor⟩

theorem matchFront_bounds {buffer : Bytes} {pending rest : List GeneratedEcho} {n : Nat}
    (h : matchFront buffer pending = some (n, rest)) : 0 < n ∧ n ≤ buffer.length := by
  obtain ⟨front, e, back, -, -, hor⟩ := matchFront_some h
  rcases hor with ⟨hp, rfl⟩ | ⟨hp, rfl⟩
  · exact ⟨e.raw_pos, hp.length_le⟩
  · exact ⟨e.quoted_pos, hp.length_le⟩

theorem matchFront_none {buffer : Bytes} : ∀ {pending : List GeneratedEcho},
    (∀ e ∈ pending, ¬e.raw <+: buffer ∧ ¬e.quoted <+: buffer) → matchFront buffer pending = none
  | [], _ => rfl
  | e :: pending, h => by
    obtain ⟨hr, hq⟩ := h e (List.mem_cons_self ..)
    rw [matchFront, if_neg hr, if_neg hq, matchFront_none fun x hx => h x (List.mem_cons_of_mem _ hx)]
    rfl

/-- The first pending echo comes first. -/
theorem matchFront_head (e : GeneratedEcho) (pending : List GeneratedEcho) {buffer : Bytes} :
    matchFront (e.raw ++ buffer) (e :: pending) = some (e.raw.length, pending) := by
  rw [matchFront, if_pos (List.prefix_append ..)]

theorem echoScan_enough : ∀ {fuel : Nat} {pending : List GeneratedEcho} {buffer : Bytes}, buffer.length ≤ fuel →
    echoScan fuel pending buffer = echoScan buffer.length pending buffer
  | 0, _, [], _ => rfl
  | _ + 1, _, [], _ => rfl
  | fuel + 1, pending, b :: buffer, hl => by
    have hle : buffer.length ≤ fuel := Nat.le_of_succ_le_succ hl
    rw [List.length_cons, echoScan, echoScan]
    cases hm : matchFront (b :: buffer) pending with
    | none =>
      simp only
      split
      · rfl
      · rw [echoScan_enough hle]
    | some r =>
      obtain ⟨n, rest⟩ := r
      obtain ⟨hpos, -⟩ := matchFront_bounds hm
      have hdrop : ((b :: buffer).drop n).length ≤ buffer.length := by
        rw [List.length_drop, List.length_cons]; omega
      simp only
      rw [echoScan_enough (Nat.le_trans hdrop hle), echoScan_enough hdrop]
termination_by fuel => fuel
decreasing_by all_goals first | exact Nat.lt_succ_self _ | exact hl

def echoRun (pending : List GeneratedEcho) (buffer : Bytes) : EchoResult := echoScan buffer.length pending buffer

section

variable {pending rest : List GeneratedEcho} {buffer : Bytes} {b : UInt8} {n : Nat}

@[simp] theorem echoRun_nil : echoRun pending [] = ⟨[], pending, []⟩ := rfl

theorem echoRun_match (h : matchFront buffer pending = some (n, rest)) :
    echoRun pending buffer = echoRun rest (buffer.drop n) := by
  obtain ⟨hpos, hle⟩ := matchFront_bounds h
  cases buffer with
  | nil => rw [List.length_nil] at hle; omega
  | cons b buffer =>
    have hdrop : ((b :: buffer).drop n).length ≤ buffer.length := by
      rw [List.length_drop, List.length_cons]; omega
    unfold echoRun
    rw [List.length_cons, echoScan, h]
    simp only
    rw [echoScan_enough hdrop]

theorem echoRun_hold (hm : matchFront (b :: buffer) pending = none)
    (hk : 0 < generatedEchoPrefixMatchLen (b :: buffer) pending) :
    echoRun pending (b :: buffer) =
      ⟨(b :: buffer).take ((b :: buffer).length - generatedEchoPrefixMatchLen (b :: buffer) pending), pending,
        (b :: buffer).drop ((b :: buffer).length - generatedEchoPrefixMatchLen (b :: buffer) pending)⟩ := by
  unfold echoRun
  rw [List.length_cons, echoScan, hm]
  simp only
  rw [if_pos hk]
  rfl

theorem echoRun_emit (hm : matchFront (b :: buffer) pending = none)
    (hk : generatedEchoPrefixMatchLen (b :: buffer) pending = 0) :
    echoRun pending (b :: buffer) = (echoRun pending buffer).prepend [b] := by
  unfold echoRun
  rw [List.length_cons, echoScan, hm]
  simp only
  rw [if_neg (by omega)]

end

/-- Induction along the loop. -/
theorem echo_induction {motive : List GeneratedEcho → Bytes → Prop} (nil : ∀ pending, motive pending [])
    (found : ∀ pending rest buffer n, matchFront buffer pending = some (n, rest) → motive rest (buffer.drop n) →
      motive pending buffer)
    (hold : ∀ pending b buffer, matchFront (b :: buffer) pending = none →
      0 < generatedEchoPrefixMatchLen (b :: buffer) pending → motive pending (b :: buffer))
    (emit : ∀ pending b buffer, matchFront (b :: buffer) pending = none →
      generatedEchoPrefixMatchLen (b :: buffer) pending = 0 → motive pending buffer → motive pending (b :: buffer)) :
    ∀ (pending : List GeneratedEcho) (buffer : Bytes), motive pending buffer
  | pending, [] => nil pending
  | pending, b :: buffer => by
    cases hm : matchFront (b :: buffer) pending with
    | some r =>
      have hlt : ((b :: buffer).drop r.1).length < (b :: buffer).length := by
        have hb := matchFront_bounds hm
        rw [List.length_drop]; omega
      exact found pending r.2 _ r.1 hm (echo_induction nil found hold emit r.2 _)
    | none =>
      by_cases hk : 0 < generatedEchoPrefixMatchLen (b :: buffer) pending
      · exact hold pending b buffer hm hk
      · exact emit pending b buffer hm (by omega) (echo_induction nil found hold emit pending buffer)
termination_by _ buffer => buffer.length
decreasing_by all_goals first | exact hlt | exact Nat.lt_succ_self _

/-! ## What is held -/

theorem foldl_min_le (g : GeneratedEcho → Nat) : ∀ (pending : List GeneratedEcho) (k : Nat),
    pending.foldl (fun keep e => min keep (g e)) k ≤ k ∧
      ∀ e ∈ pending, pending.foldl (fun keep e => min keep (g e)) k ≤ g e
  | [], k => ⟨Nat.le_refl _, fun e he => by cases he⟩
  | x :: pending, k => by
    obtain ⟨hk, hall⟩ := foldl_min_le g pending (min k (g x))
    rw [List.foldl_cons]
    refine ⟨by omega, fun e he => ?_⟩
    rcases List.mem_cons.mp he with rfl | he
    · omega
    · exact hall e he

theorem maxKeep_le {buffer : Bytes} {pending : List GeneratedEcho} :
    maxKeep buffer pending ≤ buffer.length ∧ maxKeep buffer pending ≤ maxPendingGeneratedEchoOutput ∧
      ∀ e ∈ pending, maxKeep buffer pending < e.quoted.length := by
  obtain ⟨hk, hall⟩ := foldl_min_le (fun e => max (e.raw.length - 1) (e.quoted.length - 1)) pending
    (min buffer.length maxPendingGeneratedEchoOutput)
  unfold maxKeep
  refine ⟨by omega, by omega, fun e he => ?_⟩
  have := hall e he
  have := e.raw_le
  have := e.quoted_pos
  omega

theorem longestKeep_spec (buffer : Bytes) (pending : List GeneratedEcho) : ∀ (limit : Nat),
    longestKeep buffer pending limit ≤ limit ∧ (0 < longestKeep buffer pending limit →
      beginsEcho (buffer.drop (buffer.length - longestKeep buffer pending limit)) pending = true)
  | 0 => ⟨Nat.le_refl _, fun h => absurd h (Nat.lt_irrefl _)⟩
  | limit + 1 => by
    rw [longestKeep]
    split
    · rename_i hb; exact ⟨Nat.le_refl _, fun _ => hb⟩
    · obtain ⟨hle, hb⟩ := longestKeep_spec buffer pending limit
      exact ⟨by omega, hb⟩

theorem longestKeep_pos {buffer : Bytes} {pending : List GeneratedEcho} {k : Nat} (hk : 0 < k)
    (hb : beginsEcho (buffer.drop (buffer.length - k)) pending = true) : ∀ {limit : Nat}, k ≤ limit →
      0 < longestKeep buffer pending limit
  | 0, hl => by omega
  | limit + 1, hl => by
    rw [longestKeep]
    split
    · exact Nat.succ_pos _
    · rename_i hn
      rcases Nat.lt_or_ge limit k with hlt | hge
      · have hkl : k = limit + 1 := by omega
        rw [hkl] at hb
        exact absurd hb hn
      · exact longestKeep_pos hk hb hge

theorem beginsEcho_single {suffix : Bytes} {e : GeneratedEcho} (h : beginsEcho suffix [e] = true) :
    suffix.length < e.raw.length ∧ suffix <+: e.raw ∨ suffix.length < e.quoted.length ∧ suffix <+: e.quoted := by
  unfold beginsEcho at h
  simp only [List.any_cons, List.any_nil, Bool.or_false, Bool.or_eq_true, decide_eq_true_eq] at h
  rcases h with ⟨hl, hs⟩ | ⟨hl, hs⟩
  · exact .inl ⟨hl, by rw [hs]; exact List.take_prefix ..⟩
  · exact .inr ⟨hl, by rw [hs]; exact List.take_prefix ..⟩

/-- With an echo of one byte pending nothing is held. -/
theorem keep_zero {buffer : Bytes} {pending : List GeneratedEcho} {e : GeneratedEcho} (he : e ∈ pending)
    (hl : e.quoted.length ≤ 1) : generatedEchoPrefixMatchLen buffer pending = 0 := by
  have hle : maxKeep buffer pending < e.quoted.length := maxKeep_le.2.2 e he
  have := (longestKeep_spec buffer pending (maxKeep buffer pending)).1
  unfold generatedEchoPrefixMatchLen
  omega

theorem keep_nil (buffer : Bytes) : generatedEchoPrefixMatchLen buffer [] = 0 := by
  by_contra h
  have hb := (longestKeep_spec buffer [] (maxKeep buffer [])).2 (Nat.pos_of_ne_zero h)
  cases hb

theorem echoRun_none (buffer : Bytes) : echoRun [] buffer = ⟨buffer, [], []⟩ := by
  induction buffer with
  | nil => rfl
  | cons b buffer ih =>
    rw [echoRun_emit rfl (keep_nil _), ih]
    rfl

/-- An echo of which neither spelling is in the buffer is still pending behind it. -/
theorem echo_stays {e : GeneratedEcho} {pending : List GeneratedEcho} {buffer : Bytes} (he : e ∈ pending)
    (hr : ¬e.raw <:+: buffer) (hq : ¬e.quoted <:+: buffer) : e ∈ (echoRun pending buffer).pending := by
  induction pending, buffer using echo_induction with
  | nil pending => exact he
  | found pending rest buffer n hm ih =>
    have hsuf : buffer.drop n <:+: buffer := (List.drop_suffix ..).isInfix
    rw [echoRun_match hm]
    obtain ⟨front, e', back, rfl, rfl, hor⟩ := matchFront_some hm
    have hne : e ≠ e' := by
      rintro rfl
      rcases hor with ⟨hp, -⟩ | ⟨hp, -⟩
      · exact hr hp.isInfix
      · exact hq hp.isInfix
    refine ih ?_ (fun h => hr (h.trans hsuf)) fun h => hq (h.trans hsuf)
    rcases List.mem_append.mp he with h | h
    · exact List.mem_append_left _ h
    · exact List.mem_append_right _ ((List.mem_cons.mp h).resolve_left hne)
  | hold pending b buffer hm hk => rw [echoRun_hold hm hk]; exact he
  | emit pending b buffer hm hk ih =>
    have hsuf : buffer <:+: b :: buffer := (List.suffix_cons ..).isInfix
    rw [echoRun_emit hm hk]
    exact ih he (fun h => hr (h.trans hsuf)) fun h => hq (h.trans hsuf)

/-- Pending echoes that come one after the other are taken out one after the other. -/
theorem echoRun_raws (pending : List GeneratedEcho) (buffer : Bytes) : ∀ (front : List GeneratedEcho),
    echoRun (front ++ pending) (front.flatMap GeneratedEcho.raw ++ buffer) = echoRun pending buffer
  | [] => rfl
  | e :: front => by
    rw [List.flatMap_cons, List.append_assoc, List.cons_append, echoRun_match (matchFront_head e _), List.drop_left]
    exact echoRun_raws pending buffer front

/-! ## Echoes of one byte -/

def Single (pending : List GeneratedEcho) : Prop := ∀ e ∈ pending, e.quoted.length ≤ 1

theorem matchFront_single {b : UInt8} {buffer : Bytes} : ∀ {pending : List GeneratedEcho}, Single pending →
    matchFront (b :: buffer) pending = matchFront [b] pending
  | [], _ => rfl
  | e :: pending, h => by
    have he := h e (List.mem_cons_self ..)
    have hone : ∀ x : Bytes, x ≠ [] → x.length ≤ 1 → (x <+: b :: buffer ↔ x <+: [b]) := by
      intro x hx hl
      match x with
      | [] => exact absurd rfl hx
      | [y] => simp
      | _ :: _ :: _ => simp only [List.length_cons] at hl; omega
    have hr := hone e.raw e.raw_ne (Nat.le_trans e.raw_le he)
    have hq := hone e.quoted (List.length_pos_iff.mp e.quoted_pos) he
    rw [matchFront, matchFront, matchFront_single fun x hx => h x (List.mem_cons_of_mem _ hx)]
    simp only [hr, hq]

theorem single_keep {buffer : Bytes} {pending : List GeneratedEcho} (h : Single pending) :
    generatedEchoPrefixMatchLen buffer pending = 0 := by
  cases pending with
  | nil => exact keep_nil buffer
  | cons e pending => exact keep_zero (List.mem_cons_self ..) (h e (List.mem_cons_self ..))

/-- Byte for byte: nothing is held, and a cut does not show. -/
theorem echoRun_single {pending : List GeneratedEcho} (h : Single pending) (buffer more : Bytes) :
    (echoRun pending buffer).held = [] ∧ echoRun pending (buffer ++ more) =
      (echoRun (echoRun pending buffer).pending more).prepend (echoRun pending buffer).output := by
  induction pending, buffer using echo_induction with
  | nil pending => exact ⟨rfl, rfl⟩
  | found pending rest buffer n hm ih =>
    obtain ⟨hpos, hle⟩ := matchFront_bounds hm
    have hm' : matchFront (buffer ++ more) pending = some (n, rest) := by
      cases buffer with
      | nil => rw [List.length_nil] at hle; omega
      | cons b buffer =>
        rw [List.cons_append]
        rw [matchFront_single h] at hm ⊢
        exact hm
    have hrest : Single rest := by
      obtain ⟨front, e, back, rfl, rfl, -⟩ := matchFront_some hm
      intro x hx
      refine h x ?_
      rcases List.mem_append.mp hx with hx | hx
      · exact List.mem_append_left _ hx
      · exact List.mem_append_right _ (List.mem_cons_of_mem _ hx)
    obtain ⟨hh, ih⟩ := ih hrest
    rw [echoRun_match hm, echoRun_match hm', List.drop_append_of_le_length hle, ih]
    exact ⟨hh, rfl⟩
  | hold pending b buffer hm hk => rw [single_keep h] at hk; omega
  | emit pending b buffer hm hk ih =>
    have hm' : matchFront (b :: (buffer ++ more)) pending = none := by
      rw [matchFront_single h] at hm ⊢
      exact hm
    obtain ⟨hh, ih⟩ := ih h
    rw [List.cons_append, echoRun_emit hm hk, echoRun_emit hm' (single_keep h), ih]
    exact ⟨hh, rfl⟩

/-! ## Cuts that show -/

/-- The echo is found where it stands in its quoted spelling. -/
theorem matchFront_quoted (e : GeneratedEcho) (pending : List GeneratedEcho) (more : Bytes) :
    matchFront (e.quoted ++ more) (e :: pending) = some (e.quoted.length, pending) := by
  rw [matchFront]
  by_cases hr : e.raw <+: e.quoted ++ more
  · have hpre : e.raw <+: e.quoted := List.prefix_of_prefix_length_le hr (List.prefix_append ..) e.raw_le
    rw [if_pos hr, e.quoted_eq fun b hb => hpre.subset hb]
  · rw [if_neg hr, if_pos (List.prefix_append ..)]

theorem filter_eq (f : EchoFilter) {data : Bytes} (h : data ≠ []) : f.filterGeneratedInputEcho data =
    (⟨(echoRun f.generatedEchoPending (f.generatedEchoOutputPending ++ data)).pending,
      (echoRun f.generatedEchoPending (f.generatedEchoOutputPending ++ data)).held⟩,
        (echoRun f.generatedEchoPending (f.generatedEchoOutputPending ++ data)).output) := by
  unfold EchoFilter.filterGeneratedInputEcho
  rw [if_neg h]
  simp only
  by_cases hp : f.generatedEchoPending = []
  · rw [if_pos hp, hp, echoRun_none]
  · rw [if_neg hp]
    rfl

theorem cutAgrees_iff_run (f : EchoFilter) {a b : Bytes} (ha : a ≠ []) (hb : b ≠ []) :
    f.CutAgrees a b ↔ echoRun f.generatedEchoPending (f.generatedEchoOutputPending ++ a ++ b) =
      (echoRun (echoRun f.generatedEchoPending (f.generatedEchoOutputPending ++ a)).pending
        ((echoRun f.generatedEchoPending (f.generatedEchoOutputPending ++ a)).held ++ b)).prepend
          (echoRun f.generatedEchoPending (f.generatedEchoOutputPending ++ a)).output := by
  have hab : a ++ b ≠ [] := by simp [ha]
  unfold EchoFilter.CutAgrees
  simp only [filter_eq f ha, filter_eq f hab, filter_eq _ hb, ← List.append_assoc]
  generalize echoRun f.generatedEchoPending (f.generatedEchoOutputPending ++ a ++ b) = whole
  generalize echoRun f.generatedEchoPending (f.generatedEchoOutputPending ++ a) = first
  constructor
  · rintro ⟨ho, hs⟩
    cases whole
    simp only [EchoFilter.mk.injEq] at ho hs
    simp only [EchoResult.prepend, EchoResult.mk.injEq]
    exact ⟨ho, hs⟩
  · intro h
    rw [h]
    exact ⟨rfl, rfl⟩

theorem cutAgrees_end (f : EchoFilter) (a : Bytes) : f.CutAgrees a [] := by
  unfold EchoFilter.CutAgrees
  rw [List.append_nil]
  exact ⟨(List.append_nil _).symm, rfl⟩

theorem single_agrees {f : EchoFilter} (h : Single f.generatedEchoPending) (a b : Bytes) : f.CutAgrees a b := by
  by_cases ha : a = []
  · subst ha
    exact ⟨rfl, rfl⟩
  · by_cases hb : b = []
    · subst hb; exact cutAgrees_end f a
    · obtain ⟨hh, hr⟩ := echoRun_single h (f.generatedEchoOutputPending ++ a) b
      rw [cutAgrees_iff_run f ha hb, hr, hh]
      rfl

/-- The bytes that are echoed as they are, by number. -/
def verbatimByte (n : Nat) : UInt8 := UInt8.ofNat (if n < 95 then n + 32 else n + 33)

theorem verbatimByte_toNat {n : Nat} (h : n < 223) : (verbatimByte n).toNat = if n < 95 then n + 32 else n + 33 := by
  unfold verbatimByte
  rw [UInt8.toNat_ofNat']
  split <;> omega

theorem verbatimByte_verbatim {n : Nat} (h : n < 223) : Verbatim (verbatimByte n) := by
  have hn := verbatimByte_toNat h
  refine ⟨fun he => ?_, fun hl => ?_⟩
  · have := congrArg UInt8.toNat he
    rw [hn] at this
    have : (if n < 95 then n + 32 else n + 33) = 127 := this
    split at this <;> omega
  · have hl : (verbatimByte n).toNat < 32 := hl
    rw [hn] at hl
    split at hl <;> omega

/-- There is such a byte that is not in a short text. -/
theorem exists_fresh {x : Bytes} (h : x.length < 223) : ∃ z, Verbatim z ∧ z ∉ x := by
  have hnodup : ((List.range 223).map verbatimByte).Nodup := by
    refine List.Nodup.map_on (fun a ha b hb hab => ?_) List.nodup_range
    have := congrArg UInt8.toNat hab
    rw [verbatimByte_toNat (List.mem_range.mp ha), verbatimByte_toNat (List.mem_range.mp hb)] at this
    split at this <;> split at this <;> omega
  by_contra hno
  have hsub : (List.range 223).map verbatimByte ⊆ x := by
    intro z hz
    obtain ⟨n, hn, rfl⟩ := List.mem_map.mp hz
    by_contra hx
    exact hno ⟨_, verbatimByte_verbatim (List.mem_range.mp hn), hx⟩
  have hle := (hnodup.subperm hsub).length_le
  rw [List.length_map, List.length_range] at hle
  omega

/-- A byte of the input that is echoed as it is is in the quoted spelling. -/
theorem mem_quoted {e : GeneratedEcho} {z : UInt8} (hv : Verbatim z) (hz : z ∈ e.raw) : z ∈ e.quoted := by
  refine List.mem_flatMap.mpr ⟨z, hz, ?_⟩
  rw [if_neg hv.1, if_neg hv.2]
  exact List.mem_singleton_self z

theorem pending_subset (pending : List GeneratedEcho) (buffer : Bytes) : (echoRun pending buffer).pending ⊆ pending := by
  induction pending, buffer using echo_induction with
  | nil pending => exact List.Subset.refl _
  | found pending rest buffer n hm ih =>
    rw [echoRun_match hm]
    obtain ⟨front, e, back, rfl, rfl, -⟩ := matchFront_some hm
    intro x hx
    rcases List.mem_append.mp (ih hx) with hx | hx
    · exact List.mem_append_left _ hx
    · exact List.mem_append_right _ (List.mem_cons_of_mem _ hx)
  | hold pending b buffer hm hk => rw [echoRun_hold hm hk]; exact List.Subset.refl _
  | emit pending b buffer hm hk ih => rw [echoRun_emit hm hk]; exact ih

/-- Two pieces scanned one after the other come to the same as both at once. -/
def RunAgrees (pending : List GeneratedEcho) (a b : Bytes) : Prop :=
  echoRun pending (a ++ b) = (echoRun (echoRun pending a).pending ((echoRun pending a).held ++ b)).prepend
    (echoRun pending a).output

section

variable {e : GeneratedEcho}

/-- With an echo of one byte pending, a longer one is lost in two pieces. -/
theorem shows_beside_single {others : List GeneratedEcho} (ho : Single others) (hne : others ≠ [])
    (he : 1 < e.quoted.length) : ∃ a b, a ≠ [] ∧ b ≠ [] ∧ ¬RunAgrees (e :: others) a b := by
  obtain ⟨q₀, q, hq⟩ := List.exists_cons_of_ne_nil (List.length_pos_iff.mp e.quoted_pos)
  have hq' : q ≠ [] := by
    rintro rfl
    rw [hq] at he
    exact absurd he (by simp)
  obtain ⟨s, hs⟩ := List.exists_mem_of_ne_nil others hne
  refine ⟨[q₀], q, List.cons_ne_nil _ _, hq', fun h => ?_⟩
  have hwhole : e ∉ (echoRun (e :: others) ([q₀] ++ q)).pending := by
    have hm := matchFront_quoted e others []
    rw [List.append_nil, hq] at hm
    rw [List.singleton_append, echoRun_match hm]
    intro hmem
    have := ho e (pending_subset _ _ hmem)
    omega
  have hpiece : ∀ piece : Bytes, piece <:+: e.quoted → piece.length < e.quoted.length →
      ∀ {pending : List GeneratedEcho}, e ∈ pending → e ∈ (echoRun pending piece).pending := by
    intro piece hp hl pending hmem
    obtain ⟨hr, hqi⟩ := GeneratedEcho.not_in_piece hp hl
    exact echo_stays hmem hr hqi
  have hfirst : e ∈ (echoRun (e :: others) [q₀]).pending := by
    refine hpiece [q₀] ?_ he (List.mem_cons_self ..)
    rw [hq]
    exact (List.prefix_append [q₀] q).isInfix
  have hheld : (echoRun (e :: others) [q₀]).held = [] := by
    cases hm : matchFront [q₀] (e :: others) with
    | some r =>
      obtain ⟨n, rest⟩ := r
      rw [echoRun_match hm, List.drop_of_length_le (matchFront_bounds hm).1]
      rfl
    | none =>
      rw [echoRun_emit hm (keep_zero (List.mem_cons_of_mem _ hs) (ho s hs))]
      rfl
  refine hwhole ?_
  unfold RunAgrees at h
  rw [h, hheld]
  refine hpiece q ?_ (by rw [hq]; simp) hfirst
  rw [hq]
  exact (List.suffix_cons q₀ q).isInfix

/-- A longer one than may be held is shown in two pieces. -/
theorem shows_beyond_limit (he : maxPendingGeneratedEchoOutput + 1 < e.quoted.length) :
    ∃ a b, a ≠ [] ∧ b ≠ [] ∧ ¬RunAgrees [e] a b := by
  have hne : e.quoted ≠ [] := List.length_pos_iff.mp e.quoted_pos
  obtain ⟨b₀, front, hfront⟩ : ∃ b₀ front, e.quoted.dropLast = b₀ :: front := by
    refine List.exists_cons_of_ne_nil (List.length_pos_iff.mp ?_)
    rw [List.length_dropLast]; omega
  refine ⟨e.quoted.dropLast, [e.quoted.getLast hne], by rw [hfront]; simp, List.cons_ne_nil _ _, fun h => ?_⟩
  have hwhole : (echoRun [e] (e.quoted.dropLast ++ [e.quoted.getLast hne])).output = [] := by
    have hm := matchFront_quoted e [] []
    rw [List.append_nil] at hm
    rw [List.dropLast_append_getLast hne, echoRun_match hm, List.drop_length]
    rfl
  have hlen : e.quoted.dropLast.length = e.quoted.length - 1 := List.length_dropLast
  have hfirst : (echoRun [e] e.quoted.dropLast).output ≠ [] := by
    have hm : matchFront e.quoted.dropLast [e] = none := by
      refine matchFront_none fun x hx => ?_
      obtain ⟨hr, hq⟩ := GeneratedEcho.not_in_piece (e.quoted.dropLast_prefix).isInfix (by omega)
      rw [List.mem_singleton.mp hx]
      exact ⟨fun h => hr h.isInfix, fun h => hq h.isInfix⟩
    rw [hfront] at hm hlen ⊢
    by_cases hk : 0 < generatedEchoPrefixMatchLen (b₀ :: front) [e]
    · have hle : generatedEchoPrefixMatchLen (b₀ :: front) [e] ≤ maxPendingGeneratedEchoOutput :=
        Nat.le_trans (longestKeep_spec ..).1 maxKeep_le.2.1
      rw [echoRun_hold hm hk]
      intro hnil
      have := congrArg List.length hnil
      rw [List.length_take, List.length_nil] at this
      omega
    · rw [echoRun_emit hm (by omega)]
      exact List.cons_ne_nil _ _
  unfold RunAgrees at h
  rw [h] at hwhole
  exact hfirst (List.append_eq_nil_iff.mp hwhole).1

/-- An echo behind text is not seen as long as the read ends with the beginning of one. -/
theorem shows_behind_text {z : UInt8} (he : 1 < e.quoted.length) (hr : z ∉ e.raw) (hq : z ∉ e.quoted) :
    ∃ a b, a ≠ [] ∧ b ≠ [] ∧ ¬RunAgrees [e] a b := by
  obtain ⟨q₀, q, hcons⟩ := List.exists_cons_of_ne_nil (List.length_pos_iff.mp e.quoted_pos)
  refine ⟨z :: (e.quoted ++ [q₀]), [z], List.cons_ne_nil _ _, List.cons_ne_nil _ _, fun h => ?_⟩
  have hfront : ∀ buffer, matchFront (z :: buffer) [e] = none := by
    refine fun buffer => matchFront_none fun x hx => ?_
    rw [List.mem_singleton.mp hx]
    have hno : ∀ y : Bytes, y ≠ [] → z ∉ y → ¬y <+: z :: buffer := by
      intro y hy hz hp
      obtain ⟨y₀, ys, rfl⟩ := List.exists_cons_of_ne_nil hy
      exact hz (by rw [(List.cons_prefix_cons.mp hp).1]; exact List.mem_cons_self ..)
    exact ⟨hno _ e.raw_ne hr, hno _ (List.length_pos_iff.mp e.quoted_pos) hq⟩
  have hwhole : (echoRun [e] (z :: (e.quoted ++ [q₀]) ++ [z])).pending = [] := by
    have hkeep : generatedEchoPrefixMatchLen (z :: (e.quoted ++ [q₀]) ++ [z]) [e] = 0 := by
      by_contra hk
      obtain ⟨-, hbegin⟩ := longestKeep_spec (z :: (e.quoted ++ [q₀]) ++ [z]) [e]
        (maxKeep (z :: (e.quoted ++ [q₀]) ++ [z]) [e])
      have hbegin := hbegin (Nat.pos_of_ne_zero hk)
      have hk : generatedEchoPrefixMatchLen (z :: (e.quoted ++ [q₀]) ++ [z]) [e] ≠ 0 := hk
      unfold generatedEchoPrefixMatchLen at hk
      rw [List.drop_append_of_le_length (by rw [List.length_append, List.length_singleton]; omega)] at hbegin
      -- what would be held ends with `z`
      rcases beginsEcho_single hbegin with ⟨-, hp⟩ | ⟨-, hp⟩
      · exact hr (hp.subset (List.mem_append_right _ (List.mem_singleton_self z)))
      · exact hq (hp.subset (List.mem_append_right _ (List.mem_singleton_self z)))
    rw [List.cons_append] at hkeep ⊢
    rw [echoRun_emit (hfront _) hkeep, List.append_assoc]
    show (echoRun [e] (e.quoted ++ ([q₀] ++ [z]))).pending = []
    rw [echoRun_match (matchFront_quoted e [] _), echoRun_none]
  have hfirst : ∃ held, (echoRun [e] (z :: (e.quoted ++ [q₀]))).pending = [e] ∧
      (echoRun [e] (z :: (e.quoted ++ [q₀]))).held = held ∧ beginsEcho held [e] = true := by
    have hone : beginsEcho ((z :: (e.quoted ++ [q₀])).drop ((z :: (e.quoted ++ [q₀])).length - 1)) [e] = true := by
      have hdrop : (z :: (e.quoted ++ [q₀])).drop ((z :: (e.quoted ++ [q₀])).length - 1) = [q₀] := by
        simp
      rw [hdrop]
      unfold beginsEcho
      simp only [List.any_cons, List.any_nil, Bool.or_false, Bool.or_eq_true, decide_eq_true_eq]
      rw [hcons] at he ⊢
      exact .inr ⟨he, rfl⟩
    have hmax : 1 ≤ maxKeep (z :: (e.quoted ++ [q₀])) [e] := by
      unfold maxKeep maxPendingGeneratedEchoOutput
      simp only [List.foldl, List.length_cons, List.length_append]
      omega
    have hk := longestKeep_pos Nat.one_pos hone hmax
    exact ⟨_, by rw [echoRun_hold (hfront _) hk], by rw [echoRun_hold (hfront _) hk]; rfl,
      (longestKeep_spec (z :: (e.quoted ++ [q₀])) [e] _).2 hk⟩
  obtain ⟨held, hpend, hheld, hbegin⟩ := hfirst
  have hinside : ∀ y : Bytes, y ≠ [] → z ∉ y → y <:+: held ++ [z] → y <:+: held := by
    intro y hy hz hi
    rcases List.infix_concat_iff.mp hi with hs | hi
    · obtain ⟨t, ht, -⟩ := (List.suffix_concat_iff.mp hs).resolve_left hy
      exact absurd (by rw [ht]; simp) hz
    · exact hi
  have hstays : e ∈ (echoRun [e] (held ++ [z])).pending := by
    have hnot : ¬e.raw <:+: held ∧ ¬e.quoted <:+: held := by
      rcases beginsEcho_single hbegin with ⟨hl, hp⟩ | ⟨hl, hp⟩
      · have := e.raw_le
        exact ⟨fun h => by have := h.length_le; omega, fun h => by have := h.length_le; omega⟩
      · exact GeneratedEcho.not_in_piece hp.isInfix hl
    refine echo_stays (List.mem_singleton_self e) (fun h => hnot.1 ?_) fun h => hnot.2 ?_
    · exact hinside _ e.raw_ne hr h
    · exact hinside _ (List.length_pos_iff.mp e.quoted_pos) hq h
  unfold RunAgrees at h
  rw [h, hpend, hheld] at hwhole
  rw [show (EchoResult.prepend (echoRun [e] (held ++ [z])) _).pending = (echoRun [e] (held ++ [z])).pending from rfl] at hwhole
  rw [hwhole] at hstays
  cases hstays

/-- However long it is, a longer echo alone is enough for a cut that shows. -/
theorem shows_alone (he : 1 < e.quoted.length) : ∃ a b, a ≠ [] ∧ b ≠ [] ∧ ¬RunAgrees [e] a b := by
  rcases Nat.lt_or_ge (maxPendingGeneratedEchoOutput + 1) e.quoted.length with hl | hl
  · exact shows_beyond_limit hl
  · unfold maxPendingGeneratedEchoOutput at hl
    obtain ⟨z, hv, hz⟩ := exists_fresh (x := e.quoted) (by omega)
    exact shows_behind_text he (fun hr => hz (mem_quoted hv hr)) hz

end

/-- The last echo of more than one byte. -/
theorem last_longer : ∀ {pending : List GeneratedEcho}, ¬Single pending → ∃ front e back,
    pending = front ++ e :: back ∧ 1 < e.quoted.length ∧ Single back
  | [], h => absurd (fun e he => by cases he) h
  | x :: pending, h => by
    by_cases hs : Single pending
    · refine ⟨[], x, pending, rfl, ?_, hs⟩
      by_contra hx
      refine h fun e he => ?_
      rcases List.mem_cons.mp he with rfl | he
      · omega
      · exact hs e he
    · obtain ⟨front, e, back, rfl, hl, hb⟩ := last_longer hs
      exact ⟨x :: front, e, back, rfl, hl, hb⟩

theorem exists_cut {pending : List GeneratedEcho} (h : ¬Single pending) :
    ∃ a b, a ≠ [] ∧ b ≠ [] ∧ ¬RunAgrees pending a b := by
  obtain ⟨front, e, back, rfl, hl, hb⟩ := last_longer h
  obtain ⟨a, b, ha, hne, hcut⟩ : ∃ a b, a ≠ [] ∧ b ≠ [] ∧ ¬RunAgrees (e :: back) a b := by
    by_cases hnil : back = []
    · subst hnil; exact shows_alone hl
    · exact shows_beside_single hb hnil hl
  -- the echoes in front come first
  refine ⟨front.flatMap GeneratedEcho.raw ++ a, b, by simp [ha], hne, fun hall => hcut ?_⟩
  unfold RunAgrees at hall ⊢
  rw [List.append_assoc, echoRun_raws, echoRun_raws] at hall
  exact hall

/-- Where a read is cut shows for some stream, unless every pending echo is a single byte. -/
theorem echo_cuts_iff (pending : List GeneratedEcho) :
    (∀ held a b, EchoFilter.CutAgrees ⟨pending, held⟩ a b) ↔ Single pending := by
  constructor
  · intro h
    by_contra hs
    obtain ⟨a, b, ha, hb, hcut⟩ := exists_cut hs
    exact hcut ((cutAgrees_iff_run ⟨pending, []⟩ ha hb).mp (h [] a b))
  · intro h held a b
    exact single_agrees h a b

/-- An answer echoed behind a character is leaked if the read ends with a caret. -/
theorem caret_leaks_echo : ¬∀ (f : EchoFilter) (a b : Bytes), f.CutAgrees a b := by
  intro h
  have := (h ⟨[⟨primaryDeviceAttributesResponse, by decide⟩], []⟩ (ascii "x^[[?1;2c") (ascii "^")).1
  revert this
  decide

end Webshell
