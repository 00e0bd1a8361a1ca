import Webshell.OutputQueueRuns

/-!
# The pieces of an output

Bytes are cut where no character is parted, texts at code points, and a text is
measured in slices of its own. All three agree on what a text takes.
-/

namespace Webshell

/-! ## Characters -/

/-- The bytes of a character: only the first one is no continuation byte. -/
structure CharBytes (bytes : Bytes) : Prop where
  length_le : bytes.length ≤ 4
  first : ∃ b rest, bytes = b :: rest ∧ isContinuation b = false ∧ ∀ c ∈ rest, isContinuation c = true

theorem isContinuation_tail (b : UInt8) : isContinuation (b &&& 0x3f ||| 0x80) = true := by
  have h : ∀ n : Fin 256, isContinuation (UInt8.ofFin n &&& 0x3f ||| 0x80) = true := by decide +kernel
  exact h b.toFin

theorem isContinuation_first {b : UInt8} (h : b.IsUTF8FirstByte) : isContinuation b = false := by
  have hall : ∀ n : Fin 256, (UInt8.ofFin n).IsUTF8FirstByte → isContinuation (UInt8.ofFin n) = false := by decide +kernel
  exact hall b.toFin h

theorem charBytes (c : Char) : CharBytes (String.utf8EncodeChar c) := by
  have hlength := String.length_utf8EncodeChar c
  have hfour := c.utf8Size_le_four
  have hfirst := UInt8.isUTF8FirstByte_getElem_zero_utf8EncodeChar (c := c)
  refine ⟨by omega, ?_⟩
  have hsize : c.utf8Size = 1 ∨ c.utf8Size = 2 ∨ c.utf8Size = 3 ∨ c.utf8Size = 4 := by
    have := c.utf8Size_pos
    omega
  have hb := isContinuation_first hfirst
  rcases hsize with h | h | h | h
  · simp only [String.utf8EncodeChar_eq_singleton h, List.getElem_cons_zero] at hb ⊢
    exact ⟨_, _, rfl, hb, by simp⟩
  · simp only [String.utf8EncodeChar_eq_cons_cons h, List.getElem_cons_zero] at hb ⊢
    exact ⟨_, _, rfl, hb, by simp [isContinuation_tail]⟩
  · simp only [String.utf8EncodeChar_eq_cons_cons_cons h, List.getElem_cons_zero] at hb ⊢
    exact ⟨_, _, rfl, hb, by simp [isContinuation_tail]⟩
  · simp only [String.utf8EncodeChar_eq_cons_cons_cons_cons h, List.getElem_cons_zero] at hb ⊢
    exact ⟨_, _, rfl, hb, by simp [isContinuation_tail]⟩

/-! ## Bytes -/

def encodeChars (cs : List Char) : Bytes := cs.flatMap String.utf8EncodeChar

theorem encodeChars_append (cs ds : List Char) : encodeChars (cs ++ ds) = encodeChars cs ++ encodeChars ds :=
  List.flatMap_append

/-- The character that holds a byte begins at most three bytes before it. -/
theorem char_at : ∀ {cs : List Char} {n : Nat}, n < (encodeChars cs).length →
    ∃ k, (encodeChars (cs.take k)).length ≤ n ∧ n < (encodeChars (cs.take k)).length + 4 ∧
      (encodeChars cs)[(encodeChars (cs.take k)).length]?.any isContinuation = false ∧
      ∀ i, (encodeChars (cs.take k)).length < i → i ≤ n → (encodeChars cs)[i]?.any isContinuation = true
  | [], n, hn => absurd hn (Nat.not_lt_zero n)
  | c :: cs, n, hn => by
    have hcons (ds : List Char) : encodeChars (c :: ds) = String.utf8EncodeChar c ++ encodeChars ds := rfl
    obtain ⟨hlength, b, rest, hbytes, hfirst, hrest⟩ := charBytes c
    by_cases hlt : n < (String.utf8EncodeChar c).length
    · have hzero : (encodeChars ((c :: cs).take 0)).length = 0 := rfl
      refine ⟨0, by omega, by omega, ?_, ?_⟩
      · rw [hzero, hcons, hbytes]
        simp [hfirst]
      · intro i hi hle
        rw [hzero] at hi
        rw [hcons, List.getElem?_append_left (by omega), hbytes]
        obtain ⟨j, rfl⟩ := Nat.exists_eq_succ_of_ne_zero (Nat.ne_of_gt hi)
        have hj : j < rest.length := by
          have : (b :: rest).length = (String.utf8EncodeChar c).length := by rw [hbytes]
          rw [List.length_cons] at this
          omega
        rw [List.getElem?_cons_succ, List.getElem?_eq_getElem hj]
        exact hrest _ (List.getElem_mem hj)
    · rw [hcons, List.length_append] at hn
      obtain ⟨k, hle, hnear, hbegins, hinside⟩ := @char_at cs (n - (String.utf8EncodeChar c).length) (by omega)
      have hk : (encodeChars ((c :: cs).take (k + 1))).length =
          (String.utf8EncodeChar c).length + (encodeChars (cs.take k)).length := by
        rw [List.take_succ_cons, hcons, List.length_append]
      refine ⟨k + 1, by omega, by omega, ?_, ?_⟩
      · rw [hk, hcons, List.getElem?_append_right (Nat.le_add_right ..), Nat.add_sub_cancel_left]
        exact hbegins
      · intro i hi hin
        rw [hcons, List.getElem?_append_right (by omega)]
        exact hinside _ (by omega) (by omega)

section Bytes

variable {data : Bytes} {start maxBytes : Nat}

theorem chunkEndFrom_eq {stop : Nat} (hs : start < stop) (hb : data[stop]?.any isContinuation = false) :
    ∀ {from' : Nat}, stop ≤ from' → (∀ i, stop < i → i ≤ from' → data[i]?.any isContinuation = true) →
    chunkEndFrom data start from' = stop
  | 0, hle, _ => by omega
  | from' + 1, hle, hall => by
    rw [chunkEndFrom]
    by_cases heq : stop = from' + 1
    · rw [← heq, if_neg (by simp [hb])]
    · rw [if_pos ⟨by omega, hall _ (by omega) (Nat.le_refl _)⟩]
      exact chunkEndFrom_eq hs hb (by omega) fun i hi hle => hall i hi (by omega)

theorem chunkEndFrom_le (data : Bytes) (start : Nat) : ∀ stop, chunkEndFrom data start stop ≤ stop
  | 0 => Nat.le_refl _
  | stop + 1 => by
    rw [chunkEndFrom]
    split
    · exact Nat.le_succ_of_le (chunkEndFrom_le data start stop)
    · exact Nat.le_refl _

theorem chunkEnd_le (data : Bytes) (start maxBytes : Nat) :
    terminalOutputByteChunkEnd data start maxBytes ≤ min data.length (start + maxBytes) := by
  unfold terminalOutputByteChunkEnd
  simp only
  split
  · exact Nat.le_refl _
  · split
    · exact chunkEndFrom_le ..
    · exact Nat.le_refl _

/-- The piece is made of whole characters, where the rest of the bytes is. -/
theorem chunkEnd_chars {cs : List Char} (hm : 4 ≤ maxBytes) (hs : start < data.length) (hd : data.drop start = encodeChars cs) :
    ∃ k, terminalOutputByteChunkEnd data start maxBytes = start + (encodeChars (cs.take k)).length := by
  have hlength : (encodeChars cs).length = data.length - start := by rw [← hd, List.length_drop]
  unfold terminalOutputByteChunkEnd
  simp only
  split
  · rename_i hle
    exact ⟨cs.length, by rw [List.take_length]; omega⟩
  · rename_i hlt
    obtain ⟨k, hle, hnear, hbegins, hinside⟩ := @char_at cs maxBytes (by omega)
    rw [← hd, List.getElem?_drop] at hbegins
    have hhard : min data.length (start + maxBytes) = start + maxBytes := by omega
    have hend : chunkEndFrom data start (start + maxBytes) = start + (encodeChars (cs.take k)).length := by
      apply chunkEndFrom_eq (by omega) hbegins (by omega)
      intro i hi hin
      have := hinside (i - start) (by omega) (by omega)
      rw [← hd, List.getElem?_drop, Nat.add_sub_cancel' (by omega)] at this
      exact this
    rw [hhard, hend, if_pos (by omega)]
    exact ⟨k, rfl⟩

theorem byteChunks_sizes (hm : 0 < maxBytes) : ∀ {fuel offset : Nat}, ∀ chunk ∈ byteChunks data maxBytes fuel offset,
    chunk ≠ [] ∧ chunk.length ≤ maxBytes
  | 0, _, _, h => absurd h List.not_mem_nil
  | fuel + 1, offset, chunk, h => by
    rw [byteChunks] at h
    split at h
    · rename_i hlt
      rcases List.mem_cons.mp h with rfl | h
      · have hgt := chunkEnd_gt hlt hm
        have hle := chunkEnd_le data offset maxBytes
        have hlength : ((data.take (terminalOutputByteChunkEnd data offset maxBytes)).drop offset).length =
            terminalOutputByteChunkEnd data offset maxBytes - offset := by
          rw [List.length_drop, List.length_take]
          omega
        refine ⟨fun hnil => ?_, by omega⟩
        rw [hnil, List.length_nil] at hlength
        omega
      · exact byteChunks_sizes hm chunk h
    · exact absurd h List.not_mem_nil

theorem encodeChars_nil {cs : List Char} (h : encodeChars cs = []) : cs = [] := by
  cases cs with
  | nil => rfl
  | cons c cs => exact absurd (List.append_eq_nil_iff.mp h).1 String.utf8EncodeChar_ne_nil

theorem byteChunks_chars (hm : 4 ≤ maxBytes) : ∀ {fuel offset : Nat} {cs : List Char}, data.length ≤ fuel + offset →
    data.drop offset = encodeChars cs →
    ∃ parts : List (List Char), parts.flatten = cs ∧ byteChunks data maxBytes fuel offset = parts.map encodeChars
  | 0, offset, cs, hf, hd => by
    rw [List.drop_of_length_le (by omega)] at hd
    exact ⟨[], (encodeChars_nil hd.symm).symm, rfl⟩
  | fuel + 1, offset, cs, hf, hd => by
    rw [byteChunks]
    split
    · rename_i hlt
      obtain ⟨k, hk⟩ := chunkEnd_chars hm hlt hd
      have hgt : offset < terminalOutputByteChunkEnd data offset maxBytes := chunkEnd_gt hlt (by omega)
      have hparts : encodeChars cs = encodeChars (cs.take k) ++ encodeChars (cs.drop k) := by
        rw [← encodeChars_append, List.take_append_drop]
      have hrest : data.drop (terminalOutputByteChunkEnd data offset maxBytes) = encodeChars (cs.drop k) := by
        rw [hk, ← List.drop_drop, hd, hparts, List.drop_left' rfl]
      obtain ⟨parts, hflat, hchunks⟩ := byteChunks_chars hm (show data.length ≤ fuel + _ by omega) hrest
      refine ⟨cs.take k :: parts, ?_, ?_⟩
      · rw [List.flatten_cons, hflat, List.take_append_drop]
      · have hfront : (data.take (terminalOutputByteChunkEnd data offset maxBytes)).drop offset = encodeChars (cs.take k) := by
          rw [List.drop_take, hk, Nat.add_sub_cancel_left, hd, hparts, List.take_left' rfl]
        simp only [hfront, hchunks, List.map_cons]
    · rw [List.drop_of_length_le (by omega)] at hd
      exact ⟨[], (encodeChars_nil hd.symm).symm, rfl⟩

end Bytes

/-! ## Texts -/

/-- No surrogate pair is parted between the two. -/
def Splits (units more : List UInt16) : Prop :=
  ∀ high ∈ units.getLast?, ∀ low ∈ more.head?, isHighSurrogate high = true → isLowSurrogate low = false

/-- What `encodeInto` writes for a text. -/
def textBytes (units : List UInt16) : Nat := encodedLength units.length units

theorem low_of_high {unit : UInt16} (h : isHighSurrogate unit = true) : isLowSurrogate unit = false := by
  simp only [isHighSurrogate, isLowSurrogate, Bool.and_eq_true, decide_eq_true_eq, UInt16.le_iff_toNat_le] at h ⊢
  simp only [Bool.and_eq_false_iff, decide_eq_false_iff_not]
  have : (0xdbff : UInt16).toNat = 0xdbff := rfl
  have : (0xdc00 : UInt16).toNat = 0xdc00 := rfl
  omega

theorem encodedLength_agree (fuel : Nat) : ∀ {fuel' : Nat} {units : List UInt16}, units.length ≤ fuel →
    units.length ≤ fuel' → encodedLength fuel units = encodedLength fuel' units := by
  induction fuel with
  | zero =>
    intro fuel' units h _
    rw [List.length_eq_zero_iff.mp (Nat.le_zero.mp h)]
    cases fuel' <;> rfl
  | succ fuel ih =>
    intro fuel' units h h'
    cases units with
    | nil => cases fuel' <;> rfl
    | cons unit units =>
      have hlt := firstCodePoint_rest (List.cons_ne_nil unit units)
      rw [List.length_cons] at h h' hlt
      cases fuel' with
      | zero => omega
      | succ fuel' => rw [encodedLength, encodedLength, ih (show _ ≤ fuel by omega) (show _ ≤ fuel' by omega)]

theorem encodedLength_enough {fuel : Nat} {units : List UInt16} (h : units.length ≤ fuel) :
    encodedLength fuel units = textBytes units := encodedLength_agree fuel h (Nat.le_refl _)

theorem textBytes_first {units : List UInt16} (h : units ≠ []) :
    textBytes units = utf8ByteLengthForCodePoint (firstCodePoint units).1 + textBytes (firstCodePoint units).2 := by
  cases units with
  | nil => exact absurd rfl h
  | cons unit units =>
    have hlt := firstCodePoint_rest (List.cons_ne_nil unit units)
    rw [List.length_cons] at hlt
    rw [textBytes, List.length_cons, encodedLength, encodedLength_enough (by omega)]

theorem firstCodePoint_more {units more : List UInt16} (h : units ≠ []) (hs : Splits units more) :
    firstCodePoint (units ++ more) = ((firstCodePoint units).1, (firstCodePoint units).2 ++ more) ∧
      Splits (firstCodePoint units).2 more := by
  match units with
  | [] => exact absurd rfl h
  | [unit] =>
    refine ⟨?_, nofun⟩
    cases more with
    | nil => rfl
    | cons low more =>
      change firstCodePoint (unit :: low :: more) = ([unit], low :: more)
      rw [firstCodePoint, if_neg]
      rintro ⟨hhigh, hlow⟩
      rw [hs unit rfl low rfl hhigh] at hlow
      cases hlow
  | high :: low :: rest =>
    rw [List.cons_append, List.cons_append, firstCodePoint, firstCodePoint]
    split
    · refine ⟨rfl, fun unit hm => hs unit ?_⟩
      rw [List.getLast?_cons_cons, List.getLast?_cons, Option.mem_def.mp hm]
      rfl
    · refine ⟨rfl, fun unit hm => hs unit ?_⟩
      rw [List.getLast?_cons_cons]
      exact hm

theorem textBytes_append (n : Nat) : ∀ {units more : List UInt16}, units.length ≤ n → Splits units more →
    textBytes (units ++ more) = textBytes units + textBytes more := by
  induction n with
  | zero =>
    intro units more hn _
    rw [List.length_eq_zero_iff.mp (Nat.le_zero.mp hn)]
    exact (Nat.zero_add _).symm
  | succ n ih =>
    intro units more hn hs
    by_cases hne : units = []
    · rw [hne]
      exact (Nat.zero_add _).symm
    · obtain ⟨hfirst, hrest⟩ := firstCodePoint_more hne hs
      have hlt := firstCodePoint_rest hne
      have hne' : units ++ more ≠ [] := fun hnil => hne (List.append_eq_nil_iff.mp hnil).1
      rw [textBytes_first hne', textBytes_first hne, hfirst, ih (by omega) hrest, Nat.add_assoc]

theorem splits_take {units : List UInt16} {n : Nat} (h : ∀ high ∈ units[n - 1]?, isHighSurrogate high = false) (hn : 0 < n) :
    Splits (units.take n) (units.drop n) := by
  intro high hm low hl hhigh
  rw [List.head?_drop] at hl
  have hlt : n < units.length := (List.getElem?_eq_some_iff.mp hl).1
  rw [List.getLast?_take, if_neg (by omega), Option.mem_def, List.getElem?_eq_getElem (by omega)] at hm
  have hfalse := h high (by rw [List.getElem?_eq_getElem (by omega)]; exact hm)
  rw [hhigh] at hfalse
  cases hfalse

theorem splits_before {units : List UInt16} {n : Nat} (h : ∀ high ∈ units[n]?, isHighSurrogate high = true) :
    Splits (units.take n) (units.drop n) := by
  intro _ _ low hl _
  rw [List.head?_drop] at hl
  exact low_of_high (h low hl)

/-- A slice that is measured ends at a code point. -/
theorem measureEnd_splits {units : List UInt16} (h : units ≠ []) :
    0 < measureEnd units ∧ Splits (units.take (measureEnd units)) (units.drop (measureEnd units)) := by
  have hlength := List.length_pos_of_ne_nil h
  have hchunk : TERMINAL_OUTPUT_MEASURE_CHUNK_CHARS = 32768 := rfl
  unfold measureEnd
  simp only [hchunk]
  by_cases hcut : min units.length 32768 < units.length ∧ (units[min units.length 32768 - 1]?.any isHighSurrogate) = true
  · rw [if_pos hcut, if_neg (by omega)]
    refine ⟨by omega, splits_before ?_⟩
    intro high hm
    have hany := hcut.2
    rw [Option.mem_def.mp hm] at hany
    exact hany
  · rw [if_neg hcut, if_neg (by omega)]
    refine ⟨by omega, ?_⟩
    by_cases hlt : min units.length 32768 < units.length
    · apply splits_take ?_ (by omega)
      intro high hm
      by_contra hhigh
      apply hcut
      rw [Option.mem_def.mp hm]
      exact ⟨hlt, by simpa using hhigh⟩
    · intro _ _ low hl
      rw [List.drop_of_length_le (by omega)] at hl
      cases hl

theorem measureText_eq : ∀ {fuel : Nat} {units : List UInt16}, units.length ≤ fuel → measureText fuel units = textBytes units
  | 0, units, h => by
    rw [List.length_eq_zero_iff.mp (Nat.le_zero.mp h)]
    rfl
  | fuel + 1, units, h => by
    rw [measureText]
    split
    · rename_i hnil
      rw [hnil]
      rfl
    · rename_i hne
      obtain ⟨hpos, hs⟩ := measureEnd_splits hne
      have hlength := List.length_pos_of_ne_nil hne
      rw [encodedLength_enough (by rw [List.length_take]; omega), measureText_eq (by rw [List.length_drop]; omega),
        ← textBytes_append units.length (by rw [List.length_take]; omega) hs, List.take_append_drop]

/-- The length of a text is what it takes in UTF-8, code point by code point. -/
theorem byteLength_text (units : List UInt16) : terminalOutputByteLength (.text units) = textBytes units :=
  measureText_eq (Nat.le_refl _)

theorem utf8ByteLength_le (text : List UInt16) : utf8ByteLengthForCodePoint text ≤ 4 := by
  unfold utf8ByteLengthForCodePoint
  split
  · split
    · omega
    · split <;> omega
  · exact Nat.le_refl _

/-- A code point on its own; what follows is parted from it. -/
theorem firstCodePoint_alone {units : List UInt16} (h : units ≠ []) :
    (firstCodePoint units).1 ≠ [] ∧ textBytes (firstCodePoint units).1 = utf8ByteLengthForCodePoint (firstCodePoint units).1 ∧
      Splits (firstCodePoint units).1 (firstCodePoint units).2 := by
  match units with
  | [] => exact absurd rfl h
  | [unit] => exact ⟨List.cons_ne_nil _ _, rfl, nofun⟩
  | high :: low :: rest =>
    by_cases hpair : isHighSurrogate high = true ∧ isLowSurrogate low = true
    · have hfirst : firstCodePoint (high :: low :: rest) = ([high, low], rest) := by rw [firstCodePoint, if_pos hpair]
      have halone : firstCodePoint [high, low] = ([high, low], []) := by rw [firstCodePoint, if_pos hpair]
      rw [hfirst]
      refine ⟨List.cons_ne_nil _ _, ?_, ?_⟩
      · rw [textBytes_first (List.cons_ne_nil _ _), halone]
        rfl
      · intro unit hm _ _ hhigh
        have hlast : low = unit := Option.some.inj hm
        rw [hlast, low_of_high hhigh] at hpair
        cases hpair.2
    · have hfirst : firstCodePoint (high :: low :: rest) = ([high], low :: rest) := by rw [firstCodePoint, if_neg hpair]
      rw [hfirst]
      refine ⟨List.cons_ne_nil _ _, rfl, ?_⟩
      intro unit hm next hn hhigh
      cases Option.mem_def.mp hm
      cases Option.mem_def.mp hn
      by_contra hlow
      exact hpair ⟨hhigh, by simpa using hlow⟩

theorem splits_append {chunk text rest : List UInt16} (ht : text ≠ []) (h : Splits text rest) : Splits (chunk ++ text) rest := by
  intro high hm
  rw [List.getLast?_append_of_ne_nil _ ht] at hm
  exact h high hm

theorem splits_front {chunk text rest : List UInt16} (ht : text ≠ []) (h : Splits chunk (text ++ rest)) : Splits chunk text := by
  intro high hm low hl
  apply h high hm low
  rw [List.head?_append_of_ne_nil _ ht]
  exact hl

/-- What the pieces of a text take: none of them too much, and together what the text takes. -/
def PiecesFit (maxBytes total : Nat) (chunks : List (List UInt16)) : Prop :=
  (∀ chunk ∈ chunks, chunk ≠ [] ∧ textBytes chunk ≤ maxBytes) ∧ (chunks.map textBytes).sum = total

theorem piecesFit_last {maxBytes : Nat} {chunk : List UInt16} (hm : textBytes chunk ≤ maxBytes) :
    PiecesFit maxBytes (textBytes chunk) (if chunk = [] then [] else [chunk]) := by
  split
  · rename_i h
    rw [h]
    exact ⟨fun _ h => absurd h List.not_mem_nil, rfl⟩
  · rename_i h
    refine ⟨fun c hc => ?_, Nat.add_zero _⟩
    cases List.mem_singleton.mp hc
    exact ⟨h, hm⟩

theorem piecesFit_cons {maxBytes total : Nat} {chunk : List UInt16} {chunks : List (List UInt16)} (hne : chunk ≠ [])
    (hm : textBytes chunk ≤ maxBytes) (h : PiecesFit maxBytes total chunks) :
    PiecesFit maxBytes (textBytes chunk + total) (chunk :: chunks) := by
  refine ⟨fun c hc => ?_, ?_⟩
  · rcases List.mem_cons.mp hc with rfl | hc
    · exact ⟨hne, hm⟩
    · exact h.1 c hc
  · rw [List.map_cons, List.sum_cons, h.2]

theorem splitTextFrom_fits {maxBytes : Nat} (hm : 4 ≤ maxBytes) : ∀ {fuel : Nat} {units chunk : List UInt16},
    units.length ≤ fuel → Splits chunk units → textBytes chunk ≤ maxBytes →
    PiecesFit maxBytes (textBytes chunk + textBytes units) (splitTextFrom maxBytes fuel units chunk (textBytes chunk))
  | 0, units, chunk, hf, _, hc => by
    rw [List.length_eq_zero_iff.mp (Nat.le_zero.mp hf), splitTextFrom]
    exact piecesFit_last hc
  | fuel + 1, units, chunk, hf, hs, hc => by
    rw [splitTextFrom]
    by_cases hu : units = []
    · rw [if_pos hu, hu]
      exact piecesFit_last hc
    · rw [if_neg hu]
      have hlt := firstCodePoint_rest hu
      have hparts := firstCodePoint_append units
      have hbytes := textBytes_first hu
      obtain ⟨htext, halone, hrest⟩ := firstCodePoint_alone hu
      have hfour := utf8ByteLength_le (firstCodePoint units).1
      generalize firstCodePoint units = parts at hlt hparts hbytes htext halone hrest hfour ⊢
      obtain ⟨text, rest⟩ := parts
      simp only at hlt hparts hbytes htext halone hrest hfour ⊢
      rw [← halone] at hbytes hfour ⊢
      split
      · rename_i hcut
        rw [hbytes]
        exact piecesFit_cons hcut.1 hc (splitTextFrom_fits hm (by omega) hrest (by omega))
      · rename_i hcut
        have hjoin : textBytes (chunk ++ text) = textBytes chunk + textBytes text :=
          textBytes_append chunk.length (Nat.le_refl _) (splits_front htext (hparts ▸ hs))
        have hfits : textBytes (chunk ++ text) ≤ maxBytes := by
          by_cases hnil : chunk = []
          · rw [hnil, List.nil_append]
            omega
          · have hle : ¬ maxBytes < textBytes chunk + textBytes text := fun hlt => hcut ⟨hnil, hlt⟩
            omega
        rw [hbytes, ← Nat.add_assoc, ← hjoin]
        exact splitTextFrom_fits hm (by omega) (splits_append htext hrest) hfits

/-! ## Both -/

theorem output_pieces {maxBytes : Nat} (hm : 4 ≤ maxBytes) :
    (∀ data : Bytes,
      (∀ start < data.length, start < terminalOutputByteChunkEnd data start maxBytes ∧
        terminalOutputByteChunkEnd data start maxBytes ≤ data.length) ∧
      (byteChunks data maxBytes data.length 0).flatten = data ∧
      (∀ chunk ∈ byteChunks data maxBytes data.length 0, chunk ≠ [] ∧ chunk.length ≤ maxBytes) ∧
      ∀ cs : List Char, data = cs.flatMap String.utf8EncodeChar → ∃ parts : List (List Char), parts.flatten = cs ∧
        byteChunks data maxBytes data.length 0 = parts.map fun part => part.flatMap String.utf8EncodeChar) ∧
    ∀ units : List UInt16,
      (splitTerminalOutputText units maxBytes).flatten = units ∧
      (∀ chunk ∈ splitTerminalOutputText units maxBytes,
        chunk ≠ [] ∧ terminalOutputByteLength (.text chunk) ≤ maxBytes) ∧
      ((splitTerminalOutputText units maxBytes).map fun chunk => terminalOutputByteLength (.text chunk)).sum =
        terminalOutputByteLength (.text units) := by
  have hpos : 0 < maxBytes := by omega
  refine ⟨fun data => ⟨fun start hs => ?_, ?_, byteChunks_sizes hpos, fun cs hd => ?_⟩, fun units => ?_⟩
  · have := chunkEnd_le data start maxBytes
    exact ⟨chunkEnd_gt hs hpos, by omega⟩
  · rw [byteChunks_flatten hpos (Nat.le_refl _), List.drop_zero]
  · exact byteChunks_chars hm (Nat.le_refl _) hd
  · obtain ⟨hfits, hsum⟩ : PiecesFit maxBytes (textBytes [] + textBytes units) (splitTerminalOutputText units maxBytes) :=
      splitTextFrom_fits hm (Nat.le_refl _) nofun (Nat.zero_le _)
    simp only [byteLength_text]
    refine ⟨?_, hfits, hsum.trans (Nat.zero_add _)⟩
    rw [splitTerminalOutputText, splitText_flatten (Nat.le_refl _), List.nil_append]

/-- Four bytes of room, a character of three bytes and a lone surrogate. -/
theorem output_pieces_four :
    (byteChunks [0x61, 0x62, 0xe2, 0x82, 0xac] 4 5 0).flatten = [0x61, 0x62, 0xe2, 0x82, 0xac] ∧
      ((splitTerminalOutputText [0xd800, 0x61, 0xd83d, 0xde00] 4).map fun chunk => terminalOutputByteLength (.text chunk)).sum = 8 :=
  ⟨((@output_pieces 4 (Nat.le_refl _)).1 [0x61, 0x62, 0xe2, 0x82, 0xac]).2.1,
    ((@output_pieces 4 (Nat.le_refl _)).2 [0xd800, 0x61, 0xd83d, 0xde00]).2.2.trans (by decide)⟩

end Webshell
