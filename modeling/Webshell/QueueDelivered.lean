import Webshell.QueueAgree

/-!
# What is written is delivered

Every message a stream writes is taken by the browser's logical stream of the
same identity, and the payloads it presents are the ones that were written.
-/

namespace Webshell

open GoText

/-! ## Checksums -/

/-- The last `k` hexadecimal digits. -/
def hexDigits : Nat → Nat → List Char
  | 0, _ => []
  | k + 1, n => hexDigits k (n / 16) ++ [Nat.digitChar (n % 16)]

theorem hexDigits_zero (k : Nat) : hexDigits k 0 = List.replicate k '0' := by
  induction k with
  | zero => rfl
  | succ k ih => simp only [hexDigits, Nat.zero_div, ih, Nat.zero_mod, List.replicate_succ']; rfl

theorem length_hexDigits (k n : Nat) : (hexDigits k n).length = k := by
  induction k generalizing n with
  | zero => rfl
  | succ k ih => simp [hexDigits, ih]

theorem hexDigits_hex (k n : Nat) : ∀ c ∈ hexDigits k n, isHexDigit c = true ∧ c.toLower = c ∧ Js.isSpace c = false := by
  have digit : ∀ m < 16, isHexDigit (Nat.digitChar m) = true ∧ (Nat.digitChar m).toLower = Nat.digitChar m ∧
      Js.isSpace (Nat.digitChar m) = false := by decide
  induction k generalizing n with
  | zero => intro c hc; cases hc
  | succ k ih =>
    intro c hc
    rcases List.mem_append.mp hc with hc | hc
    · exact ih _ c hc
    · rw [List.mem_singleton.mp hc]
      exact digit _ (Nat.mod_lt _ (by decide))

/-- The digits are in lower case and do not begin with `0x`. -/
theorem hexDigits_lower (k n : Nat) :
    (hexDigits k n).map Char.toLower = hexDigits k n ∧ "0x".toList.isPrefixOf (hexDigits k n) = false := by
  have hall := hexDigits_hex k n
  constructor
  · conv_rhs => rw [← List.map_id (hexDigits k n)]
    exact List.map_congr_left fun c hc => (hall c hc).2.1
  · rw [Bool.eq_false_iff]
    intro hp
    have hx : 'x' ∈ hexDigits k n := (List.isPrefixOf_iff_prefix.mp hp).subset (by decide)
    exact absurd (hall 'x' hx).1 (by decide)

/-- Padded with zeros, a number has its last digits. -/
theorem leftpad_toDigits {k n : Nat} (h : n < 16 ^ (k + 1)) :
    (Nat.toDigits 16 n).leftpad (k + 1) '0' = hexDigits (k + 1) n := by
  induction k generalizing n with
  | zero =>
    have hn : n < 16 := by simpa using h
    rw [Nat.toDigits_of_lt_base hn]
    simp [hexDigits, Nat.mod_eq_of_lt hn, List.leftpad]
  | succ k ih =>
    by_cases hn : n < 16
    · rw [Nat.toDigits_of_lt_base hn, hexDigits, Nat.div_eq_of_lt hn, hexDigits_zero, Nat.mod_eq_of_lt hn]
      simp [List.leftpad]
    · have hdiv : n / 16 < 16 ^ (k + 1) := by
        rw [Nat.div_lt_iff_lt_mul (by decide), ← Nat.pow_succ]
        exact h
      rw [Nat.toDigits_of_base_le (by decide) (by omega), hexDigits, ← ih hdiv]
      simp [List.leftpad]

theorem hexDigit_eq : ∀ d : Fin 16, hexDigit d = Nat.digitChar d.val := by decide

theorem hexPair_eq (n : Nat) : hexPair (UInt8.ofNat n).toFin = [Nat.digitChar (n / 16 % 16), Nat.digitChar (n % 16)] := by
  have hval : (UInt8.ofNat n).toFin.val = n % 256 := UInt8.toNat_ofNat'
  unfold hexPair
  rw [hexDigit_eq, hexDigit_eq]
  simp only [hval]
  rw [show n % 256 / 16 = n / 16 % 16 by omega, show n % 256 % 16 = n % 16 by omega]

theorem checksum_text (n : Nat) : (encodeToString ((putUint32 n).map UInt8.toFin)).toList = hexDigits 8 n := by
  unfold encodeToString putUint32
  rw [String.toList_ofList]
  simp only [List.map_cons, List.map_nil, List.flatMap_cons, List.flatMap_nil, hexPair_eq, hexDigits, List.nil_append,
    List.cons_append, Nat.div_div_eq_div_mul, Nat.reduceMul]

theorem checksum_matches (data : Bytes) :
    payloadChecksumMatches data (some (jsonString (terminalPayloadChecksum data))) = true := by
  have hn : (Crc32.checksum data).toNat < 16 ^ 8 := (Crc32.checksum data).isLt
  have hall := hexDigits_hex 8 (Crc32.checksum data).toNat
  have hlen := length_hexDigits 8 (Crc32.checksum data).toNat
  obtain ⟨hlower, hprefix⟩ := hexDigits_lower 8 (Crc32.checksum data).toNat
  have hpad := leftpad_toDigits (k := 7) hn
  unfold jsonString terminalPayloadChecksum
  rw [checksum_text]
  generalize hexDigits 8 (Crc32.checksum data).toNat = digits at hall hlen hlower hprefix hpad
  rw [← Crc32.checksumByTable_eq] at hpad
  have htrim : Js.trim digits = digits := Js.trim_of_no_space fun c hc => (hall c hc).2.2
  have hhex : digits.all isHexDigit = true := List.all_eq_true.mpr fun c hc => (hall c hc).1
  have hkeep : padChecksum digits = digits := by simp [padChecksum, List.leftpad, hlen]
  cases digits with
  | nil => cases hlen
  | cons c cs =>
    simp only [payloadChecksumMatches, Js.text, htrim, hlower, hprefix, Bool.false_eq_true, if_false]
    rw [if_neg (by simp only [hlen, hhex]; simp), hkeep]
    exact decide_eq_true hpad

/-! ## Identities -/

/-- Ids both sides leave alone, and a channel generation JavaScript counts exactly. -/
structure TerminalQueueSubscription.Valid (sub : TerminalQueueSubscription) : Prop where
  paneID : Trimmed sub.paneID ∧ ∀ c ∈ sub.paneID.toList, c.toNat < 128
  streamID : Trimmed sub.streamID ∧ ∀ c ∈ sub.streamID.toList, c.toNat < 128
  generation : 0 < sub.channelGeneration ∧ sub.channelGeneration ≤ Js.maxSafeInteger

def TerminalQueueSubscription.identity (sub : TerminalQueueSubscription) : LogicalIdentity where
  paneID := sub.paneID.toList
  streamID := sub.streamID.toList
  channelGeneration := sub.channelGeneration

theorem ascii_space {c : Char} (h : isSpace c = false) (hc : c.toNat < 128) : Js.isSpace c = false := by
  simp only [isSpace, Js.isSpace, Bool.or_eq_false_iff, Bool.and_eq_false_imp, decide_eq_true_eq,
    decide_eq_false_iff_not, List.contains_eq_mem, List.mem_cons, List.not_mem_nil, or_false] at h ⊢
  omega

theorem trim_ascii {s : String} (ht : trimSpace s = s) (hc : ∀ c ∈ s.toList, c.toNat < 128) : Js.trim s.toList = s.toList := by
  obtain ⟨hh, hl⟩ := trimSpace_ends s
  rw [ht] at hh hl
  apply Js.trim_of_ends
  · intro c h; exact ascii_space (hh c h) (hc c (List.mem_of_head? h))
  · intro c h; exact ascii_space (hl c h) (hc c (List.mem_of_getLast? h))

theorem toList_ne_nil {s : String} (h : s ≠ "") : s.toList ≠ [] := by
  intro he
  exact h (String.toList_inj.mp he)

/-- `either` of a string that is there. -/
theorem orElse_string {s : String} (h : s ≠ "") (other : Json) : Js.orElse (some (jsonString s)) other = jsonString s := by
  have ht : Js.truthy (jsonString s) = true := by simpa [Js.truthy, jsonString] using toList_ne_nil h
  unfold Js.orElse
  simp only [ht, if_true]

theorem text_jsonString (s : String) : Js.text (jsonString s) = s.toList := by simp only [jsonString, Js.text]

theorem text_jsonUint (n : Nat) : Js.text (jsonUint n) = Nat.toDigits 10 n := by simp only [jsonUint, Js.text]

theorem truthy_jsonUint {n : Nat} (h : 0 < n) : Js.truthy (jsonUint n) = true := by
  have hz := toDigits_head h
  have hne : Nat.toDigits 10 n ≠ [] := Nat.toDigits_ne_nil
  have hdig := digits_isDigit n
  cases hd : Nat.toDigits 10 n with
  | nil => exact absurd hd hne
  | cons c cs =>
    rw [hd] at hz hdig
    have hc : c.isDigit = true := hdig c (List.mem_cons_self ..)
    have hzero : c ≠ '0' := by rintro rfl; exact hz rfl
    unfold jsonUint Js.truthy
    rw [hd]
    simp only [Char.isDigit, Bool.and_eq_true, decide_eq_true_eq] at hc
    have h1 : 48 ≤ c.toNat := hc.1
    have h2 : c.toNat ≤ 57 := hc.2
    have h3 : c.toNat ≠ 48 := fun he => hzero (Char.toNat_inj.mp he)
    simp only [List.any_cons, Bool.or_eq_true, Bool.and_eq_true, decide_eq_true_eq]
    left
    exact ⟨show 49 ≤ c.toNat by omega, h2⟩

theorem positiveInteger_jsonUint {n : Nat} (h : 0 < n) (hn : n ≤ Js.maxSafeInteger) :
    Js.positiveInteger (jsonUint n) = some n := by
  have hd : Js.decimal (Js.trim (Js.text (jsonUint n))) = some n := by
    rw [text_jsonUint, Js.trim_toDigits, Js.decimal_toDigits]
  unfold Js.positiveInteger
  simp only [hd]
  simp [jsonUint, h, hn]

/-- A descriptor with the fields of a valid subscription. -/
theorem normalizeIdentity_valid {sub : TerminalQueueSubscription} (h : sub.Valid) {descriptor : Json}
    (hpane : descriptor.get "pane_id" = some (jsonString sub.paneID))
    (hstream : descriptor.get "stream_id" = some (jsonString sub.streamID))
    (hchannel : descriptor.get "channel_generation" = some (jsonUint sub.channelGeneration)) :
    normalizeIdentity descriptor = some sub.identity := by
  have hor : ∀ other, Js.orElse (some (jsonUint sub.channelGeneration)) other = jsonUint sub.channelGeneration := by
    intro other
    unfold Js.orElse
    simp only [truthy_jsonUint h.generation.1, if_true]
  unfold normalizeIdentity
  simp only [hpane, hstream, hchannel, orElse_string h.paneID.1.2, orElse_string h.streamID.1.2, hor,
    positiveInteger_jsonUint h.generation.1 h.generation.2, text_jsonString, trim_ascii h.paneID.1.1 h.paneID.2,
    trim_ascii h.streamID.1.1 h.streamID.2]
  rw [if_neg (by simp only [not_or]; exact ⟨toList_ne_nil h.paneID.1.2, toList_ne_nil h.streamID.1.2⟩)]
  rfl

section
variable (o : QueueOutbound) (sub : TerminalQueueSubscription)

@[simp] theorem header_pane_id : (o.header sub).json.get "pane_id" = some (jsonString sub.paneID) := by
  simp only [TerminalQueueBinaryHeader.json, Json.get]
  split <;> rfl

@[simp] theorem header_stream_id : (o.header sub).json.get "stream_id" = some (jsonString sub.streamID) := by
  simp only [TerminalQueueBinaryHeader.json, Json.get]
  split <;> rfl

@[simp] theorem header_channel_generation :
    (o.header sub).json.get "channel_generation" = some (jsonUint sub.channelGeneration) := by
  simp only [TerminalQueueBinaryHeader.json, Json.get]
  split <;> rfl

@[simp] theorem header_sequence : (o.header sub).json.get "sequence" = some (jsonUint o.binarySequence) := by
  simp only [TerminalQueueBinaryHeader.json, Json.get]
  split <;> rfl

@[simp] theorem header_checksum :
    (o.header sub).json.get "checksum" = some (jsonString (terminalPayloadChecksum o.data)) := by
  simp only [TerminalQueueBinaryHeader.json, Json.get]
  split <;> rfl

/-- An empty history generation is left out. -/
theorem header_history_generation :
    Js.text (Js.orElse ((o.header sub).json.get "history_generation") (.str [])) = sub.historyGeneration.toList := by
  have hget : (o.header sub).json.get "history_generation" =
      if sub.historyGeneration = "" then none else some (jsonString sub.historyGeneration) := by
    have hh : (o.header sub).historyGeneration = sub.historyGeneration := rfl
    simp only [TerminalQueueBinaryHeader.json, Json.get, hh]
    by_cases h : sub.historyGeneration = ""
    · simp only [h, if_true]; rfl
    · simp only [h, if_false]; rfl
  rw [hget]
  by_cases h : sub.historyGeneration = ""
  · rw [if_pos h, h]
    simp only [Js.orElse, Js.text]
    rfl
  · rw [if_neg h, orElse_string h, text_jsonString]

end

theorem parseSequence_jsonUint {n : Nat} (h : n ≤ Js.maxSafeInteger) : parseSequence (some (jsonUint n)) = some n := by
  have hd : Js.decimal (Js.trim (Js.text (jsonUint n))) = some n := by
    rw [text_jsonUint, Js.trim_toDigits, Js.decimal_toDigits]
  have ht : Js.trimmedText (some (jsonUint n)) = Js.trim (Js.text (jsonUint n)) := rfl
  unfold parseSequence
  rw [ht, hd]
  simp [h]

/-! ## The browser takes what is written -/

/-- The binary payloads among the events. -/
def binaryPayloads (events : List Dispatched) : List Bytes :=
  events.filterMap fun
    | .binary payload _ => some payload
    | _ => none

/-- The logical stream is where the wire is. -/
structure TakesInv (sub : TerminalQueueSubscription) (w : WireState) (wire : List QueueOutbound) (s : LogicalStream) :
    Prop where
  isOpen : s.readyState = .open
  generation : s.historyGeneration = sub.historyGeneration.toList
  cursor : s.expectedCursor = w.cursor
  sequence : (w.count = 0 ∧ s.sequenceMode = none) ∨
    (0 < w.count ∧ s.sequenceMode = some true ∧ s.expectedSequence = some w.count)
  payloads : binaryPayloads s.dispatched = (binaries wire).map QueueOutbound.data

section
variable {sub : TerminalQueueSubscription} {w w' : WireState} {wire : List QueueOutbound} {s : LogicalStream}

theorem takes_binary (h : TakesInv sub w wire s) {o : QueueOutbound} (ho : o.isBinary = true)
    (hw : wireMachine.step w o = some w') (hn : o.binarySequence ≤ Js.maxSafeInteger) (identity : LogicalIdentity) :
    ∃ s', s.binary (o.header sub).json o.data identity = .ok s' ∧ TakesInv sub w' (wire ++ [o]) s' := by
  obtain ⟨⟨hne, -, hend, -⟩, hseq, hcur, rfl⟩ := wire_step_binary hw ho
  have hvalid : s.sequenceValid true (some o.binarySequence) = true := by
    unfold LogicalStream.sequenceValid
    rcases h.sequence with ⟨-, hm⟩ | ⟨-, hm, he⟩
    · simp [hm]
    · simp [hm, he, hseq]
  have hexp : s.expectedCursor = some o.startCursor := h.cursor.trans hcur
  unfold LogicalStream.binary
  simp only [header_history_generation, header_start_cursor, header_end_cursor, header_sequence, header_checksum,
    parseCursor_formatUint, parseSequence_jsonUint hn, Option.isSome_some, h.generation, ne_eq, not_true_eq_false, and_false, if_false]
  rw [if_pos ⟨by omega, by omega, hexp, hvalid, checksum_matches o.data⟩]
  refine ⟨_, rfl, h.isOpen, rfl, rfl, .inr ⟨Nat.succ_pos _, ?_, ?_⟩, ?_⟩
  · rcases h.sequence with ⟨-, hm⟩ | ⟨-, hm, -⟩ <;> simp [LogicalStream.dispatch, hm]
  · simp [LogicalStream.dispatch, hseq]
  · have hb : binaries (wire ++ [o]) = binaries wire ++ [o] := by simp [binaries, ho]
    rw [hb, List.map_append, ← h.payloads]
    simp [LogicalStream.dispatch, binaryPayloads]

/-- A control that says nothing of cursors. -/
theorem takes_other (h : TakesInv sub w wire s) {fields : List (List Char × Json)}
    (hs : Js.equals ((Json.obj fields).get "type") "history-replay-start" = false)
    (hc : Js.equals ((Json.obj fields).get "type") "history-replay-complete" = false) (identity : LogicalIdentity) :
    ∃ s', s.control (some (.obj fields)) identity = .ok s' ∧ TakesInv sub w wire s' := by
  unfold LogicalStream.control
  simp only [hs, hc, Bool.false_eq_true, if_false]
  refine ⟨_, rfl, h.isOpen, h.generation, h.cursor, h.sequence, ?_⟩
  rw [← h.payloads]
  simp [LogicalStream.dispatch, binaryPayloads]

/-- The value the browser reads has the strings of the object the server read. -/
def Describes (message : JsonObject) (value : Json) : Prop :=
  (∃ fields, value = .obj fields) ∧ value.Numeric ∧
    ∀ (key t : String), message.get key = some (.str t) ↔ value.get key = some (jsonString t)

theorem equals_iff {value : Option Json} {t : String} : Js.equals value t = true ↔ value = some (jsonString t) := by
  unfold Js.equals jsonString
  split
  · simp
  · rename_i hne
    constructor
    · intro h; cases h
    · intro h; exact absurd h (hne _)

theorem parseCursor_parseUint {t : String} {n : Nat} (h : parseUint t = some n) :
    parseCursor (some (jsonString t)) = some n ∧ trimSpace t = t := by
  unfold parseUint at h
  split at h
  · rename_i hc
    cases h
    have hall : ∀ c ∈ t.toList, c.isDigit = true := List.all_eq_true.mp hc.2.1
    constructor
    · have ht : Js.trimmedText (some (jsonString t)) = Js.trim t.toList := by simp only [jsonString, Js.trimmedText, Js.text]
      unfold parseCursor
      rw [ht, Js.trim_digits hall]
      exact if_pos ⟨hc.1, hc.2.1⟩
    · apply trimSpace_of_ends
      · intro c hm; exact isDigit_not_space (hall c (List.mem_of_head? hm))
      · intro c hm; exact isDigit_not_space (hall c (List.mem_of_getLast? hm))
  · cases h

theorem takes_text (h : TakesInv sub w wire s) {o : QueueOutbound} {message : JsonObject} {value : Json}
    (ho : o.payload = .text (some message)) (hp : Plain message) (hd : Describes message value)
    (hcomplete : Completes o w.cursor) (hw : wireMachine.step w o = some w') (identity : LogicalIdentity) :
    ∃ s', s.control (some value) identity = .ok s' ∧ TakesInv sub w' (wire ++ [o]) s' := by
  obtain ⟨⟨fields, rfl⟩, -, hget⟩ := hd
  have htext : o.isBinary = false := by unfold QueueOutbound.isBinary; rw [ho]
  have hb : binaries (wire ++ [o]) = binaries wire := by simp [binaries, htext]
  obtain ⟨t, ht, htrim⟩ := hp.type
  have htype : message.text "type" = t := by simp [JsonObject.text, ht, htrim]
  have hequals (name : String) : Js.equals ((Json.obj fields).get "type") name = decide (t = name) := by
    rw [Bool.eq_iff_iff, equals_iff, decide_eq_true_eq, (hget "type" t).mp ht, Option.some.injEq]
    simp [jsonString, String.toList_inj]
  rw [wire_step_text w htext] at hw
  cases hw
  by_cases hs : t = "history-replay-start"
  · subst hs
    obtain ⟨u, n, hu, hn⟩ := hp.start ht
    obtain ⟨hcur, hutrim⟩ := parseCursor_parseUint hn
    have hmark : o.cursorMark = some n := by
      rw [cursorMark_start ho htype]
      simp [JsonObject.cursor, JsonObject.text, hu, hutrim, hn]
    unfold LogicalStream.control
    simp only [hequals, decide_true, if_true, (hget "delta_from_cursor" u).mp hu, hcur]
    refine ⟨_, rfl, h.isOpen, h.generation, ?_, h.sequence, ?_⟩
    · rw [hmark]; rfl
    · rw [hb, ← h.payloads]
      simp [LogicalStream.dispatch, binaryPayloads]
  · have hmark : o.cursorMark = none := cursorMark_other ho (by rw [htype]; exact hs)
    have hsame : TakesInv sub { w with cursor := o.cursorMark.or w.cursor } (wire ++ [o]) s := by
      rw [hmark]
      exact ⟨h.isOpen, h.generation, h.cursor, h.sequence, by rw [hb]; exact h.payloads⟩
    by_cases hc : t = "history-replay-complete"
    · subst hc
      obtain ⟨u, n, hu, hn⟩ := hp.complete ht
      obtain ⟨hcur, hutrim⟩ := parseCursor_parseUint hn
      have hcursor : s.expectedCursor = some n := by
        rw [h.cursor, ← (hcomplete message ho htype).2]
        simp [JsonObject.cursor, JsonObject.text, hu, hutrim, hn]
      unfold LogicalStream.control
      simp only [hequals, decide_true, if_true, (hget "history_cursor" u).mp hu, hcur, hcursor]
      rw [if_neg (by decide)]
      refine ⟨_, rfl, hsame.isOpen, hsame.generation, hsame.cursor, hsame.sequence, ?_⟩
      rw [← hsame.payloads]
      simp [LogicalStream.dispatch, binaryPayloads]
    · exact takes_other hsame (by rw [hequals]; exact decide_eq_false hs) (by rw [hequals]; exact decide_eq_false hc) identity

end

/-! ## Whole runs -/

/-- The control `finishTurn` is answered with. -/
def queueTurnComplete (boundary : Nat × Nat) : Json :=
  .obj [
    ("applied_cursor".toList, jsonString (formatUint boundary.1)),
    ("applied_sequence".toList, jsonString (formatUint boundary.2)),
    ("type".toList, jsonString "queue-turn-complete")]

theorem takes_turn {sub : TerminalQueueSubscription} {w : WireState} {wire : List QueueOutbound} {s : LogicalStream}
    (h : TakesInv sub w wire s) (b : Nat × Nat) (identity : LogicalIdentity) :
    ∃ s', s.control (some (queueTurnComplete b)) identity = .ok s' ∧ TakesInv sub w wire s' :=
  takes_other h rfl rfl identity

/-- The message `writeOutbound` writes for an entry; for a text, around the value it is the text of. -/
def WritesOutbound (sub : TerminalQueueSubscription) (o : QueueOutbound) : QueueDelivery → Prop
  | .binary data => o.isBinary = true ∧ o.frame sub = some data
  | .paneControl message =>
    ∃ object value, o.payload = .text (some object) ∧ Describes object value ∧ message = paneControl sub value

/-- The messages written for these entries and turn boundaries, in any interleaving. -/
inductive Writes (sub : TerminalQueueSubscription) : List QueueOutbound → List (Nat × Nat) → List QueueDelivery → Prop
  | nil : Writes sub [] [] []
  | outbound {o os bs d ds} : WritesOutbound sub o d → Writes sub os bs ds → Writes sub (o :: os) bs (d :: ds)
  | turn {os b bs ds} : Writes sub os bs ds →
    Writes sub os (b :: bs) (.paneControl (paneControl sub (queueTurnComplete b)) :: ds)

/-- The connection takes a message, and reports no error. -/
def QueueConnection.Takes (c : QueueConnection) (d : QueueDelivery) : Prop :=
  (c.deliver d).2 = true ∧ (c.deliver d).1.protocolErrors = c.protocolErrors

def QueueConnection.TakesAll : QueueConnection → List QueueDelivery → Prop
  | _, [] => True
  | c, d :: ds => c.Takes d ∧ TakesAll (c.deliver d).1 ds

section
variable {sub : TerminalQueueSubscription} {c : QueueConnection} {s s' : LogicalStream}

theorem deliver_control (hv : sub.Valid) (hs : c.stream (streamKey sub.identity) = some s) (ho : s.readyState = .open)
    {value : Json} (hc : s.control (some value) sub.identity = .ok s') :
    c.Takes (.paneControl (paneControl sub value)) ∧
      (c.deliver (.paneControl (paneControl sub value))).1.stream (streamKey sub.identity) = some s' := by
  have hid : normalizeIdentity (paneControl sub value) = some sub.identity := normalizeIdentity_valid hv rfl rfl rfl
  have hd : c.deliver (.paneControl (paneControl sub value)) = (c.setStream (streamKey sub.identity) s', true) := by
    simp only [QueueConnection.deliver, QueueConnection.routePaneControl, hid, hs, ho, ne_eq, not_true_eq_false, if_false,
      paneControl_payload, hc, QueueConnection.settle]
  unfold QueueConnection.Takes
  rw [hd]
  exact ⟨⟨rfl, rfl⟩, QueueConnection.stream_setStream hs⟩

theorem deliver_frame (hv : sub.Valid) (hs : c.stream (streamKey sub.identity) = some s) (ho : s.readyState = .open)
    {o : QueueOutbound} {data : Bytes} (hf : o.frame sub = some data)
    (hb : s.binary (o.header sub).json o.data sub.identity = .ok s') :
    c.Takes (.binary data) ∧ (c.deliver (.binary data)).1.stream (streamKey sub.identity) = some s' := by
  have hid : normalizeIdentity (o.header sub).json = some sub.identity :=
    normalizeIdentity_valid hv (header_pane_id o sub) (header_stream_id o sub) (header_channel_generation o sub)
  have hd : c.deliver (.binary data) = (c.setStream (streamKey sub.identity) s', true) := by
    simp only [QueueConnection.deliver, QueueConnection.routeBinary, decode_encode hf, hid, hs, ho, ne_eq,
      not_true_eq_false, if_false, hb, QueueConnection.settle]
  unfold QueueConnection.Takes
  rw [hd]
  exact ⟨⟨rfl, rfl⟩, QueueConnection.stream_setStream hs⟩

/-- The browser takes all that is written for the entries of a wire. -/
theorem takes_writes (hv : sub.Valid) (before : List QueueOutbound) {os : List QueueOutbound} {bs : List (Nat × Nat)} {ds : List QueueDelivery}
    (hds : Writes sub os bs ds) {w w' : WireState} (hrun : wireMachine.run w os = some w') (hw : w.cursor = cursorAfter before)
    (htexts : ∀ o ∈ os, PlainText o)
    (hcompletes : ∀ mid o after, os = mid ++ o :: after → Completes o (cursorAfter (before ++ mid)))
    (hsafe : ∀ o ∈ binaries os, o.binarySequence ≤ Js.maxSafeInteger)
    (hs : c.stream (streamKey sub.identity) = some s) (h : TakesInv sub w before s) :
    c.TakesAll ds ∧ ∃ s', (c.deliverAll ds).stream (streamKey sub.identity) = some s' ∧
      TakesInv sub w' (before ++ os) s' := by
  induction hds generalizing before w c s with
  | nil => rw [Machine.run_nil] at hrun; cases hrun; exact ⟨trivial, s, hs, by rwa [List.append_nil]⟩
  | @outbound o os bs d ds ho _ ih =>
    obtain ⟨v, hstep, hrest⟩ := Machine.run_cons _ hrun
    have hnext : v.cursor = cursorAfter (before ++ [o]) := by
      rw [wire_step_cursor hstep, hw]
      simp [cursorAfter, List.foldl_append]
    have htaken : ∃ s', c.Takes d ∧ (c.deliver d).1.stream (streamKey sub.identity) = some s' ∧
        TakesInv sub v (before ++ [o]) s' := by
      cases d with
      | binary data =>
        obtain ⟨hb, hf⟩ := ho
        obtain ⟨s', hbin, hinv⟩ := takes_binary h hb hstep (hsafe o (by simp [binaries, hb])) sub.identity
        obtain ⟨ht, hs'⟩ := deliver_frame hv hs h.isOpen hf hbin
        exact ⟨s', ht, hs', hinv⟩
      | paneControl message =>
        obtain ⟨object, value, hp, hd, rfl⟩ := ho
        obtain ⟨m, hm, hplain⟩ := htexts o (List.mem_cons_self ..) _ hp
        cases hm
        have hcomplete : Completes o w.cursor := by
          rw [hw]
          simpa using hcompletes [] o os rfl
        obtain ⟨s', hc, hinv⟩ := takes_text h hp hplain hd hcomplete hstep sub.identity
        obtain ⟨ht, hs'⟩ := deliver_control hv hs h.isOpen hc
        exact ⟨s', ht, hs', hinv⟩
    obtain ⟨s', ht, hs', hinv⟩ := htaken
    have hlater := ih (before ++ [o]) hrest hnext (fun p hp => htexts p (List.mem_cons_of_mem _ hp))
      (by
        intro mid p after he
        rw [List.append_assoc]
        exact hcompletes (o :: mid) p after (by rw [he]; rfl))
      (fun p hp => hsafe p (by
        unfold binaries at hp ⊢
        rw [List.filter_cons]
        split
        · exact List.mem_cons_of_mem _ hp
        · exact hp)) hs' hinv
    rw [List.append_assoc] at hlater
    exact ⟨⟨ht, hlater.1⟩, hlater.2⟩
  | @turn os b bs ds _ ih =>
    obtain ⟨s', hc, hinv⟩ := takes_turn h b sub.identity
    obtain ⟨ht, hs'⟩ := deliver_control hv hs h.isOpen (show s.control (some (queueTurnComplete b)) sub.identity = .ok s' from hc)
    have hlater := ih before hrun hw htexts hcompletes hsafe hs' hinv
    exact ⟨⟨ht, hlater.1⟩, hlater.2⟩

end

/-- The text of a control is read back as the control. -/
theorem parse_writes {sub : TerminalQueueSubscription} {os : List QueueOutbound} {bs : List (Nat × Nat)}
    {ds : List QueueDelivery} (h : Writes sub os bs ds) {message : Json} (hm : .paneControl message ∈ ds) :
    Json.parse message.marshal = some message := by
  have numeric {value : Json} (hv : value.Numeric) : (paneControl sub value).Numeric := by
    simp [paneControl, Json.Numeric, Json.NumericFields, jsonString, numeric_jsonUint, hv]
  induction h with
  | nil => cases hm
  | @outbound o os bs d ds ho _ ih =>
    rcases List.mem_cons.mp hm with rfl | hm
    · obtain ⟨_, value, -, ⟨-, hv, -⟩, rfl⟩ := ho
      exact Json.parse_marshal (numeric hv)
    · exact ih hm
  | @turn os b bs ds _ ih =>
    rcases List.mem_cons.mp hm with hm | hm
    · cases hm
      apply Json.parse_marshal (numeric ?_)
      simp [queueTurnComplete, Json.Numeric, Json.NumericFields, jsonString]
    · exact ih hm

theorem describes_pair {a b : String} (h : a ≠ b) (s t : String) :
    Describes [(a, .str s), (b, .str t)] (.obj [(a.toList, jsonString s), (b.toList, jsonString t)]) := by
  refine ⟨⟨_, rfl⟩, by simp [Json.Numeric, Json.NumericFields, jsonString], ?_⟩
  intro key u
  have hne : b.toList ≠ a.toList := fun he => h (String.toList_inj.mp he.symm)
  simp only [JsonObject.get, Json.get, List.reverse_cons, List.reverse_nil, List.nil_append, List.cons_append,
    List.lookup_cons, List.lookup_nil]
  by_cases ha : key = a
  · subst ha
    have hb : (key.toList == b.toList) = false := by simp [Ne.symm hne]
    simp [hb, jsonString, String.toList_inj]
  · by_cases hb : key = b
    · subst hb
      have ha' : (key == a) = false := by simp [ha]
      simp [ha', jsonString, String.toList_inj]
    · have ha' : (key == a) = false := by simp [ha]
      have hb' : (key == b) = false := by simp [hb]
      have hla : (key.toList == a.toList) = false := by simp [ha, String.toList_inj]
      have hlb : (key.toList == b.toList) = false := by simp [hb, String.toList_inj]
      simp [ha', hb', hla, hlb]

/-- A replay of three bytes, and the turn's boundary. -/
def replayTurnEvents : List QueueEvent :=
  [.capacity, .agentText { message := some [("type", .str "history-replay-start"), ("delta_from_cursor", .str "5")], size := 10 },
    .readerStep, .readerStep, .readerStep, .capacity, .agentBinary [1, 2, 3], .readerStep, .readerStep, .readerStep,
    .readerStep, .readerStep, .beginTurn, .pop false, .pop true, .finishTurn, .notify]

def openedStream : LogicalStream where
  identity := ⟨['p'], ['s'], 1⟩
  historyGeneration := []
  readyState := .open

/-- A browser that has just opened a stream. -/
def openedConnection : QueueConnection where
  logicalStreams := [("p\x00s\x001".toList, openedStream)]

def openedSubscription : TerminalQueueSubscription where
  paneID := "p"
  streamID := "s"
  channelGeneration := 1

theorem openedSubscription_valid : openedSubscription.Valid where
  paneID := ⟨⟨by decide, by decide⟩, fun c hc => by rw [List.mem_singleton.mp (show c ∈ ['p'] from hc)]; decide⟩
  streamID := ⟨⟨by decide, by decide⟩, fun c hc => by rw [List.mem_singleton.mp (show c ∈ ['s'] from hc)]; decide⟩
  generation := by decide

def replayEntry (cursor : String) : QueueOutbound where
  sequence := 1
  payload := .text (some [("type", .str "history-replay-start"), ("delta_from_cursor", .str cursor)])
  byteCost := 10

def replayedEntry : QueueOutbound where
  sequence := 2
  binarySequence := 1
  payload := .binary [1, 2, 3]
  startCursor := 5
  endCursor := 8
  byteCost := 3

/-- The text the agent starts its replay with, as the browser reads it. -/
def replayValue (cursor : String) : Json :=
  .obj [("type".toList, jsonString "history-replay-start"), ("delta_from_cursor".toList, jsonString cursor)]

theorem describes_replay (cursor : String) :
    Describes [("type", .str "history-replay-start"), ("delta_from_cursor", .str cursor)] (replayValue cursor) :=
  describes_pair (by decide) _ _

/-- An agent's text with a blank cursor, relayed as it is. -/
def blankReplayEvents : List QueueEvent :=
  [.capacity, .agentText { message := some [("type", .str "history-replay-start"), ("delta_from_cursor", .str "")], size := 10 },
    .readerStep, .readerStep, .readerStep, .beginTurn, .pop true]

end Webshell
