import Webshell.Logs
import Webshell.QueueReceiver
import Webshell.QueueWire

/-!
# What the browser presents

Whatever order the frames of a server stream arrive in, however often and with
however many of them missing, a logical stream presents the bytes of the server
stream from its replay cursor on, up to some frame.
-/

namespace Webshell

open GoText

/-! ## One delivery -/

namespace QueueConnection

theorem stream_setStream {c : QueueConnection} {key : List Char} {s s' : LogicalStream} (h : c.stream key = some s) :
    (c.setStream key s').stream key = some s' := by
  unfold stream setStream at *
  simp only
  generalize c.logicalStreams = streams at h
  induction streams with
  | nil => cases h
  | cons entry streams ih =>
    obtain ⟨k, t⟩ := entry
    by_cases hk : k = key
    · subst hk
      simp
    · have hne : (key == k) = false := by simp [Ne.symm hk]
      rw [List.lookup_cons, hne] at h
      rw [List.map_cons, if_neg hk, List.lookup_cons, hne]
      exact ih h

theorem stream_setStream_ne {c : QueueConnection} {key other : List Char} {s : LogicalStream} (h : key ≠ other) :
    (c.setStream other s).stream key = c.stream key := by
  unfold stream setStream
  simp only
  induction c.logicalStreams with
  | nil => rfl
  | cons entry streams ih =>
    obtain ⟨k, t⟩ := entry
    rw [List.map_cons, List.lookup_cons]
    by_cases hk : k = other
    · subst hk
      have hne : (key == k) = false := by simp [h]
      rw [if_pos rfl, List.lookup_cons, hne]
      exact ih
    · rw [if_neg hk, List.lookup_cons, ih]

theorem fail_stream {c : QueueConnection} {key : List Char} {s : LogicalStream} (h : c.stream key = some s)
    (message : String) : (c.failLogicalProtocol key s message).stream key = some s ∨
      (c.failLogicalProtocol key s message).stream key = some (s.dispatch (.failure message)) := by
  unfold failLogicalProtocol
  simp only
  split
  · exact .inl h
  · exact .inr (stream_setStream h)

theorem fail_stream_ne {c : QueueConnection} {key other : List Char} {s : LogicalStream} (h : key ≠ other)
    (message : String) : (c.failLogicalProtocol other s message).stream key = c.stream key := by
  unfold failLogicalProtocol
  simp only
  split
  · rfl
  · exact stream_setStream_ne h

/-- All that happens to a stream when another one, or itself, answers. -/
theorem settle_stream {c : QueueConnection} {key other : List Char} {s t : LogicalStream} (h : c.stream key = some s)
    (ht : c.stream other = some t) (answer : Except String LogicalStream) :
    ∃ s', (c.settle other t answer).1.stream key = some s' ∧
      (s' = s ∨ (∃ message, s' = s.dispatch (.failure message)) ∨ (other = key ∧ t = s ∧ answer = .ok s')) := by
  by_cases hk : key = other
  · subst hk
    obtain rfl : s = t := Option.some.inj (h.symm.trans ht)
    cases answer with
    | ok s' => exact ⟨s', stream_setStream h, .inr (.inr ⟨rfl, rfl, rfl⟩)⟩
    | error message =>
      rcases fail_stream h message with hf | hf
      · exact ⟨s, hf, .inl rfl⟩
      · exact ⟨_, hf, .inr (.inl ⟨message, rfl⟩)⟩
  · refine ⟨s, ?_, .inl rfl⟩
    cases answer with
    | ok t' => exact (stream_setStream_ne hk).trans h
    | error message => exact (fail_stream_ne hk message).trans h

/-- All that a delivery does to a stream: nothing, a failure, or what the stream answers. -/
theorem deliver_stream {c : QueueConnection} {key : List Char} {s : LogicalStream} (h : c.stream key = some s)
    (d : QueueDelivery) :
    ∃ s', (c.deliver d).1.stream key = some s' ∧
      (s' = s ∨ (∃ message, s' = s.dispatch (.failure message)) ∨
        (∃ message identity, d = .paneControl message ∧ s.control (message.get "payload") identity = .ok s') ∨
        ∃ data header payload identity, d = .binary data ∧
          decodeTerminalQueueBinaryFrame data = .ok (header, payload) ∧ s.binary header payload identity = .ok s') := by
  cases d with
  | paneControl message =>
    simp only [deliver, routePaneControl]
    split
    · exact ⟨s, h, .inl rfl⟩
    · rename_i identity _
      split
      · exact ⟨s, h, .inl rfl⟩
      · rename_i t ht
        split
        · exact ⟨s, h, .inl rfl⟩
        · obtain ⟨s', hs, rfl | hf | ⟨-, rfl, ha⟩⟩ := settle_stream h ht (t.control (message.get "payload") identity)
          · exact ⟨_, hs, .inl rfl⟩
          · exact ⟨s', hs, .inr (.inl hf)⟩
          · exact ⟨s', hs, .inr (.inr (.inl ⟨message, identity, rfl, ha⟩))⟩
  | binary data =>
    simp only [deliver, routeBinary]
    split
    · exact ⟨s, h, .inl rfl⟩
    · rename_i header payload hd
      split
      · exact ⟨s, h, .inl rfl⟩
      · rename_i identity _
        split
        · exact ⟨s, h, .inl rfl⟩
        · rename_i t ht
          split
          · exact ⟨s, h, .inl rfl⟩
          · obtain ⟨s', hs, rfl | hf | ⟨-, rfl, ha⟩⟩ := settle_stream h ht (t.binary header payload identity)
            · exact ⟨_, hs, .inl rfl⟩
            · exact ⟨s', hs, .inr (.inl hf)⟩
            · exact ⟨s', hs, .inr (.inr (.inr ⟨data, header, payload, identity, rfl, hd, ha⟩))⟩

end QueueConnection

namespace LogicalStream

/-- What an accepted control does to its stream. -/
theorem control_cases {s s' : LogicalStream} {payload : Option Json} {identity : LogicalIdentity}
    (h : s.control payload identity = .ok s') : ∃ p, payload = some p ∧
      ((Js.equals (p.get "type") "history-replay-start" = true ∧
          ∃ cursor, parseCursor (p.get "delta_from_cursor") = some cursor ∧
            s' = { s with expectedCursor := some cursor }.dispatch (.control p identity)) ∨
        (Js.equals (p.get "type") "history-replay-start" = false ∧
          (Js.equals (p.get "type") "history-replay-complete" = true →
            ∃ cursor, parseCursor (p.get "history_cursor") = some cursor ∧ s.expectedCursor = some cursor) ∧
          s' = s.dispatch (.control p identity))) := by
  unfold control at h
  simp only at h
  split at h
  · cases h
    exact ⟨_, rfl, .inr ⟨rfl, fun he => Bool.noConfusion he, rfl⟩⟩
  · rename_i fields
    refine ⟨_, rfl, ?_⟩
    split at h
    · rename_i hs
      split at h
      · cases h
      · rename_i cursor hc
        cases h
        exact .inl ⟨hs, cursor, hc, rfl⟩
    · rename_i hs
      right
      refine ⟨by simpa using hs, ?_⟩
      split at h
      · rename_i he
        split at h
        · cases h
        · rename_i cursor hc
          split at h
          · rename_i hx
            cases h
            exact ⟨fun _ => ⟨cursor, hc, hx⟩, rfl⟩
          · cases h
      · rename_i he
        cases h
        exact ⟨fun h => absurd h he, rfl⟩
  · cases h

/-- What an accepted frame does to its stream. -/
theorem binary_cases {s s' : LogicalStream} {header : Json} {payload : Bytes} {identity : LogicalIdentity}
    (h : s.binary header payload identity = .ok s') :
    ∃ startCursor endCursor sequenceMode expectedSequence metadata,
      parseCursor (header.get "start_cursor") = some startCursor ∧ parseCursor (header.get "end_cursor") = some endCursor ∧
      s.expectedCursor = some startCursor ∧
      s' = { s with
        sequenceMode := sequenceMode, expectedSequence := expectedSequence, expectedCursor := some endCursor }.dispatch
          (.binary payload metadata) := by
  unfold binary at h
  simp only at h
  split at h
  · cases h
  · split at h
    · rename_i startCursor endCursor hstart hend
      split at h
      · rename_i hc
        cases h
        exact ⟨startCursor, endCursor, _, _, _, hstart, hend, hc.2.2.1, rfl⟩
      · cases h
    · cases h

/-- The binary payloads among the events, in order. -/
def presentedBy (events : List Dispatched) : Bytes :=
  events.flatMap fun
    | .binary payload _ => payload
    | _ => []

/-- The bytes the stream has presented. -/
def presented (s : LogicalStream) : Bytes := presentedBy s.dispatched

theorem presented_dispatch (s : LogicalStream) (event : Dispatched) :
    (s.dispatch event).presented = s.presented ++ presentedBy [event] := by
  unfold presented presentedBy dispatch
  rw [List.flatMap_append]

end LogicalStream

/-! ## The frames of a server stream -/

/-- Entries as a server stream numbers them, from the cursor `start` on, the last with number `count`. -/
def Contiguous (start : Nat) : Nat → List QueueOutbound → Prop
  | _, [] => True
  | count, o :: entries =>
    o.data ≠ [] ∧ o.startCursor = start ∧ o.endCursor = start + o.data.length ∧ o.binarySequence = count + 1 ∧
      Contiguous (start + o.data.length) (count + 1) entries

theorem contiguous_at {start count : Nat} {entries : List QueueOutbound} (h : Contiguous start count entries)
    {before after : List QueueOutbound} {o : QueueOutbound} (ho : entries = before ++ o :: after) :
    o.data ≠ [] ∧ o.startCursor = start + (sentBytes before).length ∧ o.endCursor = o.startCursor + o.data.length := by
  induction before generalizing start count entries with
  | nil =>
    subst ho
    obtain ⟨hne, hs, he, -, -⟩ := h
    exact ⟨hne, by simpa [sentBytes] using hs, by rw [he, hs]⟩
  | cons b before ih =>
    subst ho
    obtain ⟨hne, hs, he⟩ := ih h.2.2.2.2 rfl
    refine ⟨hne, ?_, he⟩
    rw [hs, sentBytes, sentBytes, List.flatMap_cons, List.length_append]
    omega

theorem data_ne_nil {start count : Nat} {entries : List QueueOutbound} (h : Contiguous start count entries)
    {o : QueueOutbound} (ho : o ∈ entries) : o.data ≠ [] := by
  obtain ⟨before, after, he⟩ := List.append_of_mem ho
  exact (contiguous_at h he).1

/-- As many bytes, as many entries: none is empty. -/
theorem cut_unique {entries before after before' after' : List QueueOutbound} (hne : ∀ o ∈ entries, o.data ≠ [])
    (h : entries = before ++ after) (h' : entries = before' ++ after')
    (hl : (sentBytes before).length = (sentBytes before').length) : before = before' := by
  have none_left : ∀ {short long : List QueueOutbound}, short <+: long → (∀ o ∈ long, o.data ≠ []) →
      (sentBytes short).length = (sentBytes long).length → short = long := by
    rintro short _ ⟨more, rfl⟩ hlong hlen
    rw [sentBytes_append, List.length_append] at hlen
    cases more with
    | nil => simp
    | cons o more =>
      have := List.length_pos_of_ne_nil (hlong o (by simp))
      rw [sentBytes, sentBytes, List.flatMap_cons, List.length_append] at hlen
      omega
  have hp : before <+: entries := ⟨after, h.symm⟩
  have hp' : before' <+: entries := ⟨after', h'.symm⟩
  rcases Nat.le_total before.length before'.length with hle | hle
  · exact none_left (List.prefix_of_prefix_length_le hp hp' hle) (fun o ho => hne o (hp'.subset ho)) hl
  · exact (none_left (List.prefix_of_prefix_length_le hp' hp hle) (fun o ho => hne o (hp.subset ho)) hl.symm).symm

@[simp] theorem parseCursor_formatUint (n : Nat) : parseCursor (some (jsonString (formatUint n))) = some n := by
  have htext (t : List Char) : parseCursor (some (.str t)) = Js.decimal (Js.trim t) := by
    simp only [parseCursor, Js.trimmedText, Js.text]
  unfold jsonString formatUint
  rw [htext, Nat.toList_repr, Js.trim_toDigits, Js.decimal_toDigits]

@[simp] theorem header_start_cursor (o : QueueOutbound) (sub : TerminalQueueSubscription) :
    (o.header sub).json.get "start_cursor" = some (jsonString (formatUint o.startCursor)) := by
  simp only [TerminalQueueBinaryHeader.json, Json.get]
  split <;> rfl

@[simp] theorem header_end_cursor (o : QueueOutbound) (sub : TerminalQueueSubscription) :
    (o.header sub).json.get "end_cursor" = some (jsonString (formatUint o.endCursor)) := by
  simp only [TerminalQueueBinaryHeader.json, Json.get]
  split <;> rfl

/-! ## Nothing but a prefix -/

section
variable (start : Nat) (entries : List QueueOutbound)

/-- Up to the completion `p`, all has been presented that lies before its cursor. -/
def CompletedAt (events : List Dispatched) (p : Json) : Prop :=
  ∃ cursor, parseCursor (p.get "history_cursor") = some cursor ∧ start ≤ cursor ∧
    cursor - start ≤ (sentBytes entries).length ∧
    LogicalStream.presentedBy events = (sentBytes entries).take (cursor - start)

/-- The stream has presented the bytes of the first entries, and expects the next. -/
structure PresentInv (s : LogicalStream) : Prop where
  upTo : ∃ before after, entries = before ++ after ∧ s.presented = sentBytes before ∧
    (s.expectedCursor = none ∨ s.expectedCursor = some (start + (sentBytes before).length))
  completed : ∀ before p identity after, s.dispatched = before ++ .control p identity :: after →
    Js.equals (p.get "type") "history-replay-complete" = true → CompletedAt start entries before p

variable {start entries}

/-- Events that are no completions leave the completions as they are. -/
theorem completed_dispatch {s : LogicalStream} (h : PresentInv start entries s) {event : Dispatched}
    (he : ∀ p identity, event = .control p identity → Js.equals (p.get "type") "history-replay-complete" = true →
      CompletedAt start entries s.dispatched p) :
    ∀ before p identity after, s.dispatched ++ [event] = before ++ .control p identity :: after →
      Js.equals (p.get "type") "history-replay-complete" = true → CompletedAt start entries before p := by
  have hall : ∀ before (e : Json × LogicalIdentity) after, s.dispatched ++ [event] = before ++ .control e.1 e.2 :: after →
      Js.equals (e.1.get "type") "history-replay-complete" = true → CompletedAt start entries before e.1 :=
    Log.concat_kind (fun before e after => h.completed before e.1 e.2 after) fun e hm => he e.1 e.2 hm
  exact fun before p identity after hd => hall before (p, identity) after hd

theorem PresentInv.failure {s : LogicalStream} (h : PresentInv start entries s) (message : String) :
    PresentInv start entries (s.dispatch (.failure message)) where
  upTo := by
    obtain ⟨before, after, he, hp, hc⟩ := h.upTo
    exact ⟨before, after, he, by rw [LogicalStream.presented_dispatch, hp]; simp [LogicalStream.presentedBy], hc⟩
  completed := completed_dispatch h fun _ _ he => by cases he

theorem PresentInv.control {s s' : LogicalStream} (h : PresentInv start entries s) {payload : Option Json}
    {identity : LogicalIdentity} (hs : s.control payload identity = .ok s')
    (hn : ∀ p, payload = some p → Js.equals (p.get "type") "history-replay-start" = false) :
    PresentInv start entries s' := by
  obtain ⟨p, rfl, ⟨ht, -⟩ | ⟨-, hcomplete, rfl⟩⟩ := LogicalStream.control_cases hs
  · rw [hn p rfl] at ht
    cases ht
  · obtain ⟨before, after, he, hp, hc⟩ := h.upTo
    constructor
    · exact ⟨before, after, he, by rw [LogicalStream.presented_dispatch, hp]; simp [LogicalStream.presentedBy], hc⟩
    · apply completed_dispatch h
      intro q _ hq ht
      cases hq
      obtain ⟨cursor, hcur, hx⟩ := hcomplete ht
      -- the stream expects a cursor, so it is the one behind `before`
      rcases hc with hc | hc
      · rw [hc] at hx
        cases hx
      · obtain rfl : start + (sentBytes before).length = cursor := Option.some.inj (hc.symm.trans hx)
        refine ⟨_, hcur, Nat.le_add_right .., ?_, ?_⟩
        · rw [he, sentBytes_append, List.length_append]
          omega
        · show s.presented = _
          rw [hp, he, sentBytes_append, Nat.add_sub_cancel_left, List.take_left]

theorem PresentInv.binary {s s' : LogicalStream} (h : PresentInv start entries s) {count : Nat}
    (hg : Contiguous start count entries) {o : QueueOutbound} (ho : o ∈ entries) {sub : TerminalQueueSubscription}
    {identity : LogicalIdentity} (hs : s.binary (o.header sub).json o.data identity = .ok s') :
    PresentInv start entries s' := by
  obtain ⟨startCursor, endCursor, _, _, _, hstart, hend, hx, rfl⟩ := LogicalStream.binary_cases hs
  rw [header_start_cursor, parseCursor_formatUint] at hstart
  rw [header_end_cursor, parseCursor_formatUint] at hend
  cases hstart
  cases hend
  obtain ⟨before, after, he, hp, hc⟩ := h.upTo
  obtain ⟨before', after', he'⟩ := List.append_of_mem ho
  obtain ⟨-, hos, hoe⟩ := contiguous_at hg he'
  -- only the entry behind `before` starts where the stream is
  have hcut : before = before' := by
    apply cut_unique (fun o ho => data_ne_nil hg ho) he he'
    rcases hc with hc | hc
    · rw [hc] at hx
      cases hx
    · have := Option.some.inj (hc.symm.trans hx)
      omega
  subst hcut
  constructor
  · refine ⟨before ++ [o], after', by rw [he', List.append_assoc]; rfl, ?_, .inr ?_⟩
    · rw [LogicalStream.presented_dispatch, sentBytes_append]
      show s.presented ++ _ = _
      rw [hp]
      simp [LogicalStream.presentedBy, sentBytes]
    · show some o.endCursor = _
      rw [hoe, hos, sentBytes_append, List.length_append]
      simp [sentBytes, Nat.add_assoc]
  · exact completed_dispatch h fun _ _ he => by cases he

end

/-- The deliveries after the replay start: frames of the server stream, and controls that start no replay. -/
def FromServer (sub : TerminalQueueSubscription) (entries : List QueueOutbound) : QueueDelivery → Prop
  | .binary data => ∃ o ∈ entries, o.frame sub = some data
  | .paneControl message =>
    ∀ payload, message.get "payload" = some payload → Js.equals (payload.get "type") "history-replay-start" = false

theorem present_deliver {start count : Nat} {entries : List QueueOutbound} {sub : TerminalQueueSubscription}
    (hg : Contiguous start count entries) {c : QueueConnection} {key : List Char} {s : LogicalStream}
    (hs : c.stream key = some s) (h : PresentInv start entries s) {d : QueueDelivery} (hd : FromServer sub entries d) :
    ∃ s', (c.deliver d).1.stream key = some s' ∧ PresentInv start entries s' := by
  obtain ⟨s', hs', rfl | ⟨message, rfl⟩ | ⟨message, identity, rfl, ha⟩ | ⟨data, header, payload, identity, rfl, hdec, ha⟩⟩ :=
    QueueConnection.deliver_stream hs d
  · exact ⟨_, hs', h⟩
  · exact ⟨_, hs', h.failure message⟩
  · exact ⟨s', hs', h.control ha hd⟩
  · obtain ⟨o, ho, hf⟩ := hd
    rw [decode_encode hf] at hdec
    cases hdec
    exact ⟨s', hs', h.binary hg ho ha⟩

/-- A stream that has just been opened. -/
def LogicalStream.Fresh (s : LogicalStream) : Prop :=
  s.expectedCursor = none ∧ s.expectedSequence = none ∧ s.sequenceMode = none ∧ s.dispatched = []

theorem presentInv_fresh {s : LogicalStream} (h : s.Fresh) (start : Nat) (entries : List QueueOutbound) :
    PresentInv start entries s where
  upTo := ⟨[], entries, rfl, by simp [LogicalStream.presented, LogicalStream.presentedBy, sentBytes, h.2.2.2], .inl h.1⟩
  completed := by
    intro before p identity after hd
    rw [h.2.2.2] at hd
    simp at hd

@[simp] theorem paneControl_payload (sub : TerminalQueueSubscription) (payload : Json) :
    (paneControl sub payload).get "payload" = some payload := rfl

theorem equals_unique {value : Option Json} {a b : String} (ha : Js.equals value a = true)
    (hb : Js.equals value b = true) : a = b := by
  unfold Js.equals at ha hb
  split at ha
  · simp only [decide_eq_true_eq] at ha hb
    exact String.toList_inj.mp (ha.symm.trans hb)
  · cases ha

/-- The replay start puts the stream at its cursor. -/
theorem presentInv_start {s s' : LogicalStream} (hf : s.Fresh) {replay : Json} {start : Nat}
    (hr : Js.equals (replay.get "type") "history-replay-start" = true)
    (hc : parseCursor (replay.get "delta_from_cursor") = some start) {identity : LogicalIdentity}
    (hs : s.control (some replay) identity = .ok s') (entries : List QueueOutbound) : PresentInv start entries s' := by
  obtain ⟨p, hp, ⟨-, cursor, hcur, rfl⟩ | ⟨hn, -⟩⟩ := LogicalStream.control_cases hs
  · cases hp
    obtain rfl : start = cursor := Option.some.inj (hc.symm.trans hcur)
    have hevents : ({ s with expectedCursor := some start }.dispatch (.control replay identity)).dispatched =
        [.control replay identity] := by simp [LogicalStream.dispatch, hf.2.2.2]
    constructor
    · exact ⟨[], entries, rfl, by simp [LogicalStream.presented, hevents, LogicalStream.presentedBy, sentBytes], .inr rfl⟩
    · intro before p _ after hd ht
      rw [hevents] at hd
      cases before with
      | nil =>
        cases hd
        exact absurd (equals_unique hr ht) (by decide)
      | cons b before => simp at hd
  · cases hp
    rw [hr] at hn
    cases hn

/-- Deliveries that drop, repeat and reorder the frames of a server stream after its replay start. -/
theorem presents_prefix {sub : TerminalQueueSubscription} {start : Nat} {entries : List QueueOutbound}
    (hg : Contiguous start 0 entries) {c : QueueConnection} {key : List Char} {s : LogicalStream}
    (hs : c.stream key = some s) (hf : s.Fresh) {replay : Json}
    (hr : Js.equals (replay.get "type") "history-replay-start" = true)
    (hc : parseCursor (replay.get "delta_from_cursor") = some start) {ds : List QueueDelivery}
    (hd : ∀ d ∈ ds, FromServer sub entries d) :
    ∃ s', (c.deliverAll (.paneControl (paneControl sub replay) :: ds)).stream key = some s' ∧
      s'.presented <+: sentBytes entries ∧
      ∀ before p identity after, s'.dispatched = before ++ .control p identity :: after →
        Js.equals (p.get "type") "history-replay-complete" = true → CompletedAt start entries before p := by
  have hstart : ∃ s', (c.deliver (.paneControl (paneControl sub replay))).1.stream key = some s' ∧
      PresentInv start entries s' := by
    have hfresh := presentInv_fresh hf start entries
    obtain ⟨s', hs', rfl | ⟨message, rfl⟩ | ⟨message, identity, hm, ha⟩ | ⟨_, _, _, _, hm, -⟩⟩ :=
      QueueConnection.deliver_stream hs (.paneControl (paneControl sub replay))
    · exact ⟨_, hs', hfresh⟩
    · exact ⟨_, hs', hfresh.failure message⟩
    · cases hm
      rw [paneControl_payload] at ha
      exact ⟨s', hs', presentInv_start hf hr hc ha entries⟩
    · cases hm
  have hall : ∀ (ds : List QueueDelivery) (c : QueueConnection), (∀ d ∈ ds, FromServer sub entries d) →
      (∃ s, c.stream key = some s ∧ PresentInv start entries s) →
      ∃ s, (c.deliverAll ds).stream key = some s ∧ PresentInv start entries s := by
    intro ds
    induction ds with
    | nil => exact fun _ _ h => h
    | cons d ds ih =>
      rintro c hd ⟨s, hs, hi⟩
      exact ih _ (fun e he => hd e (List.mem_cons_of_mem _ he)) (present_deliver hg hs hi (hd d (List.mem_cons_self ..)))
  obtain ⟨s', hs', hi⟩ := hall ds _ hd hstart
  obtain ⟨before, after, he, hp, -⟩ := hi.upTo
  exact ⟨s', hs', by rw [hp, he, sentBytes_append]; exact List.prefix_append .., hi.completed⟩

/-- Two frames, the second first, the first twice, and a completion between. -/
theorem presents_prefix_shuffled :
    let sub : TerminalQueueSubscription := { paneID := "p", streamID := "s", channelGeneration := 1 }
    let first : QueueOutbound := {
      payload := .binary [104], startCursor := 5, endCursor := 6, binarySequence := 1, byteCost := 1 }
    let second : QueueOutbound := {
      payload := .binary [105, 106], startCursor := 6, endCursor := 8, binarySequence := 2, byteCost := 2 }
    let replay : Json := .obj [
      ("type".toList, jsonString "history-replay-start"), ("delta_from_cursor".toList, jsonString "5")]
    let complete : Json := .obj [
      ("type".toList, jsonString "history-replay-complete"), ("history_cursor".toList, jsonString "6")]
    let c : QueueConnection := { logicalStreams := [("p\x00s\x001".toList,
      { identity := ⟨['p'], ['s'], 1⟩, historyGeneration := [], readyState := .open })] }
    let frames := [second, first, first, second].filterMap fun o => (o.frame sub).map QueueDelivery.binary
    ∃ s, (c.deliverAll (.paneControl (paneControl sub replay) ::
        (frames ++ [.paneControl (paneControl sub complete)]))).stream "p\x00s\x001".toList = some s ∧
      s.presented <+: [104, 105, 106] := by
  intro sub first second replay complete c frames
  obtain ⟨s, hs, hp, -⟩ := @ presents_prefix sub 5 [first, second]
    (by simp [Contiguous, first, second, QueueOutbound.data]) c "p\x00s\x001".toList _ rfl ⟨rfl, rfl, rfl, rfl⟩ replay rfl
    (parseCursor_formatUint 5) (frames ++ [.paneControl (paneControl sub complete)]) (by
      intro d hd
      rcases List.mem_append.mp hd with hd | hd
      · obtain ⟨o, ho, hf⟩ := List.mem_filterMap.mp hd
        obtain ⟨data, hdata, rfl⟩ := Option.map_eq_some_iff.mp hf
        exact ⟨o, by simp at ho ⊢; tauto, hdata⟩
      · cases List.mem_singleton.mp hd
        intro payload hp
        rw [paneControl_payload] at hp
        cases hp
        decide)
  exact ⟨s, hs, hp⟩

end Webshell
