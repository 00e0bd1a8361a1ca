import Webshell.QueueDelivered
import Webshell.AgentReplay

/-!
# A replay is taken by the queue

The reader of a queue stream gives the stream up on a completion that is not at
its cursor, and on output before it has one. In no interleaving does it find
that in frames that continue each other.
-/

namespace Webshell

open GoText

/-! ## Frames that continue each other -/

/-- A text that is neither the start nor the completion of a replay. -/
def Announces (payload : Json) : Prop :=
  ∃ t, payload.get "type" = some (jsonString t) ∧ trimSpace t = t ∧ t ≠ "history-replay-start" ∧ t ≠ "history-replay-complete"

inductive Continues : Option Nat → List AgentFrame → Prop
  | nil {cursor : Option Nat} : Continues cursor []
  | text {cursor : Option Nat} {payload : Json} {frames : List AgentFrame} (announced : Announces payload)
      (after : Continues cursor frames) : Continues cursor (.text payload :: frames)
  | start {cursor : Option Nat} {payload : Json} {frames : List AgentFrame} {n : Nat}
      (type : payload.get "type" = some (jsonString "history-replay-start"))
      (delta : payload.get "delta_from_cursor" = some (jsonCursor n)) (fits : n < uint64Limit)
      (after : Continues (some n) frames) : Continues cursor (.text payload :: frames)
  | complete {payload : Json} {frames : List AgentFrame} {n : Nat}
      (type : payload.get "type" = some (jsonString "history-replay-complete"))
      (history : payload.get "history_cursor" = some (jsonCursor n)) (fits : n < uint64Limit)
      (after : Continues (some n) frames) : Continues (some n) (.text payload :: frames)
  | binary {payload : Bytes} {frames : List AgentFrame} {n : Nat} (after : Continues (some (n + payload.length)) frames) :
      Continues (some n) (.binary payload :: frames)

theorem Continues.take {cursor : Option Nat} {frames sent : List AgentFrame} (h : Continues cursor frames)
    (hs : sent <+: frames) : Continues cursor sent := by
  induction h generalizing sent with
  | nil =>
    rw [List.prefix_nil.mp hs]
    exact .nil
  | text announced _ ih =>
    rcases List.prefix_cons_iff.mp hs with rfl | ⟨rest, rfl, hr⟩
    · exact .nil
    · exact .text announced (ih hr)
  | start type delta fits _ ih =>
    rcases List.prefix_cons_iff.mp hs with rfl | ⟨rest, rfl, hr⟩
    · exact .nil
    · exact .start type delta fits (ih hr)
  | complete type history fits _ ih =>
    rcases List.prefix_cons_iff.mp hs with rfl | ⟨rest, rfl, hr⟩
    · exact .nil
    · exact .complete type history fits (ih hr)
  | binary _ ih =>
    rcases List.prefix_cons_iff.mp hs with rfl | ⟨rest, rfl, hr⟩
    · exact .nil
    · exact .binary (ih hr)

theorem Continues.announced {before frames : List AgentFrame} {cursor : Option Nat}
    (hb : ∀ frame ∈ before, ∃ payload, frame = .text payload ∧ Announces payload) (h : Continues cursor frames) :
    Continues cursor (before ++ frames) := by
  induction before with
  | nil => exact h
  | cons frame before ih =>
    obtain ⟨payload, rfl, ha⟩ := hb frame (List.mem_cons_self ..)
    exact .text ha (ih fun f hf => hb f (List.mem_cons_of_mem _ hf))

theorem Continues.binaries {payloads : List Bytes} {frames : List AgentFrame} {n : Nat}
    (h : Continues (some (n + payloads.flatten.length)) frames) : Continues (some n) (payloads.map .binary ++ frames) := by
  induction payloads generalizing n with
  | nil => exact h
  | cons payload payloads ih =>
    apply Continues.binary
    apply ih
    rw [List.flatten_cons, List.length_append, ← Nat.add_assoc] at h
    exact h

/-- Output and announcements may follow at any cursor. -/
theorem Continues.live {frames : List AgentFrame} (hl : ∀ frame ∈ frames, ∀ payload, frame = .text payload → Announces payload)
    (n : Nat) : Continues (some n) frames := by
  induction frames generalizing n with
  | nil => exact .nil
  | cons frame frames ih =>
    have hrest := fun f hf => hl f (List.mem_cons_of_mem frame hf)
    cases frame with
    | text payload => exact .text (hl _ (List.mem_cons_self ..) payload rfl) (ih hrest n)
    | binary payload => exact .binary (ih hrest _)

/-! ## The same, as the reader sees it -/

def QueueEvent.ofAgent : QueueEvent → Bool
  | .agentText _ | .agentBinary _ => true
  | _ => false

/-- The frame as it comes out of the connection. -/
def Carries : AgentFrame → QueueEvent → Prop
  | .text payload, .agentText frame => ∃ message, frame.message = some message ∧ Describes message payload
  | .binary payload, .agentBinary data => data = payload
  | _, _ => False

/-- A text of the agent is taken at `cursor`, and leaves the reader at the second one. -/
def TextTaken (cursor : Option Nat) (frame : TextFrame) (after : Option Nat) : Prop :=
  match frame.message with
  | none => after = cursor
  | some message =>
    if message.text "type" = "history-replay-start" then after = (message.cursor "delta_from_cursor").or cursor
    else if message.text "type" = "history-replay-complete" then
      after = cursor ∧ ∃ n, cursor = some n ∧ message.cursor "history_cursor" = some n
    else after = cursor

/-- The reader takes all that the agent sends it among the events. -/
def Accepts : Option Nat → List QueueEvent → Prop
  | _, [] => True
  | cursor, .agentText frame :: es => ∃ after, TextTaken cursor frame after ∧ Accepts after es
  | cursor, .agentBinary payload :: es => ∃ n, cursor = some n ∧ Accepts (some (n + payload.length)) es
  | cursor, _ :: es => Accepts cursor es

theorem accepts_other {cursor : Option Nat} {e : QueueEvent} {es : List QueueEvent} (h : e.ofAgent = false) :
    Accepts cursor (e :: es) ↔ Accepts cursor es := by
  cases e with
  | agentText frame => cases h
  | agentBinary payload => cases h
  | _ => rfl

section Carried

variable {message : JsonObject} {payload : Json}

theorem describes_text (h : Describes message payload) {key t : String} (hk : payload.get key = some (jsonString t))
    (ht : trimSpace t = t) : message.text key = t := by
  unfold JsonObject.text
  rw [(h.2.2 key t).mpr hk]
  exact ht

theorem describes_cursor (h : Describes message payload) {key : String} {n : Nat} (hk : payload.get key = some (jsonCursor n))
    (hn : n < uint64Limit) : message.cursor key = some n := by
  have hparse := parseUint_formatUint hn
  unfold JsonObject.cursor
  rw [describes_text h hk (parseCursor_parseUint hparse).2]
  exact hparse

theorem textTaken_announced {cursor : Option Nat} {frame : TextFrame} (hm : frame.message = some message)
    (hd : Describes message payload) (ha : Announces payload) : TextTaken cursor frame cursor := by
  obtain ⟨t, ht, htrim, hstart, hcomplete⟩ := ha
  unfold TextTaken
  rw [hm]
  simp only [describes_text hd ht htrim, if_neg hstart, if_neg hcomplete]

end Carried

theorem accepts_carried {cursor : Option Nat} {frames : List AgentFrame} {es : List QueueEvent}
    (h : Continues cursor frames) (hc : List.Forall₂ Carries frames (es.filter QueueEvent.ofAgent)) : Accepts cursor es := by
  induction es generalizing cursor frames with
  | nil => trivial
  | cons e es ih =>
    cases he : e.ofAgent with
    | false =>
      rw [List.filter_cons_of_neg (by simp [he])] at hc
      exact (accepts_other he).mpr (ih h hc)
    | true =>
      rw [List.filter_cons_of_pos he] at hc
      cases hc with
      | cons hframe hrest =>
        cases h with
        | text announced after =>
          cases e with
          | agentText frame =>
            obtain ⟨message, hm, hd⟩ := hframe
            exact ⟨_, textTaken_announced hm hd announced, ih after hrest⟩
          | _ => exact hframe.elim
        | start type delta fits after =>
          cases e with
          | agentText frame =>
            obtain ⟨message, hm, hd⟩ := hframe
            refine ⟨_, ?_, ih after hrest⟩
            unfold TextTaken
            rw [hm]
            simp only [describes_text hd type (by decide), describes_cursor hd delta fits, if_true]
            rfl
          | _ => exact hframe.elim
        | complete type history fits after =>
          cases e with
          | agentText frame =>
            obtain ⟨message, hm, hd⟩ := hframe
            refine ⟨_, ?_, ih after hrest⟩
            unfold TextTaken
            rw [hm]
            have hne : ("history-replay-complete" : String) ≠ "history-replay-start" := by decide
            simp only [describes_text hd type (by decide), if_neg hne, if_true]
            exact ⟨trivial, _, rfl, describes_cursor hd history fits⟩
          | _ => exact hframe.elim
        | binary after =>
          cases e with
          | agentBinary data =>
            cases hframe
            exact ⟨_, rfl, ih after hrest⟩
          | _ => exact hframe.elim

/-! ## In every interleaving -/

/-- The reasons a reader gives up for when frames do not continue each other. -/
def Discontinuous (reason : String) : Prop :=
  reason = "queue history cursor is not continuous" ∨ reason = "queue output arrived before history cursor"

/-- Work that leaves the cursor alone and does not lead to giving up for one of these reasons. -/
def Calm : QueueWork → Prop
  | .enqueueText frame => ∃ (control : BrokerControl) (size : Nat), frame = control.frame size
  | .enqueueBinary _ => False
  | .overload reason => ¬ Discontinuous reason
  | _ => True

theorem exceeded_calm : Calm (.overload "queue pane buffer exceeded its limit") := by
  unfold Calm Discontinuous
  decide

theorem perform_calm {s : QueuePaneStream} {work : QueueWork} (h : Calm work) :
    (s.perform work).1.cursorAt = s.cursorAt ∧ ∀ next ∈ (s.perform work).2, Calm next := by
  cases work with
  | enqueueText frame =>
    obtain ⟨control, size, rfl⟩ := h
    obtain ⟨entry, he, -⟩ := enqueueText_brokerControl s control size
    simp only [QueuePaneStream.perform, he, List.mem_singleton, forall_eq]
    exact ⟨trivial, trivial⟩
  | enqueueBinary payload => exact h.elim
  | enqueueChunks start rest =>
    simp only [QueuePaneStream.perform, QueuePaneStream.enqueueChunks]
    split
    · exact ⟨rfl, fun _ hn => by cases hn⟩
    · refine ⟨rfl, fun next hn => ?_⟩
      simp only [List.mem_cons, List.not_mem_nil, or_false] at hn
      rcases hn with rfl | rfl <;> trivial
  | enqueue entry =>
    simp only [QueuePaneStream.perform, QueuePaneStream.enqueue]
    split
    · exact ⟨rfl, fun _ hn => by cases hn⟩
    · split
      · refine ⟨rfl, fun next hn => ?_⟩
        rw [List.mem_singleton.mp hn]
        exact exceeded_calm
      · refine ⟨rfl, fun next hn => ?_⟩
        rw [List.mem_singleton.mp hn]
        trivial
  | overload reason =>
    simp only [QueuePaneStream.perform, QueuePaneStream.overload]
    split
    · exact ⟨rfl, fun _ hn => by cases hn⟩
    · refine ⟨rfl, fun next hn => ?_⟩
      rw [List.mem_singleton.mp hn]
      trivial
  | signalWriter => exact ⟨rfl, fun _ hn => by cases hn⟩

/-- Nothing more is read: the stream is given up, or is about to be. -/
def Stuck (q : QueueRun) : Prop :=
  q.phase ≠ .reading ∧ (q.stream.Healthy → ∃ reason, .overload reason ∈ q.reader)

/-- What the reader has in hand is calm or a frame that is taken, and it takes what is to come. -/
inductive Reading (q : QueueRun) (es : List QueueEvent) : Prop
  | calm (works : ∀ work ∈ q.reader, Calm work) (next : Accepts q.stream.cursorAt es ∨ Stuck q)
  | text (frame : TextFrame) (after : Option Nat) (reader : q.reader = [.enqueueText frame])
      (taken : TextTaken q.stream.cursorAt frame after) (next : Accepts after es)
  | binary (payload : Bytes) (n : Nat) (reader : q.reader = [.enqueueBinary payload]) (waiting : q.phase ≠ .reading)
      (taken : q.stream.cursorAt = some n) (next : Accepts (some (n + payload.length)) es)

structure FedInv (q : QueueRun) (es : List QueueEvent) : Prop where
  controls : ∀ thread ∈ q.controls, ∀ work ∈ thread, Calm work
  reader : Reading q es

theorem enqueueText_taken {s : QueuePaneStream} {frame : TextFrame} {after : Option Nat} (h : TextTaken s.cursorAt frame after) :
    (s.enqueueText frame).1.cursorAt = after ∧ ∀ next ∈ (s.enqueueText frame).2, Calm next := by
  obtain ⟨message, size, encoded⟩ := frame
  unfold TextTaken at h
  have hone (entry : QueueOutbound) : ∀ next ∈ [QueueWork.enqueue entry], Calm next := by
    intro next hn
    rw [List.mem_singleton.mp hn]
    trivial
  cases message with
  | none =>
    simp only at h
    exact ⟨h.symm, hone _⟩
  | some message =>
    simp only at h
    unfold QueuePaneStream.enqueueText
    by_cases hstart : message.text "type" = "history-replay-start"
    · rw [if_pos hstart] at h
      have hcursor := (cursorAt_replayFrom s message).trans h.symm
      simp only [hstart, if_true]
      split
      · split
        · exact ⟨hcursor, hone _⟩
        · exact ⟨hcursor, hone _⟩
      · exact ⟨hcursor, hone _⟩
    · rw [if_neg hstart] at h
      simp only [if_neg hstart]
      by_cases hcomplete : message.text "type" = "history-replay-complete"
      · rw [if_pos hcomplete] at h
        obtain ⟨hafter, n, hn, hm⟩ := h
        have hat : s.hasCursor = true ∧ message.cursor "history_cursor" = some s.cursor := by
          unfold QueuePaneStream.cursorAt at hn
          split at hn
          · rename_i hc
            cases hn
            exact ⟨hc, hm⟩
          · cases hn
        rw [if_pos hcomplete, if_pos hat]
        exact ⟨hafter.symm, hone _⟩
      · rw [if_neg hcomplete] at h ⊢
        split
        · exact ⟨h.symm, hone _⟩
        · split
          · exact ⟨h.symm, hone _⟩
          · exact ⟨h.symm, hone _⟩

/-- Output at the cursor is cut up, or does not fit and is the last that is read. -/
theorem enqueueBinary_taken {s : QueuePaneStream} (payload : Bytes) {n : Nat} (h : s.cursorAt = some n) :
    (∀ next ∈ (s.enqueueBinary payload).2, Calm next) ∧
      ((s.enqueueBinary payload).1.cursorAt = some (n + payload.length) ∨
        ∃ reason, .overload reason ∈ (s.enqueueBinary payload).2) := by
  have hat : s.hasCursor = true ∧ s.cursor = n := by
    unfold QueuePaneStream.cursorAt at h
    split at h
    · rename_i hc
      cases h
      exact ⟨hc, rfl⟩
    · cases h
  unfold QueuePaneStream.enqueueBinary
  split
  · rename_i hp
    refine ⟨(fun _ hn => by cases hn), .inl ?_⟩
    rw [hp]
    exact h
  · rw [if_neg (by simp [hat.1])]
    split
    · refine ⟨fun next hn => ?_, .inr ⟨_, List.mem_singleton_self _⟩⟩
      rw [List.mem_singleton.mp hn]
      exact exceeded_calm
    · refine ⟨fun next hn => ?_, .inl ?_⟩
      · rw [List.mem_singleton.mp hn]
        trivial
      · simp only [QueuePaneStream.cursorAt, hat.1, hat.2, if_true]

theorem perform_unhealthy {s : QueuePaneStream} {work : QueueWork} (h : (s.perform work).1.Healthy) : s.Healthy := by
  rcases s.perform_cases work with ⟨_, _, _, _, hp⟩ | ⟨_, _, hh, _⟩ | ⟨_, _, hh, _⟩
  · rw [hp] at h
    exact h
  · exact hh
  · exact hh

theorem overload_unhealthy (s : QueuePaneStream) (reason : String) : ¬ (s.perform (.overload reason)).1.Healthy := by
  simp only [QueuePaneStream.perform, QueuePaneStream.overload]
  split
  · rename_i h
    rintro ⟨ha, ho⟩
    rw [ha, ho] at h
    rcases h with h | h <;> cases h
  · exact fun h => absurd h.2 (by simp [QueuePaneStream.giveUp])

/-- Only a wait for capacity lets the reader read. -/
theorem step_reading {q q' : QueueRun} {e : QueueEvent} (hs : queueMachine.step q e = some q') (hp : q'.phase = .reading) :
    q.phase = .reading ∨ q.reader = [] ∧ q.stream.Healthy := by
  cases e with
  | capacity =>
    simp only [queueMachine, QueueRun.capacity] at hs
    split at hs
    · rename_i hc
      exact .inr ⟨hc.1, hc.2.2.1, hc.2.2.2.1⟩
    · cases hs
  | agentText frame =>
    simp only [queueMachine, QueueRun.agentFrame] at hs
    split at hs <;> cases hs
    cases hp
  | agentBinary payload =>
    simp only [queueMachine, QueueRun.agentFrame] at hs
    split at hs <;> cases hs
    cases hp
  | readError err stderr selector size =>
    simp only [queueMachine, QueueRun.readError] at hs
    split at hs
    · split at hs <;> cases hs <;> cases hp
    · cases hs
  | readerStep =>
    simp only [queueMachine, QueueRun.readerStep] at hs
    split at hs <;> cases hs
    exact .inl hp
  | controlStep thread =>
    simp only [queueMachine, QueueRun.controlStep] at hs
    split at hs <;> cases hs
    exact .inl hp
  | acknowledgeTurn value =>
    simp only [queueMachine, QueueRun.acknowledgeTurn, Option.some.injEq] at hs
    split at hs <;> subst hs <;> exact .inl hp
  | beginTurn =>
    simp only [queueMachine, QueueRun.beginTurn] at hs
    split at hs
    · cases hs
    · split at hs <;> cases hs <;> exact .inl hp
  | pop timeUp =>
    simp only [queueMachine, QueueRun.popTurn] at hs
    split at hs
    · split at hs
      · split at hs <;> cases hs <;> exact .inl hp
      · cases hs
    · cases hs
  | finishTurn =>
    simp only [queueMachine, QueueRun.finishTurn] at hs
    split at hs
    · split at hs
      · split at hs <;> cases hs <;> exact .inl hp
      · cases hs
    · cases hs
  | notify =>
    simp only [queueMachine, QueueRun.notify] at hs
    split at hs <;> cases hs
    exact .inl hp
  | brokerControl control size => cases hs; exact .inl hp
  | setPriority priority => cases hs; exact .inl hp
  | registered => cases hs; exact .inl hp
  | deactivate => cases hs; exact .inl hp

namespace FedInv

variable {q q' : QueueRun} {es : List QueueEvent}

theorem start (flowControl : FlowControl) (limitBytes priority : Int) (h : Accepts none es) :
    FedInv (.start flowControl limitBytes priority) es where
  controls := fun _ h => by cases h
  reader := .calm (fun _ h => by cases h) (.inl h)

/-- A step that leaves the reader, its cursor and its turn alone. -/
theorem frame (h : FedInv q es) (hr : q'.reader = q.reader) (hcur : q'.stream.cursorAt = q.stream.cursorAt)
    (hp : q'.phase = .reading → q.phase = .reading ∨ q.reader = [] ∧ q.stream.Healthy)
    (hh : q'.stream.Healthy → q.stream.Healthy) (hc : ∀ thread ∈ q'.controls, ∀ work ∈ thread, Calm work) : FedInv q' es where
  controls := hc
  reader := by
    cases h.reader with
    | calm works next =>
      refine .calm (by rw [hr]; exact works) ?_
      rcases next with next | ⟨hphase, hover⟩
      · exact .inl (by rw [hcur]; exact next)
      · refine .inr ⟨fun hq => ?_, by rw [hr]; exact fun hq => hover (hh hq)⟩
        rcases hp hq with hq | ⟨hempty, hhealthy⟩
        · exact hphase hq
        · obtain ⟨reason, hm⟩ := hover hhealthy
          rw [hempty] at hm
          cases hm
    | text frame after reader taken next =>
      exact .text frame after (hr.trans reader) (by rw [hcur]; exact taken) next
    | binary payload n reader waiting taken next =>
      refine .binary payload n (hr.trans reader) (fun hq => ?_) (hcur.trans taken) next
      rcases hp hq with hq | ⟨hempty, -⟩
      · exact waiting hq
      · rw [reader] at hempty
        cases hempty

theorem still (h : FedInv q es) {e : QueueEvent} (hs : queueMachine.step q e = some q') (hst : Still q q') : FedInv q' es := by
  refine h.frame hst.reader hst.cursor (step_reading hs) hst.healthy ?_
  obtain ⟨more, hm, hmore⟩ := hst.controls
  rw [hm]
  intro thread ht
  rcases List.mem_append.mp ht with ht | ht
  · exact h.controls thread ht
  · rcases hmore thread ht with rfl | ⟨control, size, rfl⟩
    · intro work hw
      rw [List.mem_singleton.mp hw]
      trivial
    · intro work hw
      rw [List.mem_singleton.mp hw]
      exact ⟨control, size, rfl⟩

theorem controlStep (h : FedInv q es) {thread : Nat} (hs : q.controlStep thread = some q') : FedInv q' es := by
  unfold QueueRun.controlStep at hs
  split at hs
  · cases hs
  · cases hs
  · rename_i work works hw
    have hmem := h.controls _ (List.mem_of_getElem? hw)
    obtain ⟨hcur, hnext⟩ := perform_calm (s := q.stream) (hmem work (List.mem_cons_self ..))
    cases hs
    refine h.frame rfl hcur .inl perform_unhealthy fun t ht next hx => ?_
    rcases List.mem_or_eq_of_mem_set ht with ht | rfl
    · exact h.controls t ht next hx
    · rcases List.mem_append.mp hx with hx | hx
      · exact hnext next hx
      · exact hmem next (List.mem_cons_of_mem _ hx)

theorem readerStep (h : FedInv q es) (hs : q.readerStep = some q') : FedInv q' es := by
  unfold QueueRun.readerStep at hs
  split at hs
  · cases hs
  · rename_i work works hw
    cases hs
    refine ⟨h.controls, ?_⟩
    cases h.reader with
    | calm calm next =>
      rw [hw] at calm
      obtain ⟨hcur, hnext⟩ := perform_calm (s := q.stream) (calm work (List.mem_cons_self ..))
      refine .calm (fun x hx => ?_) ?_
      · rcases List.mem_append.mp hx with hx | hx
        · exact hnext x hx
        · exact calm x (List.mem_cons_of_mem _ hx)
      · rcases next with next | ⟨hphase, hover⟩
        · exact .inl (by simp only [hcur]; exact next)
        · refine .inr ⟨hphase, fun hq => ?_⟩
          obtain ⟨reason, hm⟩ := hover (perform_unhealthy hq)
          rw [hw] at hm
          rcases List.mem_cons.mp hm with rfl | hm
          · exact absurd hq (overload_unhealthy _ _)
          · exact ⟨reason, List.mem_append_right _ hm⟩
    | text frame after reader taken next =>
      rw [hw] at reader
      cases reader
      obtain ⟨hcur, hnext⟩ := enqueueText_taken taken
      refine .calm (fun x hx => hnext x (by rw [List.append_nil] at hx; exact hx)) (.inl ?_)
      simp only [QueuePaneStream.perform, hcur]
      exact next
    | binary payload n reader waiting taken next =>
      rw [hw] at reader
      cases reader
      obtain ⟨hnext, hcur⟩ := enqueueBinary_taken payload taken
      refine .calm (fun x hx => hnext x (by rw [List.append_nil] at hx; exact hx)) ?_
      rcases hcur with hcur | ⟨reason, hm⟩
      · left
        simp only [QueuePaneStream.perform, hcur]
        exact next
      · exact .inr ⟨waiting, fun _ => ⟨reason, List.mem_append_left _ hm⟩⟩

theorem readErrorText_taken {err stderr selector : String} {message : JsonObject} {size : Nat} (cursor : Option Nat)
    (h : q.readErrorText err stderr selector = some message) : TextTaken cursor { message := some message, size := size } cursor := by
  have hother {t : String} (ht : message.get "type" = some (.str t)) (hs : trimSpace t ≠ "history-replay-start")
      (hc : trimSpace t ≠ "history-replay-complete") : TextTaken cursor { message := some message, size := size } cursor := by
    have htext : message.text "type" = trimSpace t := by
      unfold JsonObject.text
      rw [ht]
    unfold TextTaken
    simp only [htext, if_neg hs, if_neg hc]
  unfold QueueRun.readErrorText at h
  split at h
  · split at h
    · cases h
      exact hother rfl (by decide) (by decide)
    · split at h
      · cases h
        exact hother rfl (by decide) (by decide)
      · cases h
  · split at h
    · cases h
      exact hother rfl (by decide) (by decide)
    · cases h

/-- An event that is not the agent's brings the reader nothing. -/
theorem other {e : QueueEvent} (he : e.ofAgent = false) (h : FedInv q (e :: es)) : FedInv q es where
  controls := h.controls
  reader := by
    cases h.reader with
    | calm works next => exact .calm works (next.imp_left (accepts_other he).mp)
    | text frame after reader taken next => exact .text frame after reader taken ((accepts_other he).mp next)
    | binary payload n reader waiting taken next => exact .binary payload n reader waiting taken ((accepts_other he).mp next)

/-- One that reads is not stuck. -/
theorem accepts (h : FedInv q es) (hr : q.reader = []) (hp : q.phase = .reading) : Accepts q.stream.cursorAt es := by
  cases h.reader with
  | calm works next =>
    rcases next with next | hstuck
    · exact next
    · exact absurd hp hstuck.1
  | text frame after reader taken next =>
    rw [hr] at reader
    cases reader
  | binary payload n reader waiting taken next => exact absurd hp waiting

theorem step {e : QueueEvent} (h : FedInv q (e :: es)) (hs : queueMachine.step q e = some q') : FedInv q' es := by
  cases e with
  | agentText frame =>
    simp only [queueMachine, QueueRun.agentFrame] at hs
    split at hs
    · rename_i hc
      obtain ⟨after, htaken, hafter⟩ := h.accepts hc.1 hc.2
      cases hs
      exact ⟨h.controls, .text frame after rfl htaken hafter⟩
    · cases hs
  | agentBinary payload =>
    simp only [queueMachine, QueueRun.agentFrame] at hs
    split at hs
    · rename_i hc
      obtain ⟨n, hcursor, hafter⟩ := h.accepts hc.1 hc.2
      cases hs
      exact ⟨h.controls, .binary payload n rfl (by simp) hcursor hafter⟩
    · cases hs
  | readError err stderr selector size =>
    have ho := other rfl h
    simp only [queueMachine, QueueRun.readError] at hs
    split at hs
    · rename_i hc
      have hnext := ho.accepts hc.1 hc.2
      split at hs
      · cases hs
        exact ⟨ho.controls, .calm (fun work hw => by rw [hc.1] at hw; cases hw) (.inl hnext)⟩
      · rename_i message hm
        cases hs
        exact ⟨ho.controls, .text _ _ rfl (readErrorText_taken _ hm) hnext⟩
    · cases hs
  | readerStep => exact (other rfl h).readerStep hs
  | controlStep thread => exact (other rfl h).controlStep hs
  | deactivate =>
    have ho := other rfl h
    cases hs
    exact ho.frame rfl rfl .inl (fun hq => absurd hq.1 (by simp [QueuePaneStream.deactivate])) ho.controls
  | capacity =>
    refine (other rfl h).still hs ?_
    simp only [queueMachine, QueueRun.capacity] at hs
    split at hs
    · cases hs; exact still_of rfl rfl rfl (fun hq => hq) rfl rfl rfl
    · cases hs
  | brokerControl control size =>
    refine (other rfl h).still hs ?_
    cases hs
    exact still_snoc rfl rfl rfl (fun hq => hq) rfl rfl rfl (.inr ⟨control, size, rfl⟩)
  | acknowledgeTurn value =>
    refine (other rfl h).still hs ?_
    simp only [queueMachine, Option.some.injEq] at hs
    exact hs ▸ acknowledgeTurn_still q value
  | setPriority priority =>
    refine (other rfl h).still hs ?_
    simp only [queueMachine, Option.some.injEq] at hs
    subst hs
    exact still_snoc rfl rfl rfl (fun hq => hq) rfl rfl rfl (.inl rfl)
  | registered =>
    refine (other rfl h).still hs ?_
    cases hs
    exact still_snoc rfl rfl rfl (fun hq => hq) rfl rfl rfl (.inl rfl)
  | beginTurn =>
    refine (other rfl h).still hs ?_
    simp only [queueMachine, QueueRun.beginTurn] at hs
    split at hs
    · cases hs
    · split at hs
      · cases hs; exact still_of rfl rfl rfl (fun hq => hq) rfl rfl rfl
      · cases hs; exact still_of rfl rfl rfl (fun hq => hq) rfl rfl rfl
  | pop timeUp => exact (other rfl h).still hs (popTurn_still hs)
  | finishTurn => exact (other rfl h).still hs (finishTurn_still hs)
  | notify =>
    refine (other rfl h).still hs ?_
    simp only [queueMachine, QueueRun.notify] at hs
    split at hs
    · cases hs; exact still_of rfl rfl rfl (fun hq => hq) rfl rfl rfl
    · cases hs

theorem run (h : FedInv q es) (hs : queueMachine.run q es = some q') : FedInv q' [] := by
  induction es generalizing q with
  | nil =>
    rw [Machine.run_nil] at hs
    cases hs
    exact h
  | cons e es ih =>
    obtain ⟨v, hv, hr⟩ := Machine.run_cons _ hs
    exact ih (h.step hv) hr

end FedInv

/-- No goroutine of the stream is about to give it up for a discontinuity. -/
def NeverDiscontinuous (q : QueueRun) : Prop :=
  ∀ reason, Discontinuous reason → .overload reason ∉ q.reader ∧ ∀ thread ∈ q.controls, .overload reason ∉ thread

theorem fed_continuous {flowControl : FlowControl} {limitBytes priority : Int} {es : List QueueEvent} {q : QueueRun}
    (hrun : queueMachine.run (.start flowControl limitBytes priority) es = some q) {frames : List AgentFrame}
    (hf : Continues none frames) {sent : List AgentFrame} (hp : sent <+: frames)
    (hc : List.Forall₂ Carries sent (es.filter QueueEvent.ofAgent)) : NeverDiscontinuous q := by
  have hfed := (FedInv.start flowControl limitBytes priority (accepts_carried (hf.take hp) hc)).run hrun
  intro reason hr
  refine ⟨fun hm => ?_, fun thread ht hm => hfed.controls thread ht _ hm hr⟩
  cases hfed.reader with
  | calm works next => exact works _ hm hr
  | text frame after reader taken next =>
    rw [reader] at hm
    cases List.mem_singleton.mp hm
  | binary payload n reader waiting taken next =>
    rw [reader] at hm
    cases List.mem_singleton.mp hm

end Webshell
