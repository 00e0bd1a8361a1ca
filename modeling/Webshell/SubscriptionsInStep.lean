import Webshell.SubscribedView

/-!
# Browser and broker stay in step

What is in flight is folded over the broker's view: on the result the
connection's own records are true, whatever is handled next. Once nothing is
in flight the two sides agree.
-/

namespace Webshell

open GoText

/-! ## Messages in flight -/

namespace BrokerView

/-- The view once the messages are handled. -/
def after (v : BrokerView) (messages : List TerminalQueueClientMessage) : BrokerView := messages.foldl handle v

def TakesAll (limit : Int) : BrokerView → List TerminalQueueClientMessage → Prop
  | _, [] => True
  | v, message :: rest => v.Takes limit message ∧ TakesAll limit (v.handle message) rest

theorem after_append (v : BrokerView) (l r : List TerminalQueueClientMessage) : v.after (l ++ r) = (v.after l).after r :=
  List.foldl_append

theorem takesAll_append {limit : Int} {l r : List TerminalQueueClientMessage} {v : BrokerView} (hl : v.TakesAll limit l)
    (hr : (v.after l).TakesAll limit r) : v.TakesAll limit (l ++ r) := by
  induction l generalizing v with
  | nil => exact hr
  | cons message l ih => exact ⟨hl.1, ih hl.2 hr⟩

theorem prioritized_same (v : BrokerView) (paneID : String) (priority : Int) :
    v.prioritized paneID priority paneID =
      (v paneID).map fun a => { a with priority := clampTerminalStreamPriority priority } := if_pos rfl

theorem prioritized_other (v : BrokerView) {paneID other : String} (priority : Int) (h : other ≠ paneID) :
    v.prioritized paneID priority other = v other := if_neg h

/-- A priority leaves every identity. -/
theorem prioritized_streamID {v : BrokerView} {paneID other : String} {priority : Int} {a : ActiveStream}
    (h : v.prioritized paneID priority other = some a) : ∃ a', v other = some a' ∧ a.streamID = a'.streamID := by
  unfold prioritized at h
  split at h
  · obtain ⟨a', ha, rfl⟩ := Option.map_eq_some_iff.mp h
    exact ⟨a', ha, rfl⟩
  · exact ⟨a, h, rfl⟩

end BrokerView

theorem clamp_normalize (priority : Int) :
    clampTerminalStreamPriority (normalizePriority priority) = clampTerminalStreamPriority priority := by
  unfold clampTerminalStreamPriority normalizePriority
  split_ifs <;> omega

theorem normalize_idem (priority : Int) : normalizePriority (normalizePriority priority) = normalizePriority priority := by
  unfold normalizePriority
  omega

/-! ## The connection's entries -/

/-- What the broker holds for the entry once it was told the priority. -/
def LogicalEntry.told (e : LogicalEntry) (priority : Int) : ActiveStream where
  streamID := e.subscription.streamID
  channelGeneration := e.subscription.channelGeneration
  priority := clampTerminalStreamPriority priority

structure Roster (limit : Int) (used : List String) (sockets : Nat) (entries : List LogicalEntry) : Prop where
  each : ∀ e ∈ entries, e.subscription.Accepted ∧ e.subscription.streamID ∈ used ∧ e.socket < sockets
  panes : (entries.map fun e => e.subscription.paneID).Nodup
  names : (entries.map LogicalEntry.socket).Nodup
  few : entries.length ≤ limit

/-- Only the priority of the subscription may change, and what is no part of it. -/
def KeepsIdentity (f : LogicalEntry → LogicalEntry) : Prop :=
  ∀ e, (f e).socket = e.socket ∧ ∃ priority, (f e).subscription = { e.subscription with priority := priority }

namespace Roster

variable {limit : Int} {used : List String} {sockets : Nat} {entries : List LogicalEntry} (h : Roster limit used sockets entries)

include h

theorem map {f : LogicalEntry → LogicalEntry} (hf : KeepsIdentity f) : Roster limit used sockets (entries.map f) where
  each x hx := by
    obtain ⟨e, he, rfl⟩ := List.mem_map.mp hx
    obtain ⟨hsocket, priority, hsub⟩ := hf e
    obtain ⟨ha, hu, hs⟩ := h.each e he
    rw [hsocket, hsub]
    exact ⟨ha.withPriority priority, hu, hs⟩
  panes := by
    rw [List.map_map]
    convert h.panes using 1
    exact List.map_congr_left fun e _ => by
      obtain ⟨-, priority, hsub⟩ := hf e
      rw [Function.comp_apply, hsub]
  names := by
    rw [List.map_map]
    convert h.names using 1
    exact List.map_congr_left fun e _ => (hf e).1
  few := by rw [List.length_map]; exact h.few

theorem filter (p : LogicalEntry → Bool) : Roster limit used sockets (entries.filter p) where
  each e he := h.each e (List.mem_filter.mp he).1
  panes := h.panes.sublist (List.filter_sublist.map _)
  names := h.names.sublist (List.filter_sublist.map _)
  few := by
    have := List.length_filter_le p entries
    have := h.few
    omega

theorem eq_of_socket {e e' : LogicalEntry} (he : e ∈ entries) (he' : e' ∈ entries) (hs : e.socket = e'.socket) : e = e' :=
  List.inj_on_of_nodup_map h.names he he' hs

theorem eq_of_pane {e e' : LogicalEntry} (he : e ∈ entries) (he' : e' ∈ entries)
    (hp : e.subscription.paneID = e'.subscription.paneID) : e = e' :=
  List.inj_on_of_nodup_map h.panes he he' hp

/-- The subscription that is listed for the pane of an entry is the entry's. -/
theorem find {e : LogicalEntry} (he : e ∈ entries) :
    (entries.map LogicalEntry.subscription).find? (fun s => s.paneID = e.subscription.paneID) = some e.subscription := by
  cases hf : (entries.map LogicalEntry.subscription).find? fun s => s.paneID = e.subscription.paneID with
  | none =>
    have hne := List.find?_eq_none.mp hf _ (List.mem_map_of_mem he)
    exact absurd (decide_eq_true rfl) hne
  | some s =>
    obtain ⟨e', he', rfl⟩ := List.mem_map.mp (List.mem_of_find?_eq_some hf)
    have hp : e'.subscription.paneID = e.subscription.paneID := by simpa using List.find?_some hf
    rw [h.eq_of_pane he' he hp]

end Roster

/-! ## The records -/

/-- Before the list is sent no entry is announced that no list has held. -/
def OpensAfter (entries : List LogicalEntry) : List Microtask → Prop
  | [] => True
  | .subscriptions :: _ => True
  | .opened socket :: rest => (∀ e ∈ entries, e.socket = socket → e.lastSentPriority ≠ none) ∧ OpensAfter entries rest

theorem OpensAfter.append {entries : List LogicalEntry} {tasks : List Microtask} (h : OpensAfter entries tasks)
    (hm : .subscriptions ∈ tasks) (more : List Microtask) : OpensAfter entries (tasks ++ more) := by
  induction tasks with
  | nil => cases hm
  | cons task tasks ih =>
    cases task with
    | subscriptions => trivial
    | opened socket =>
      rcases List.mem_cons.mp hm with hm | hm
      · cases hm
      · exact ⟨h.1, ih h.2 hm⟩

theorem OpensAfter.push {entries : List LogicalEntry} {tasks : List Microtask} (h : OpensAfter entries tasks) :
    OpensAfter entries (tasks ++ [.subscriptions]) := by
  induction tasks with
  | nil => trivial
  | cons task tasks ih =>
    cases task with
    | subscriptions => trivial
    | opened socket => exact ⟨h.1, ih h.2⟩

/-- Entries of which the queue names no other ones that no list has held. -/
theorem OpensAfter.mono {entries entries' : List LogicalEntry} {tasks : List Microtask} (h : OpensAfter entries tasks)
    (hm : ∀ e' ∈ entries', .opened e'.socket ∈ tasks → e'.lastSentPriority = none →
      ∃ e ∈ entries, e.socket = e'.socket ∧ e.lastSentPriority = none) : OpensAfter entries' tasks := by
  induction tasks with
  | nil => trivial
  | cons task tasks ih =>
    cases task with
    | subscriptions => trivial
    | opened socket =>
      refine ⟨fun e' he' hs hnone => ?_, ih h.2 fun e' he' ht => hm e' he' (List.mem_cons_of_mem _ ht)⟩
      obtain ⟨e, he, hes, hlast⟩ := hm e' he' (hs ▸ List.mem_cons_self ..) hnone
      exact h.1 e he (hes.trans hs) hlast

theorem OpensAfter.of_sent {entries : List LogicalEntry} (h : ∀ e ∈ entries, e.lastSentPriority ≠ none) :
    ∀ tasks : List Microtask, OpensAfter entries tasks
  | [] => trivial
  | .subscriptions :: _ => trivial
  | .opened _ :: rest => ⟨fun e he _ => h e he, OpensAfter.of_sent h rest⟩

theorem OpensAfter.of_quiet {entries : List LogicalEntry} : ∀ {tasks : List Microtask},
    (∀ socket, .opened socket ∉ tasks) → OpensAfter entries tasks
  | [], _ => trivial
  | .subscriptions :: _, _ => trivial
  | .opened socket :: _, h => absurd (List.mem_cons_self ..) (h socket)

/-- The priorities that an entry says were sent, true of the view `v` that the broker has once all is
handled. -/
structure Heard (limit : Int) (c : SubscribingConnection) (v : BrokerView) (used : List String) : Prop where
  roster : Roster limit used c.sockets c.logicalStreams
  known : ∀ paneID a, v paneID = some a → a.streamID ∈ used
  told : ∀ e ∈ c.logicalStreams, ∀ last, e.lastSentPriority = some last → v e.subscription.paneID = some (e.told last)
  untold : ∀ e ∈ c.logicalStreams, e.lastSentPriority = none → ∀ paneID a, v paneID = some a →
    a.streamID ≠ e.subscription.streamID
  opened : ∀ socket, .opened socket ∈ c.microtasks → socket < c.sockets

structure Records (limit : Int) (c : SubscribingConnection) (v : BrokerView) (used : List String) : Prop
    extends Heard limit c v used where
  early : c.physicalReadyState ≠ .open → (∀ paneID, v paneID = none) ∧
    (∀ e ∈ c.logicalStreams, e.lastSentPriority = none) ∧ ∀ socket, .opened socket ∉ c.microtasks
  queued : c.physicalReadyState = .open → c.subscriptionUpdatePending = true → .subscriptions ∈ c.microtasks
  order : OpensAfter c.logicalStreams c.microtasks
  announced : ∀ e ∈ c.logicalStreams, e.announced = true → e.lastSentPriority ≠ none

/-- With no update pending the list is the broker's. -/
def UpToDate (c : SubscribingConnection) (v : BrokerView) : Prop :=
  (∀ e ∈ c.logicalStreams, e.lastSentPriority = some (normalizePriority e.subscription.priority)) ∧
    ∀ paneID a, v paneID = some a → ∃ e ∈ c.logicalStreams, e.subscription.paneID = paneID

structure Agrees (limit : Int) (c : SubscribingConnection) (v : BrokerView) (used : List String) : Prop
    extends Records limit c v used where
  upToDate : c.physicalReadyState = .open → c.subscriptionUpdatePending = false → UpToDate c v

/-- A step sends messages that find what they are about, and leaves records that are true after them. -/
def Sends (limit : Int) (v : BrokerView) (used : List String) (c c' : SubscribingConnection) : Prop :=
  ∃ messages, c'.sent = c.sent ++ messages ∧ v.TakesAll limit messages ∧ Agrees limit c' (v.after messages) used

section
variable {limit : Int} {c c' : SubscribingConnection} {v : BrokerView} {used : List String}

theorem Agrees.silent (h : Agrees limit c' v used) (hs : c'.sent = c.sent) : Sends limit v used c c' :=
  ⟨[], by rw [hs, List.append_nil], trivial, h⟩

/-- What was said about the connection does not depend on what is in flight. -/
theorem Agrees.withSent (h : Agrees limit c v used) (sent : List TerminalQueueClientMessage) :
    Agrees limit { c with sent := sent } v used :=
  { h with }

theorem Records.schedule (h : Records limit c v used) : Agrees limit c.scheduleSubscriptionUpdate v used := by
  unfold SubscribingConnection.scheduleSubscriptionUpdate
  split
  · rename_i hp
    exact { h with upToDate := fun _ hn => by rw [hp] at hn; cases hn }
  · exact {
      h with
      early := fun ho => by
        obtain ⟨hv, he, hm⟩ := h.early ho
        exact ⟨hv, he, fun socket hs => (List.mem_append.mp hs).elim (hm socket) fun hs => by simp at hs⟩
      queued := fun _ _ => List.mem_append_right _ (List.mem_singleton.mpr rfl)
      order := h.order.push
      opened := fun socket hs => (List.mem_append.mp hs).elim (h.opened socket) fun hs => by simp at hs
      upToDate := fun _ hn => by cases hn }

theorem schedule_sent (c : SubscribingConnection) : c.scheduleSubscriptionUpdate.sent = c.sent := by
  unfold SubscribingConnection.scheduleSubscriptionUpdate
  split <;> rfl

theorem Agrees.ensure (h : Agrees limit c v used) : Agrees limit c.ensurePhysicalSocket v used := by
  unfold SubscribingConnection.ensurePhysicalSocket
  split
  · exact h
  · rename_i hclosed
    have ho : c.physicalReadyState ≠ .open := fun ho => hclosed (.inl ho)
    exact {
      h with
      early := fun _ => h.early ho
      queued := fun hc => by cases hc
      upToDate := fun hc => by cases hc }

/-! ## Opening and closing -/

theorem Roster.add {sockets : Nat} {entries : List LogicalEntry} (h : Roster limit used sockets entries) {e : LogicalEntry}
    (ha : e.subscription.Accepted) (hs : e.socket = sockets)
    (hp : ∀ x ∈ entries, x.subscription.paneID ≠ e.subscription.paneID) (hroom : entries.length < limit) :
    Roster limit (used ++ [e.subscription.streamID]) (sockets + 1) (entries ++ [e]) where
  each x hx := by
    rcases List.mem_append.mp hx with hx | hx
    · obtain ⟨ha, hu, hs⟩ := h.each x hx
      exact ⟨ha, List.mem_append_left _ hu, by omega⟩
    · rw [List.mem_singleton.mp hx]
      exact ⟨ha, List.mem_append_right _ (List.mem_singleton.mpr rfl), by omega⟩
  panes := by
    rw [List.map_append, List.nodup_append]
    refine ⟨h.panes, List.nodup_singleton _, fun a ha b hb he => ?_⟩
    obtain ⟨x, hx, rfl⟩ := List.mem_map.mp ha
    rw [List.map_singleton, List.mem_singleton] at hb
    exact hp x hx (he.trans hb)
  names := by
    rw [List.map_append, List.nodup_append]
    refine ⟨h.names, List.nodup_singleton _, fun a ha b hb he => ?_⟩
    obtain ⟨x, hx, rfl⟩ := List.mem_map.mp ha
    rw [List.map_singleton, List.mem_singleton] at hb
    have := (h.each x hx).2.2
    omega
  few := by
    rw [List.length_append, List.length_singleton]
    omega

theorem Records.add (h : Records limit c v used) {e : LogicalEntry} (ha : e.subscription.Accepted) (hs : e.socket = c.sockets)
    (hp : ∀ x ∈ c.logicalStreams, x.subscription.paneID ≠ e.subscription.paneID) (hroom : c.logicalStreams.length < limit)
    (hfresh : e.subscription.streamID ∉ used) (hlast : e.lastSentPriority = none) (hann : e.announced = false) :
    Records limit { c with logicalStreams := c.logicalStreams ++ [e], sockets := c.sockets + 1 } v
      (used ++ [e.subscription.streamID]) where
  roster := h.roster.add ha hs hp hroom
  known paneID a hv := List.mem_append_left _ (h.known paneID a hv)
  told x hx last hl := by
    rcases List.mem_append.mp hx with hx | hx
    · exact h.told x hx last hl
    · rw [List.mem_singleton.mp hx, hlast] at hl
      cases hl
  untold x hx hl paneID a hv := by
    rcases List.mem_append.mp hx with hx | hx
    · exact h.untold x hx hl paneID a hv
    · rw [List.mem_singleton.mp hx]
      exact fun he => hfresh (he ▸ h.known paneID a hv)
  early ho := by
    obtain ⟨hv, he, hm⟩ := h.early ho
    refine ⟨hv, fun x hx => ?_, hm⟩
    rcases List.mem_append.mp hx with hx | hx
    · exact he x hx
    · rw [List.mem_singleton.mp hx, hlast]
  queued := h.queued
  order := h.order.mono fun x hx ht hl => by
    rcases List.mem_append.mp hx with hx | hx
    · exact ⟨x, hx, rfl, hl⟩
    · rw [List.mem_singleton.mp hx, hs] at ht
      exact absurd (h.opened _ ht) (Nat.lt_irrefl _)
  opened socket hm := Nat.lt_succ_of_lt (h.opened socket hm)
  announced x hx hx' := by
    rcases List.mem_append.mp hx with hx | hx
    · exact h.announced x hx hx'
    · rw [List.mem_singleton.mp hx, hann] at hx'
      cases hx'

/-- A socket's own microtask comes after the one that sends the list. -/
theorem Agrees.pushOpened (h : Agrees limit c v used) {socket : Nat} (hs : socket < c.sockets)
    (ho : c.physicalReadyState = .open) (hm : .subscriptions ∈ c.microtasks) :
    Agrees limit { c with microtasks := c.microtasks ++ [.opened socket] } v used :=
  { h with
    early := fun hn => absurd ho hn
    queued := fun _ _ => List.mem_append_left _ hm
    order := h.order.append hm _
    opened := fun other hmem => (List.mem_append.mp hmem).elim (h.opened other) fun hmem => by
      rw [List.mem_singleton, Microtask.opened.injEq] at hmem
      exact hmem ▸ hs }

theorem schedule_pending (c : SubscribingConnection) : c.scheduleSubscriptionUpdate.subscriptionUpdatePending = true := by
  unfold SubscribingConnection.scheduleSubscriptionUpdate
  split
  · assumption
  · rfl

theorem schedule_rest (c : SubscribingConnection) : c.scheduleSubscriptionUpdate.sockets = c.sockets ∧
    c.scheduleSubscriptionUpdate.physicalReadyState = c.physicalReadyState := by
  unfold SubscribingConnection.scheduleSubscriptionUpdate
  split <;> exact ⟨rfl, rfl⟩

/-- The stream that a call of `open` makes. -/
def SubscribingConnection.newEntry (c : SubscribingConnection) (descriptor : QueueSubscription) : LogicalEntry where
  socket := c.sockets
  subscription := descriptor.described
  readyState := if c.physicalReadyState = .open then .open else .connecting

theorem openStream_ok {descriptor : QueueSubscription} (h : c.openStream descriptor = .ok c') :
    (∀ x ∈ c.logicalStreams, x.subscription.paneID ≠ descriptor.described.paneID) ∧
      c' =
        let added := { c with logicalStreams := c.logicalStreams ++ [c.newEntry descriptor], sockets := c.sockets + 1 }
        if c.physicalReadyState = .open then
          let scheduled := added.scheduleSubscriptionUpdate
          { scheduled with microtasks := scheduled.microtasks ++ [.opened c.sockets] }
        else added.ensurePhysicalSocket := by
  unfold SubscribingConnection.openStream at h
  by_cases ho : c.physicalReadyState = .open
  all_goals
    simp only [SubscribingConnection.ensurePhysicalSocket, SubscribingConnection.newEntry, ho, true_or, if_true, if_false,
      reduceCtorEq] at h ⊢
    split at h
    · cases h
    split at h
    · cases h
    split at h
    · cases h
    rename_i hp
    refine ⟨fun x hx he => hp (List.any_eq_true.mpr ⟨x, hx, decide_eq_true he⟩), ?_⟩
    exact (Except.ok.inj h).symm

theorem Agrees.openStream (h : Agrees limit c v used) {descriptor : QueueSubscription}
    (ho : c.openStream descriptor = .ok c') (ha : descriptor.described.Accepted)
    (hfresh : descriptor.described.streamID ∉ used) (hroom : c.logicalStreams.length < limit) :
    Sends limit v (used ++ [descriptor.described.streamID]) c c' := by
  obtain ⟨hp, rfl⟩ := openStream_ok ho
  have hadd := h.toRecords.add (e := c.newEntry descriptor) ha rfl hp hroom hfresh rfl rfl
  dsimp only
  split_ifs with hopen
  · obtain ⟨hsockets, hready⟩ := schedule_rest
      { c with logicalStreams := c.logicalStreams ++ [c.newEntry descriptor], sockets := c.sockets + 1 }
    have hagrees := hadd.schedule
    refine (hagrees.pushOpened ?_ ?_ (hagrees.queued ?_ (schedule_pending _))).silent (schedule_sent _)
    · rw [hsockets]
      exact Nat.lt_succ_self _
    · exact hready.trans hopen
    · exact hready.trans hopen
  · have hagrees : Agrees limit _ v _ := { hadd with upToDate := fun hc => absurd hc hopen }
    refine hagrees.ensure.silent ?_
    unfold SubscribingConnection.ensurePhysicalSocket
    split <;> rfl

theorem Records.filter (h : Records limit c v used) (p : LogicalEntry → Bool) :
    Records limit { c with logicalStreams := c.logicalStreams.filter p } v used where
  roster := h.roster.filter p
  known := h.known
  told e he := h.told e (List.mem_filter.mp he).1
  untold e he := h.untold e (List.mem_filter.mp he).1
  early ho := by
    obtain ⟨hv, he, hm⟩ := h.early ho
    exact ⟨hv, fun e hf => he e (List.mem_filter.mp hf).1, hm⟩
  queued := h.queued
  order := h.order.mono fun e he _ hl => ⟨e, (List.mem_filter.mp he).1, rfl, hl⟩
  opened := h.opened
  announced e he := h.announced e (List.mem_filter.mp he).1

theorem Agrees.closeStream (h : Agrees limit c v used) (socket : Nat) : Sends limit v used c (c.closeStream socket) := by
  unfold SubscribingConnection.closeStream
  split
  · exact h.silent rfl
  · exact (h.toRecords.filter _).schedule.silent (schedule_sent _)

/-! ## Changing entries -/

/-- Entries changed in what the broker has not been told; what is announced was announced or sent. -/
theorem Records.map (h : Records limit c v used) {f : LogicalEntry → LogicalEntry} (hf : KeepsIdentity f)
    (hlast : ∀ e, (f e).lastSentPriority = e.lastSentPriority)
    (hann : ∀ e ∈ c.logicalStreams, (f e).announced = true → e.lastSentPriority ≠ none) :
    Records limit { c with logicalStreams := c.logicalStreams.map f } v used where
  roster := h.roster.map hf
  known := h.known
  told x hx last hl := by
    obtain ⟨e, he, rfl⟩ := List.mem_map.mp hx
    obtain ⟨-, priority, hsub⟩ := hf e
    rw [hlast] at hl
    rw [LogicalEntry.told, hsub]
    exact h.told e he last hl
  untold x hx hl paneID a hv := by
    obtain ⟨e, he, rfl⟩ := List.mem_map.mp hx
    obtain ⟨-, priority, hsub⟩ := hf e
    rw [hsub]
    exact h.untold e he ((hlast e).symm.trans hl) paneID a hv
  early ho := by
    obtain ⟨hv, he, hm⟩ := h.early ho
    refine ⟨hv, fun x hx => ?_, hm⟩
    obtain ⟨e, hmem, rfl⟩ := List.mem_map.mp hx
    rw [hlast]
    exact he e hmem
  queued := h.queued
  order := h.order.mono fun x hx _ hl => by
    obtain ⟨e, he, rfl⟩ := List.mem_map.mp hx
    exact ⟨e, he, (hf e).1.symm, (hlast e).symm.trans hl⟩
  opened := h.opened
  announced x hx hx' := by
    obtain ⟨e, he, rfl⟩ := List.mem_map.mp hx
    rw [hlast]
    exact hann e he hx'

/-- Entries changed in nothing that the broker is told. -/
theorem Agrees.map (h : Agrees limit c v used) {f : LogicalEntry → LogicalEntry} (hf : ∀ e, (f e).socket = e.socket)
    (hsub : ∀ e, (f e).subscription = e.subscription) (hlast : ∀ e, (f e).lastSentPriority = e.lastSentPriority)
    (hann : ∀ e ∈ c.logicalStreams, (f e).announced = true → e.lastSentPriority ≠ none) :
    Agrees limit { c with logicalStreams := c.logicalStreams.map f } v used where
  toRecords := h.toRecords.map (fun e => ⟨hf e, e.subscription.priority, hsub e⟩) hlast hann
  upToDate ho hp := by
    obtain ⟨hall, hpanes⟩ := h.upToDate ho hp
    constructor
    · intro x hx
      obtain ⟨e, he, rfl⟩ := List.mem_map.mp hx
      rw [hlast, hsub]
      exact hall e he
    · intro paneID a hv
      obtain ⟨e, he, rfl⟩ := hpanes paneID a hv
      exact ⟨f e, List.mem_map_of_mem he, by rw [hsub]⟩

/-- Putting back an entry is changing the one of its socket. -/
theorem setEntry_map (h : Roster limit used c.sockets c.logicalStreams) {found : LogicalEntry}
    (hf : found ∈ c.logicalStreams) (f : LogicalEntry → LogicalEntry) (hs : (f found).socket = found.socket) :
    c.setEntry (f found) = { c with
      logicalStreams := c.logicalStreams.map fun e => if e.socket = found.socket then f e else e } := by
  unfold SubscribingConnection.setEntry
  congr 1
  apply List.map_congr_left
  intro e hmem
  rw [hs]
  split_ifs with hsocket
  · rw [h.eq_of_socket hmem hf hsocket]
  · rfl

theorem keepsIdentity_at (f : LogicalEntry → LogicalEntry) (hf : KeepsIdentity f) (socket : Nat) :
    KeepsIdentity fun e => if e.socket = socket then f e else e := by
  intro e
  dsimp only
  split_ifs
  · exact hf e
  · exact ⟨rfl, e.subscription.priority, rfl⟩

theorem entry_mem {socket : Nat} {found : LogicalEntry} (h : c.entry socket = some found) :
    found ∈ c.logicalStreams ∧ found.socket = socket :=
  ⟨List.mem_of_find?_eq_some h, by simpa using List.find?_some h⟩

/-- An announced stream has been in a list, so the broker will have it. -/
theorem Agrees.sendControl (h : Agrees limit c v used) {socket : Nat} {control : ControlPayload}
    (ha : ∀ e ∈ c.logicalStreams, e.socket = socket → e.announced = true)
    (ho : c.sendControl socket control = .ok c') : Sends limit v used c c' := by
  unfold SubscribingConnection.sendControl at ho
  cases hf : c.entry socket with
  | none => rw [hf] at ho; cases ho
  | some found =>
    obtain ⟨hmem, hs⟩ := entry_mem hf
    have hlast := h.announced found hmem (ha found hmem hs)
    obtain ⟨last, hlast⟩ := Option.ne_none_iff_exists'.mp hlast
    rw [hf] at ho
    dsimp only at ho
    split at ho
    · cases ho
    unfold SubscribingConnection.sendPhysical at ho
    split_ifs at ho
    cases ho
    obtain ⟨hp, hid⟩ := (h.roster.each found hmem).1.trims
    exact ⟨[.paneControl found.address control], rfl, ⟨⟨hp, hid, _, h.told found hmem last hlast, rfl, rfl⟩, trivial⟩,
      h.withSent _⟩

/-- The `open` event of a socket comes after a list with its stream. -/
theorem Agrees.dispatchOpen (h : Agrees limit c v used) {socket : Nat}
    (hs : ∀ e ∈ c.logicalStreams, e.socket = socket → e.lastSentPriority ≠ none) :
    Sends limit v used c (c.dispatchOpen socket) := by
  unfold SubscribingConnection.dispatchOpen
  cases hf : c.entry socket with
  | none => exact h.silent rfl
  | some found =>
    obtain ⟨hmem, hsocket⟩ := entry_mem hf
    dsimp only
    split_ifs
    · rw [show c.setEntry { found with announced := true } = _ from
        setEntry_map h.roster hmem (fun e => { e with announced := true }) rfl]
      refine Agrees.silent (h.map (fun e => ?_) (fun e => ?_) (fun e => ?_) fun e he ha => ?_) rfl
      · split_ifs <;> rfl
      · split_ifs <;> rfl
      · split_ifs <;> rfl
      · split_ifs at ha with hes
        · exact hs e he (hes.trans hsocket)
        · exact h.announced e he ha
    · exact h.silent rfl

/-! ## Priorities -/

def LogicalEntry.withPriority (priority : Int) (e : LogicalEntry) : LogicalEntry :=
  { e with subscription := { e.subscription with priority := priority } }

/-- The entry with a priority that the broker was told. -/
def LogicalEntry.prioritized (priority : Int) (e : LogicalEntry) : LogicalEntry :=
  { e.withPriority priority with lastSentPriority := some priority }

theorem withPriority_keeps (priority : Int) : KeepsIdentity (LogicalEntry.withPriority priority) :=
  fun _ => ⟨rfl, priority, rfl⟩

theorem prioritized_keeps (priority : Int) : KeepsIdentity (LogicalEntry.prioritized priority) :=
  fun _ => ⟨rfl, priority, rfl⟩

theorem targetEntry_mem {target : PriorityTarget} {found : LogicalEntry} (h : c.targetEntry target = some found) :
    found ∈ c.logicalStreams := by
  cases target <;> exact List.mem_of_find?_eq_some h

/-- The records once one stream's priority is sent. -/
theorem Agrees.prioritized (h : Agrees limit c v used) {found : LogicalEntry} (hmem : found ∈ c.logicalStreams)
    {last priority : Int} (hlast : found.lastSentPriority = some last) (hnorm : normalizePriority priority = priority) :
    Agrees limit (c.setEntry (found.prioritized priority)) (v.prioritized found.subscription.paneID priority) used := by
  have hopen : c.physicalReadyState = .open := by
    by_contra ho
    rw [(h.early ho).2.1 found hmem] at hlast
    cases hlast
  have hkeeps := keepsIdentity_at _ (prioritized_keeps priority) found.socket
  rw [setEntry_map h.roster hmem _ rfl]
  refine {
    roster := h.roster.map hkeeps
    known := fun paneID a hv => by
      obtain ⟨a', ha, hid⟩ := BrokerView.prioritized_streamID hv
      exact hid ▸ h.known paneID a' ha
    told := fun x hx sent hsent => ?_
    untold := fun x hx hnone paneID a hv => ?_
    early := fun ho => absurd hopen ho
    queued := h.queued
    order := h.order.mono fun x hx _ hnone => ?_
    opened := h.opened
    announced := fun x hx ha => ?_
    upToDate := fun ho hp => ?_ }
  · obtain ⟨e, he, rfl⟩ := List.mem_map.mp hx
    split_ifs at hsent ⊢ with hs
    · obtain rfl := h.roster.eq_of_socket he hmem hs
      cases hsent
      exact (BrokerView.prioritized_same _ _ _).trans (by rw [h.told e he last hlast]; rfl)
    · have hne : e.subscription.paneID ≠ found.subscription.paneID := fun hp => hs (by rw [h.roster.eq_of_pane he hmem hp])
      rw [BrokerView.prioritized_other _ _ hne]
      exact h.told e he sent hsent
  · obtain ⟨e, he, rfl⟩ := List.mem_map.mp hx
    obtain ⟨a', ha, hid⟩ := BrokerView.prioritized_streamID hv
    split_ifs at hnone ⊢
    · cases hnone
    · rw [hid]
      exact h.untold e he hnone paneID a' ha
  · obtain ⟨e, he, rfl⟩ := List.mem_map.mp hx
    split_ifs at hnone ⊢
    · cases hnone
    · exact ⟨e, he, rfl, hnone⟩
  · obtain ⟨e, he, rfl⟩ := List.mem_map.mp hx
    split_ifs at ha ⊢
    · exact nofun
    · exact h.announced e he ha
  · obtain ⟨hall, hpanes⟩ := h.upToDate ho hp
    constructor
    · intro x hx
      obtain ⟨e, he, rfl⟩ := List.mem_map.mp hx
      split_ifs
      · exact congrArg some hnorm.symm
      · exact hall e he
    · intro paneID a hv
      obtain ⟨a', ha, -⟩ := BrokerView.prioritized_streamID hv
      obtain ⟨e, he, rfl⟩ := hpanes paneID a' ha
      exact ⟨_, List.mem_map_of_mem he, by split_ifs <;> rfl⟩

theorem setEntry_setEntry (c : SubscribingConnection) {x y : LogicalEntry} (h : x.socket = y.socket) :
    (c.setEntry x).setEntry y = c.setEntry y := by
  unfold SubscribingConnection.setEntry
  rw [List.map_map]
  congr 1
  apply List.map_congr_left
  intro e _
  simp only [Function.comp_apply]
  split_ifs <;> simp_all

theorem sendPhysical_open (c : SubscribingConnection) (message : TerminalQueueClientMessage)
    (h : c.physicalReadyState = .open) : c.sendPhysical message = ({ c with sent := c.sent ++ [message] }, true) :=
  if_neg (not_not_intro h)

theorem sendPhysical_closed (c : SubscribingConnection) (message : TerminalQueueClientMessage)
    (h : c.physicalReadyState ≠ .open) : c.sendPhysical message = (c, false) :=
  if_pos h

theorem setPriority_found {target : PriorityTarget} {found : LogicalEntry} (hf : c.targetEntry target = some found)
    (priority : Int) : (c.setPriority target priority).1 =
      let next := normalizePriority priority
      if found.lastSentPriority = some next then c.setEntry (found.withPriority next)
      else if found.lastSentPriority = none ∨ c.subscriptionUpdatePending = true then
        (c.setEntry (found.withPriority next)).scheduleSubscriptionUpdate
      else if c.physicalReadyState = .open then
        { c.setEntry (found.prioritized next) with sent := c.sent ++ [.setPriority found.address next] }
      else c.setEntry (found.withPriority next) := by
  unfold SubscribingConnection.setPriority
  rw [hf]
  show Prod.fst (ite (found.lastSentPriority = some _) _ (ite (found.lastSentPriority = none ∨ c.subscriptionUpdatePending = true)
    _ _)) = _
  dsimp only [SubscribingConnection.sendPriority]
  split_ifs with hsame hwait hopen
  · rfl
  · rfl
  · rw [sendPhysical_open]
    · exact setEntry_setEntry { c with sent := c.sent ++ [.setPriority found.address (normalizePriority priority)] }
        (x := found.withPriority (normalizePriority priority)) (y := found.prioritized (normalizePriority priority)) rfl
    · exact hopen
  · rw [sendPhysical_closed]
    · rfl
    · exact hopen

theorem Agrees.setPriority (h : Agrees limit c v used) (target : PriorityTarget) (priority : Int) :
    Sends limit v used c (c.setPriority target priority).1 := by
  cases hf : c.targetEntry target with
  | none =>
    rw [show c.setPriority target priority = (c, false) by unfold SubscribingConnection.setPriority; rw [hf]]
    exact h.silent rfl
  | some found =>
    have hmem := targetEntry_mem hf
    have hset := setEntry_map h.roster hmem (LogicalEntry.withPriority (normalizePriority priority)) rfl
    have hrec : Records limit (c.setEntry (found.withPriority (normalizePriority priority))) v used := by
      rw [hset]
      refine h.toRecords.map (keepsIdentity_at _ (withPriority_keeps _) _) (fun e => by split_ifs <;> rfl) fun e he ha => ?_
      exact h.announced e he (by split_ifs at ha <;> exact ha)
    rw [setPriority_found hf]
    dsimp only
    split_ifs with hsame hwait hopen
    · refine Agrees.silent { hrec with upToDate := fun ho hp => ?_ } rfl
      obtain ⟨hall, hpanes⟩ := h.upToDate ho hp
      rw [hset]
      constructor
      · intro x hx
        obtain ⟨e, he, rfl⟩ := List.mem_map.mp hx
        split_ifs with hs
        · obtain rfl := h.roster.eq_of_socket he hmem hs
          exact hsame.trans (congrArg some (normalize_idem priority).symm)
        · exact hall e he
      · intro paneID a hv
        obtain ⟨e, he, rfl⟩ := hpanes paneID a hv
        exact ⟨_, List.mem_map_of_mem he, by split_ifs <;> rfl⟩
    · exact hrec.schedule.silent (schedule_sent _)
    · obtain ⟨last, hlast⟩ := Option.ne_none_iff_exists'.mp fun hnone => hwait (.inl hnone)
      obtain ⟨hp, hid⟩ := (h.roster.each found hmem).1.trims
      exact ⟨[.setPriority found.address (normalizePriority priority)], rfl,
        ⟨⟨hp, hid, _, h.told found hmem last hlast, rfl, rfl⟩, trivial⟩,
        (h.prioritized hmem hlast (normalize_idem priority)).withSent _⟩
    · exact absurd ((h.early hopen).2.1 found hmem) fun hnone => hwait (.inl hnone)

/-! ## Sending the list -/

/-- The entry after its round of the loop. -/
def LogicalEntry.settled (e : LogicalEntry) : LogicalEntry :=
  { e with lastSentPriority := some (normalizePriority e.subscription.priority) }

def LogicalEntry.priorityMessage (e : LogicalEntry) : Option TerminalQueueClientMessage :=
  match e.lastSentPriority with
  | none => none
  | some last =>
    if last = normalizePriority e.subscription.priority then none
    else some (.setPriority e.address (normalizePriority e.subscription.priority))

theorem settlePriorities_open : ∀ (entries : List LogicalEntry) (c : SubscribingConnection), c.physicalReadyState = .open →
    c.settlePriorities entries =
      ({ c with sent := c.sent ++ entries.filterMap LogicalEntry.priorityMessage }, entries.map LogicalEntry.settled)
  | [], c, _ => by rw [List.filterMap_nil, List.append_nil]; rfl
  | e :: rest, c, ho => by
    have hround : c.settlePriority e = ({ c with sent := c.sent ++ e.priorityMessage.toList }, e.settled) := by
      unfold SubscribingConnection.settlePriority LogicalEntry.priorityMessage LogicalEntry.settled
      cases hl : e.lastSentPriority with
      | none => simp
      | some last =>
        dsimp only [SubscribingConnection.sendPriority]
        split_ifs with hsame
        · rw [← hsame, ← hl, Option.toList_none, List.append_nil]
        · rw [sendPhysical_open _ _ ho]
          rfl
    rw [SubscribingConnection.settlePriorities, hround]
    dsimp only
    rw [settlePriorities_open rest { c with sent := c.sent ++ e.priorityMessage.toList } ho, List.filterMap_cons]
    cases e.priorityMessage <;> simp

theorem sendSubscriptions_open (ho : c.physicalReadyState = .open) : c.sendSubscriptions.1 = { c with
    subscriptionUpdatePending := false
    logicalStreams := c.logicalStreams.map LogicalEntry.settled
    sent := c.sent ++ .replaceSubscriptions (c.logicalStreams.map LogicalEntry.subscription) ::
      c.logicalStreams.filterMap LogicalEntry.priorityMessage } := by
  unfold SubscribingConnection.sendSubscriptions
  rw [sendPhysical_open _ _ (show SubscribingConnection.physicalReadyState { c with subscriptionUpdatePending := false } = _ from ho)]
  dsimp only
  rw [settlePriorities_open]
  · simp
  · exact ho

theorem sendSubscriptions_closed (ho : c.physicalReadyState ≠ .open) :
    c.sendSubscriptions.1 = { c with subscriptionUpdatePending := true } := by
  unfold SubscribingConnection.sendSubscriptions
  rw [sendPhysical_closed]
  exact ho

/-- The list tells the broker of every entry what was sent of it before, or its own priority. -/
theorem Heard.listed (h : Heard limit c v used) {e : LogicalEntry} (he : e ∈ c.logicalStreams) :
    v.replaced (c.logicalStreams.map LogicalEntry.subscription) e.subscription.paneID =
      some (e.told (e.lastSentPriority.getD e.subscription.priority)) := by
  rw [BrokerView.replaced, h.roster.find he, Option.map_some, BrokerView.renewed]
  cases hl : e.lastSentPriority with
  | some last =>
    rw [h.told e he last hl]
    exact congrArg some (if_pos ⟨rfl, rfl⟩)
  | none =>
    split
    · rename_i a hv
      rw [if_neg fun his => h.untold e he hl _ a hv his.1]
      rfl
    · rfl

theorem told_normalize (e : LogicalEntry) (priority : Int) : e.told (normalizePriority priority) = e.told priority := by
  rw [LogicalEntry.told, clamp_normalize]
  rfl

/-- The messages after the list bring every entry to its own priority. -/
theorem after_priorities : ∀ (entries : List LogicalEntry) (v : BrokerView),
    (entries.map fun e => e.subscription.paneID).Nodup → (∀ e ∈ entries, e.subscription.Accepted) →
    (∀ e ∈ entries, v e.subscription.paneID = some (e.told (e.lastSentPriority.getD e.subscription.priority))) →
    v.TakesAll limit (entries.filterMap LogicalEntry.priorityMessage) ∧
      (∀ e ∈ entries, v.after (entries.filterMap LogicalEntry.priorityMessage) e.subscription.paneID =
        some (e.told e.subscription.priority)) ∧
      ∀ paneID, (∀ e ∈ entries, e.subscription.paneID ≠ paneID) →
        v.after (entries.filterMap LogicalEntry.priorityMessage) paneID = v paneID
  | [], v, _, _, _ => ⟨trivial, nofun, fun _ _ => rfl⟩
  | e :: rest, v, hn, ha, hv => by
    rw [List.map_cons, List.nodup_cons] at hn
    have hne : ∀ x ∈ rest, x.subscription.paneID ≠ e.subscription.paneID := fun x hx he =>
      hn.1 (he ▸ List.mem_map_of_mem hx)
    have hhead := hv e (List.mem_cons_self ..)
    have harest := fun x hx => ha x (List.mem_cons_of_mem _ hx)
    have hvrest := fun x hx => hv x (List.mem_cons_of_mem _ hx)
    rw [List.filterMap_cons]
    cases hm : e.priorityMessage with
    | none =>
      obtain ⟨htakes, heach, hothers⟩ := after_priorities rest v hn.2 harest hvrest
      refine ⟨htakes, fun x hx => ?_, fun paneID hp => hothers paneID fun x hx => hp x (List.mem_cons_of_mem _ hx)⟩
      rcases List.mem_cons.mp hx with rfl | hx
      · rw [hothers _ hne, hhead]
        unfold LogicalEntry.priorityMessage at hm
        cases hl : x.lastSentPriority with
        | none => rfl
        | some last =>
          rw [hl] at hm
          dsimp only at hm
          split_ifs at hm with hsame
          rw [Option.getD_some, hsame, told_normalize]
      · exact heach x hx
    | some message =>
      have hmessage : message = .setPriority e.address (normalizePriority e.subscription.priority) := by
        unfold LogicalEntry.priorityMessage at hm
        split at hm
        · cases hm
        · split_ifs at hm
          exact (Option.some.inj hm).symm
      subst hmessage
      obtain ⟨htakes, heach, hothers⟩ := after_priorities rest
        (v.prioritized e.subscription.paneID (normalizePriority e.subscription.priority)) hn.2 harest fun x hx => by
          rw [BrokerView.prioritized_other _ _ (hne x hx)]
          exact hvrest x hx
      obtain ⟨hp, hid⟩ := (ha e (List.mem_cons_self ..)).trims
      refine ⟨⟨⟨hp, hid, _, hhead, rfl, rfl⟩, htakes⟩, fun x hx => ?_, fun paneID ho => ?_⟩
      · rcases List.mem_cons.mp hx with rfl | hx
        · refine (hothers _ hne).trans ?_
          rw [BrokerView.prioritized_same, hhead, ← told_normalize x x.subscription.priority]
          rfl
        · exact heach x hx
      · refine (hothers paneID fun x hx => ho x (List.mem_cons_of_mem _ hx)).trans ?_
        exact BrokerView.prioritized_other _ _ (Ne.symm (ho e (List.mem_cons_self ..)))

theorem settled_keeps : KeepsIdentity LogicalEntry.settled := fun e => ⟨rfl, e.subscription.priority, rfl⟩

/-- With the list sent, the broker will have what the connection has. -/
theorem Heard.sendSubscriptions (h : Heard limit c v used) (ho : c.physicalReadyState = .open) :
    Sends limit v used c c.sendSubscriptions.1 := by
  rw [sendSubscriptions_open ho]
  obtain ⟨htakes, heach, hothers⟩ := @after_priorities limit c.logicalStreams
    (v.replaced (c.logicalStreams.map LogicalEntry.subscription)) h.roster.panes (fun e he => (h.roster.each e he).1)
    fun e he => h.listed he
  have hview (paneID : String) (a : ActiveStream) (hv : (v.replaced (c.logicalStreams.map LogicalEntry.subscription)).after
      (c.logicalStreams.filterMap LogicalEntry.priorityMessage) paneID = some a) :
      ∃ e ∈ c.logicalStreams, e.subscription.paneID = paneID ∧ a = e.told e.subscription.priority := by
    by_cases he : ∃ e ∈ c.logicalStreams, e.subscription.paneID = paneID
    · obtain ⟨e, he, rfl⟩ := he
      rw [heach e he] at hv
      exact ⟨e, he, rfl, (Option.some.inj hv).symm⟩
    · push Not at he
      rw [hothers paneID he, BrokerView.replaced, List.find?_eq_none.mpr, Option.map_none] at hv
      · cases hv
      · intro s hs
        obtain ⟨e, hmem, rfl⟩ := List.mem_map.mp hs
        simpa using he e hmem
  refine ⟨_, rfl, ⟨⟨?_, ?_, ?_⟩, htakes⟩, {
    roster := h.roster.map settled_keeps
    known := fun paneID a hv => ?_
    told := fun x hx last hl => ?_
    untold := fun x hx hl => ?_
    opened := h.opened
    early := fun hn => absurd ho hn
    queued := fun _ hp => by cases hp
    order := OpensAfter.of_sent (fun x hx => ?_) _
    announced := fun x hx _ => ?_
    upToDate := fun _ _ => ⟨fun x hx => ?_, fun paneID a hv => ?_⟩ }⟩
  · rw [List.length_map]
    exact h.roster.few
  · rw [List.map_map]
    exact h.roster.panes
  · intro s hs
    obtain ⟨e, he, rfl⟩ := List.mem_map.mp hs
    exact (h.roster.each e he).1
  · obtain ⟨e, he, -, rfl⟩ := hview paneID a hv
    exact (h.roster.each e he).2.1
  · obtain ⟨e, he, rfl⟩ := List.mem_map.mp hx
    cases hl
    exact (heach e he).trans (congrArg some (told_normalize e _).symm)
  · obtain ⟨e, -, rfl⟩ := List.mem_map.mp hx
    cases hl
  · obtain ⟨e, -, rfl⟩ := List.mem_map.mp hx
    exact nofun
  · obtain ⟨e, -, rfl⟩ := List.mem_map.mp hx
    exact nofun
  · obtain ⟨e, -, rfl⟩ := List.mem_map.mp hx
    rfl
  · obtain ⟨e, he, hp, -⟩ := hview paneID a hv
    exact ⟨e.settled, List.mem_map_of_mem he, hp⟩

/-- Every entry of the list that the connection sends has been told. -/
theorem sendSubscriptions_sent (ho : c.physicalReadyState = .open) :
    ∀ e ∈ c.sendSubscriptions.1.logicalStreams, e.lastSentPriority ≠ none := by
  rw [sendSubscriptions_open ho]
  intro x hx
  obtain ⟨e, -, rfl⟩ := List.mem_map.mp hx
  exact nofun

theorem Agrees.physicalOpen (h : Agrees limit c v used) (hc : c.physicalReadyState = .connecting) :
    Sends limit v used c c.physicalOpen := by
  obtain ⟨hv, -, hm⟩ := h.early (by rw [hc]; exact nofun)
  unfold SubscribingConnection.physicalOpen
  dsimp only
  split_ifs with hempty
  · have hheard : Heard limit { c with physicalReadyState := .open } v used := { h.toHeard with }
    obtain ⟨messages, hsent, htakes, hagrees⟩ := hheard.sendSubscriptions rfl
    have hall := sendSubscriptions_sent (c := { c with physicalReadyState := .open }) rfl
    refine ⟨messages, hsent, htakes, hagrees.map (fun e => ?_) (fun e => ?_) (fun e => ?_) fun e he _ => hall e he⟩
    all_goals split_ifs <;> rfl
  · rw [ne_eq, not_not] at hempty
    simp only [hempty, List.map_nil]
    refine Agrees.silent {
      roster := hempty ▸ h.roster
      known := h.known
      told := fun e he => absurd he List.not_mem_nil
      untold := fun e he => absurd he List.not_mem_nil
      opened := h.opened
      early := fun hn => absurd rfl hn
      queued := fun _ hp => by cases hp
      order := OpensAfter.of_sent (fun e he => absurd he List.not_mem_nil) _
      announced := fun e he => absurd he List.not_mem_nil
      upToDate := fun _ _ => ⟨fun e he => absurd he List.not_mem_nil, fun paneID a ha => ?_⟩ } rfl
    rw [hv] at ha
    cases ha

/-! ## Microtasks -/

/-- The records without the microtask that is being run; the one that sends the list is missed only by a
pending update. -/
theorem Agrees.runMicrotask {task : Microtask} {rest : List Microtask} (h : Agrees limit c v used)
    (hc : c.microtasks = task :: rest) : Sends limit v used { c with microtasks := rest }
      (({ c with microtasks := rest } : SubscribingConnection).runMicrotask task) := by
  have hheard : Heard limit { c with microtasks := rest } v used :=
    { h.toHeard with opened := fun socket hm => h.opened socket (hc ▸ List.mem_cons_of_mem _ hm) }
  have hearly (hn : c.physicalReadyState ≠ .open) : (∀ paneID, v paneID = none) ∧
      (∀ e ∈ c.logicalStreams, e.lastSentPriority = none) ∧ ∀ socket, .opened socket ∉ rest := by
    obtain ⟨hv, he, hm⟩ := h.early hn
    exact ⟨hv, he, fun socket hs => hm socket (hc ▸ List.mem_cons_of_mem _ hs)⟩
  have horder := h.order
  rw [hc] at horder
  cases task with
  | subscriptions =>
    unfold SubscribingConnection.runMicrotask
    dsimp only
    by_cases hopen : c.physicalReadyState = .open
    · split_ifs with hp
      · exact hheard.sendSubscriptions hopen
      · rw [Bool.not_eq_true] at hp
        obtain ⟨hall, hpanes⟩ := h.upToDate hopen hp
        refine Agrees.silent {
          hheard with
          early := fun hn => absurd hopen hn
          queued := fun _ hp' => by rw [show c.subscriptionUpdatePending = true from hp'] at hp; cases hp
          order := OpensAfter.of_sent (fun e he => by rw [hall e he]; exact nofun) _
          announced := h.announced
          upToDate := fun _ _ => ⟨hall, hpanes⟩ } rfl
    · have hquiet (pending : Bool) :
          Agrees limit { c with microtasks := rest, subscriptionUpdatePending := pending } v used := {
        hheard with
        early := hearly
        queued := fun ho => absurd ho hopen
        order := .of_quiet (hearly hopen).2.2
        announced := h.announced
        upToDate := fun ho => absurd ho hopen }
      split_ifs with hp
      · rw [sendSubscriptions_closed (c := { c with microtasks := rest }) hopen]
        exact (hquiet true).silent rfl
      · exact (hquiet _).silent rfl
  | opened socket =>
    have hagrees : Agrees limit { c with microtasks := rest } v used := {
      hheard with
      early := hearly
      queued := fun ho hp => by
        have hm := h.queued ho hp
        rw [hc] at hm
        exact (List.mem_cons.mp hm).resolve_left (fun he => by cases he)
      order := horder.2
      announced := h.announced
      upToDate := h.upToDate }
    exact hagrees.dispatchOpen horder.1

end

/-! ## Both sides -/

structure SubscribingInv (p : SubscribingPair) : Prop where
  broker : BrokerOk p.broker
  limit : 0 < p.broker.maxSubscriptions
  takes : p.broker.view.TakesAll p.broker.maxSubscriptions p.connection.sent
  agrees : Agrees p.broker.maxSubscriptions p.connection (p.broker.view.after p.connection.sent) p.used
  refusals : ∀ r ∈ p.refusals, r ≠ .priorityNotActive ∧ r ≠ .controlNotActive

/-- Stream ids are fresh, streams no more than the broker's limit, and a stream sends only after its
`open` event. -/
def Orderly (p : SubscribingPair) : SubscribingEvent → Prop
  | .openStream descriptor => ∀ c, p.connection.openStream descriptor = .ok c →
    descriptor.described.streamID ∉ p.used ∧ p.connection.logicalStreams.length < p.broker.maxSubscriptions
  | .sendControl socket _ => ∀ e ∈ p.connection.logicalStreams, e.socket = socket → e.announced = true
  | _ => True

/-- The broker would take the subscription of a stream that is opened as it is. -/
def OpensAccepted (p : SubscribingPair) : SubscribingEvent → Prop
  | .openStream descriptor => ∀ c, p.connection.openStream descriptor = .ok c → descriptor.described.Accepted
  | _ => True

namespace SubscribingInv

variable {p : SubscribingPair} (h : SubscribingInv p)

include h

theorem sends {c : SubscribingConnection} {used : List String}
    (hs : Sends p.broker.maxSubscriptions (p.broker.view.after p.connection.sent) used p.connection c) :
    SubscribingInv { p with connection := c, used := used } := by
  obtain ⟨messages, hsent, htakes, hagrees⟩ := hs
  refine ⟨h.broker, h.limit, ?_, ?_, h.refusals⟩
  · rw [hsent]
    exact BrokerView.takesAll_append h.takes htakes
  · rw [hsent, BrokerView.after_append]
    exact hagrees

theorem handle {message : TerminalQueueClientMessage} {rest : List TerminalQueueClientMessage}
    (hc : p.connection.sent = message :: rest) (sizes : String → Nat × Nat) (answers : ControlAnswers) :
    SubscribingInv { p with
      connection := { p.connection with sent := rest }
      broker := (p.broker.handle (fun paneID => .ok (sizes paneID)) answers message).1
      refusals := p.refusals ++ (p.broker.handle (fun paneID => .ok (sizes paneID)) answers message).2.toList } := by
  have htakes := h.takes
  have hagrees := h.agrees
  rw [hc] at htakes hagrees
  obtain ⟨hbroker, hview, hlimit, hcontrol, hpriority⟩ := handle_view h.broker h.limit htakes.1 sizes answers
  refine ⟨hbroker, hlimit ▸ h.limit, ?_, ?_, fun r hr => ?_⟩
  · rw [hview, hlimit]
    exact htakes.2
  · rw [hview, hlimit]
    exact hagrees.withSent rest
  · rcases List.mem_append.mp hr with hr | hr
    · exact h.refusals r hr
    · rw [Option.mem_toList] at hr
      exact ⟨fun he => hpriority (he ▸ hr), fun he => hcontrol (he ▸ hr)⟩

theorem step {p' : SubscribingPair} (e : SubscribingEvent) (ho : Orderly p e) (ha : OpensAccepted p e)
    (hs : subscribingMachine.step p e = some p') : SubscribingInv p' := by
  cases e with
  | connect =>
    cases hs
    refine h.sends (h.agrees.ensure.silent ?_)
    unfold SubscribingConnection.ensurePhysicalSocket
    split <;> rfl
  | openStream descriptor =>
    simp only [subscribingMachine] at hs
    split at hs
    · cases hs
      exact h
    · rename_i c hc
      cases hs
      obtain ⟨hfresh, hroom⟩ := ho c hc
      exact h.sends (h.agrees.openStream hc (ha c hc) hfresh hroom)
  | closeStream socket =>
    cases hs
    exact h.sends (h.agrees.closeStream socket)
  | setPriority target priority =>
    cases hs
    exact h.sends (h.agrees.setPriority target priority)
  | sendControl socket control =>
    simp only [subscribingMachine] at hs
    split at hs
    · cases hs
      exact h
    · rename_i c hc
      cases hs
      exact h.sends (h.agrees.sendControl ho hc)
  | physicalOpen =>
    simp only [subscribingMachine] at hs
    split at hs
    · rename_i hc
      cases hs
      exact h.sends (h.agrees.physicalOpen hc)
    · cases hs
  | microtask =>
    simp only [subscribingMachine] at hs
    split at hs
    · cases hs
    · rename_i task rest hc
      cases hs
      exact h.sends (h.agrees.runMicrotask hc)
  | handle sizes answers =>
    simp only [subscribingMachine] at hs
    split at hs
    · cases hs
    · rename_i message rest hc
      cases hs
      exact h.handle hc sizes answers
  | stream i becomes stops =>
    simp only [subscribingMachine] at hs
    split at hs
    · rename_i hkeeps
      cases hs
      have hview := stream_keeps hkeeps stops
      exact ⟨subscriptionEvent_ok h.broker (.stream i becomes stops), h.limit, hview ▸ h.takes, hview ▸ h.agrees, h.refusals⟩
    · cases hs

end SubscribingInv

/-- A connection and a broker that know nothing of each other yet. -/
def SubscribingPair.start (transportRole : String) (writes : Bool) : SubscribingPair where
  broker := NewTerminalQueueBroker transportRole writes

theorem newBroker_limit (transportRole : String) (writes : Bool) :
    0 < (NewTerminalQueueBroker transportRole writes).maxSubscriptions := by
  unfold NewTerminalQueueBroker
  dsimp only
  split_ifs <;> decide

theorem SubscribingInv.start (transportRole : String) (writes : Bool) : SubscribingInv (.start transportRole writes) where
  broker := .fresh transportRole writes
  limit := newBroker_limit transportRole writes
  takes := trivial
  agrees := {
    roster := ⟨fun _ he => absurd he List.not_mem_nil, .nil, .nil, Int.le_of_lt (newBroker_limit transportRole writes)⟩
    known := fun _ _ hv => by cases hv
    told := fun _ he => absurd he List.not_mem_nil
    untold := fun _ he => absurd he List.not_mem_nil
    opened := fun _ hm => absurd hm List.not_mem_nil
    early := fun _ => ⟨fun _ => rfl, fun _ he => absurd he List.not_mem_nil, fun _ => List.not_mem_nil⟩
    queued := fun ho => by cases ho
    order := trivial
    announced := fun _ he => absurd he List.not_mem_nil
    upToDate := fun ho => by cases ho }
  refusals _ hr := absurd hr List.not_mem_nil

/-- The broker's streams are the connection's, with the same identities and priorities. -/
def InStep (p : SubscribingPair) : Prop :=
  ∀ paneID a, p.broker.view paneID = some a ↔
    ∃ e ∈ p.connection.logicalStreams, e.subscription.paneID = paneID ∧ e.subscription.active = a

/-- No message for a stream is refused because the stream is not active, and with nothing left to do
on an open socket the two sides are in step. -/
def StaysInStep (p : SubscribingPair) : Prop :=
  (∀ r ∈ p.refusals, r ≠ .priorityNotActive ∧ r ≠ .controlNotActive) ∧
    (p.connection.physicalReadyState = .open → p.connection.microtasks = [] → p.connection.sent = [] → InStep p)

theorem SubscribingInv.staysInStep {p : SubscribingPair} (h : SubscribingInv p) : StaysInStep p := by
  refine ⟨h.refusals, fun ho hm hsent paneID a => ?_⟩
  have hagrees := h.agrees
  rw [hsent] at hagrees
  have hpending : p.connection.subscriptionUpdatePending = false := by
    rw [← Bool.not_eq_true]
    intro hp
    have hq := hagrees.queued ho hp
    rw [hm] at hq
    cases hq
  obtain ⟨hall, hpanes⟩ := hagrees.upToDate ho hpending
  have hview : ∀ e ∈ p.connection.logicalStreams, p.broker.view e.subscription.paneID = some e.subscription.active :=
    fun e he => (hagrees.told e he _ (hall e he)).trans (congrArg some (told_normalize e _))
  constructor
  · intro hv
    obtain ⟨e, he, rfl⟩ := hpanes paneID a hv
    rw [hview e he] at hv
    exact ⟨e, he, rfl, Option.some.inj hv⟩
  · rintro ⟨e, he, rfl, rfl⟩
    exact hview e he

theorem subscriptions_stay_in_step {transportRole : String} {writes : Bool} {es : List SubscribingEvent} {p : SubscribingPair}
    (h : subscribingMachine.run (.start transportRole writes) es = some p)
    (ho : subscribingMachine.Along (fun p e => Orderly p e ∧ OpensAccepted p e) (.start transportRole writes) es) :
    StaysInStep p :=
  (Machine.run_inv_along _ (I := SubscribingInv) (fun _ e _ hi hp hs => hi.step e hp.1 hp.2 hs) h ho
    (.start transportRole writes)).staysInStep

def demoOpen (paneID : String) (priority : Int) : QueueSubscription :=
  { demoSubscription paneID "s1" with priority := priority }

/-- A stream is opened with a priority out of range, which changes while the list is on its way. -/
def demoRun : List SubscribingEvent :=
  [.openStream (demoOpen "p1" 7), .physicalOpen, .setPriority (.pane "p1") (-2), .handle (fun _ => (10, 10)) {},
    .handle (fun _ => (10, 10)) {}]

theorem demo_accepted : (demoOpen "p1" 7).described.Accepted := by
  have hd : (demoOpen "p1" 7).described = demoOpen "p1" 7 := by decide +kernel
  have hv : (validateTerminalQueueSubscription (demoOpen "p1" 7)).toOption.map Prod.fst = some (demoOpen "p1" 7) := by
    decide +kernel
  rw [hd]
  generalize hr : validateTerminalQueueSubscription (demoOpen "p1" 7) = r at hv
  rcases r with _ | ⟨normalized, request⟩
  · cases hv
  · cases hv
    exact ⟨_, request, hr, rfl, rfl⟩

theorem demo_orderly : subscribingMachine.Along (fun p e => Orderly p e ∧ OpensAccepted p e) (.start "queue" true) demoRun :=
  ⟨⟨fun _ _ => ⟨List.not_mem_nil, by decide⟩, fun _ _ => demo_accepted⟩, fun _ _ => ⟨⟨trivial, trivial⟩, fun _ _ =>
    ⟨⟨trivial, trivial⟩, fun _ _ => ⟨⟨trivial, trivial⟩, fun _ _ => ⟨⟨trivial, trivial⟩, fun _ _ => trivial⟩⟩⟩⟩⟩

theorem subscriptions_stay_in_step_demo : ∃ p, subscribingMachine.run (.start "queue" true) demoRun = some p ∧
    p.broker.view "p1" = some { streamID := "s1", channelGeneration := 1, priority := 0 } ∧ StaysInStep p := by
  have hrun : ((subscribingMachine.run (.start "queue" true) demoRun).map fun p => p.broker.view "p1") =
      some (some { streamID := "s1", channelGeneration := 1, priority := 0 }) := by decide +kernel
  obtain ⟨p, hp, hview⟩ := Option.map_eq_some_iff.mp hrun
  exact ⟨p, hp, hview, subscriptions_stay_in_step hp demo_orderly⟩

/-- The connection takes a descriptor with a flow control that the broker does not know; the broker
refuses the list it is in. -/
def unknownFlow : QueueSubscription := { demoOpen "p1" 0 with flowControl := "turn-ack-v2" }

theorem unknown_flow_not_in_step : ¬ ∀ (es : List SubscribingEvent) (p : SubscribingPair),
    subscribingMachine.run (.start "queue" true) es = some p →
      subscribingMachine.Along Orderly (.start "queue" true) es → StaysInStep p := by
  intro h
  have hrun : ((subscribingMachine.run (.start "queue" true)
      [.openStream unknownFlow, .physicalOpen, .handle (fun _ => (10, 10)) {}]).map fun p => decide (
        p.connection.physicalReadyState = .open ∧ p.connection.microtasks = [] ∧ p.connection.sent.isEmpty = true ∧
          (p.connection.logicalStreams.map fun e => e.subscription.paneID) = ["p1"] ∧ p.broker.view "p1" = none)) =
      some true := by decide +kernel
  obtain ⟨p, hp, hend⟩ := Option.map_eq_some_iff.mp hrun
  obtain ⟨ho, hm, hs, hentries, hview⟩ := of_decide_eq_true hend
  rw [List.isEmpty_iff] at hs
  have hstep := (h _ p hp ⟨fun _ _ => ⟨List.not_mem_nil, by decide⟩, fun _ _ => ⟨trivial, fun _ _ => ⟨trivial, fun _ _ => trivial⟩⟩⟩).2
    ho hm hs
  obtain ⟨e, he, hpane⟩ := List.mem_map.mp (hentries ▸ List.mem_cons_self .. : "p1" ∈ p.connection.logicalStreams.map _)
  have hactive := (hstep "p1" e.subscription.active).mpr ⟨e, he, hpane, rfl⟩
  rw [hview] at hactive
  cases hactive

end Webshell
