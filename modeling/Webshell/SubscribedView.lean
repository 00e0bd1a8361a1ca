import Webshell.SubscribingConnection
import Webshell.SubscriptionsReplaced
import Mathlib.Tactic.SplitIfs

/-!
# What a broker is subscribed to

Of a broker only the stream of each pane matters here: its identity and its
priority. On that view a message has a simple meaning, and the broker computes
it for every message that finds what it is about.
-/

namespace Webshell

open GoText

/-! ## Subscriptions that are taken as they are -/

theorem validate_trimmed {s normalized : QueueSubscription} {request : QueueSyncRequest}
    (h : validateTerminalQueueSubscription s = .ok (normalized, request)) : normalized = s.trimmed := by
  unfold validateTerminalQueueSubscription at h
  dsimp only at h
  generalize historyRange s.trimmed.historyGeneration _ _ = range at h
  rcases range with _ | _ | ⟨base, stop⟩ <;> split_ifs at h <;> cases h <;> rfl

theorem ite_error_map {α : Type} {f : α → α} {c : Prop} {d d' : Decidable c} {err : String} {x y : Except String α}
    (h : x = y.map f) : @ite _ c d (.error err) x = (@ite _ c d' (.error err) y).map f := by
  by_cases hc : c
  · rw [if_pos hc, if_pos hc]; rfl
  · rw [if_neg hc, if_neg hc, h]

/-- No check reads the priority. -/
theorem validate_withPriority (s : QueueSubscription) (priority : Int) :
    validateTerminalQueueSubscription { s with priority := priority } =
      (validateTerminalQueueSubscription s).map fun r => ({ r.1 with priority := priority }, r.2) := by
  unfold validateTerminalQueueSubscription
  refine ite_error_map <| ite_error_map <| ite_error_map <| ite_error_map <| ite_error_map <| ite_error_map <|
    ite_error_map ?_
  dsimp only [QueueSubscription.trimmed]
  generalize historyRange (trimSpace s.historyGeneration) _ _ = range
  rcases range with _ | _ | ⟨base, stop⟩ <;> rfl

/-- The broker's validation passes the subscription and changes neither pane nor stream id. -/
def QueueSubscription.Accepted (s : QueueSubscription) : Prop :=
  ∃ normalized request, validateTerminalQueueSubscription s = .ok (normalized, request) ∧
    normalized.paneID = s.paneID ∧ normalized.streamID = s.streamID

namespace QueueSubscription.Accepted

variable {s : QueueSubscription} (h : s.Accepted)

include h

theorem withPriority (priority : Int) : ({ s with priority := priority } : QueueSubscription).Accepted := by
  obtain ⟨normalized, request, hv, hp, hs⟩ := h
  exact ⟨{ normalized with priority := priority }, request, by rw [validate_withPriority, hv]; rfl, hp, hs⟩

theorem trims : trimSpace s.paneID = s.paneID ∧ trimSpace s.streamID = s.streamID := by
  obtain ⟨normalized, request, hv, hp, hs⟩ := h
  obtain rfl := validate_trimmed hv
  exact ⟨hp, hs⟩

/-- What is wanted for it keeps the identity and the priority. -/
theorem wanted {d : DesiredStream} (hd : Validates s d) :
    paneOf d = s.paneID ∧ d.subscription.streamID = s.streamID ∧
      d.subscription.channelGeneration = s.channelGeneration ∧ d.subscription.priority = s.priority := by
  obtain ⟨hp, hs⟩ := h.trims
  rw [paneOf, validate_trimmed hd]
  exact ⟨hp, hs, rfl, rfl⟩

end QueueSubscription.Accepted

theorem collectDesired_accepted : ∀ {subscriptions : List QueueSubscription} {acc : List DesiredStream},
    (∀ s ∈ subscriptions, s.Accepted) → (subscriptions.map fun s => s.paneID).Nodup →
      (∀ s ∈ subscriptions, ∀ d ∈ acc, paneOf d ≠ s.paneID) → ∃ desired, collectDesired subscriptions acc = .ok desired
  | [], acc, _, _, _ => ⟨acc, rfl⟩
  | s :: rest, acc, ha, hn, hne => by
    rw [List.map_cons, List.nodup_cons] at hn
    obtain ⟨normalized, request, hv, hp, -⟩ := ha s (List.mem_cons_self ..)
    have hnew : ¬ (acc.any fun d => d.subscription.paneID = normalized.paneID) = true := by
      rw [List.any_eq_true]
      rintro ⟨d, hd, he⟩
      exact hne s (List.mem_cons_self ..) d hd ((of_decide_eq_true he).trans hp)
    rw [collectDesired, hv]
    simp only [hnew, Bool.false_eq_true, if_false]
    refine collectDesired_accepted (fun x hx => ha x (List.mem_cons_of_mem _ hx)) hn.2 fun x hx d hd => ?_
    rcases List.mem_append.mp hd with hd | hd
    · exact hne x (List.mem_cons_of_mem _ hx) d hd
    · rw [List.mem_singleton.mp hd]
      intro he
      have hx' : x.paneID = s.paneID := by rw [← he, paneOf, hp]
      exact hn.1 (hx' ▸ List.mem_map_of_mem hx)

/-! ## The view -/

structure ActiveStream where
  streamID : String
  channelGeneration : Nat
  priority : Nat
  deriving DecidableEq

/-- The stream of each pane. -/
abbrev BrokerView := String → Option ActiveStream

def SubscribedStream.active (s : SubscribedStream) : ActiveStream where
  streamID := s.subscription.streamID
  channelGeneration := s.subscription.channelGeneration
  priority := s.stream.priority

def SubscriptionBroker.view (b : SubscriptionBroker) : BrokerView := fun paneID =>
  (b.streams.lookup paneID).bind fun i => b.heap[i]?.map SubscribedStream.active

/-- The stream that is started for a subscription. -/
def QueueSubscription.active (s : QueueSubscription) : ActiveStream where
  streamID := s.streamID
  channelGeneration := s.channelGeneration
  priority := clampTerminalStreamPriority s.priority

def ActiveStream.Is (a : ActiveStream) (streamID : String) (channelGeneration : Nat) : Prop :=
  a.streamID = streamID ∧ a.channelGeneration = channelGeneration

instance (a : ActiveStream) (streamID : String) (channelGeneration : Nat) : Decidable (a.Is streamID channelGeneration) :=
  inferInstanceAs (Decidable (_ ∧ _))

namespace BrokerView

/-- The stream of a pane once its subscription is in the list. -/
def renewed (v : BrokerView) (s : QueueSubscription) : ActiveStream :=
  match v s.paneID with
  | some a => if a.Is s.streamID s.channelGeneration then a else s.active
  | none => s.active

def replaced (v : BrokerView) (subscriptions : List QueueSubscription) : BrokerView := fun paneID =>
  (subscriptions.find? fun s => s.paneID = paneID).map v.renewed

def prioritized (v : BrokerView) (paneID : String) (priority : Int) : BrokerView := fun other =>
  if other = paneID then (v other).map fun a => { a with priority := clampTerminalStreamPriority priority } else v other

def handle (v : BrokerView) : TerminalQueueClientMessage → BrokerView
  | .replaceSubscriptions subscriptions => v.replaced subscriptions
  | .setPriority address priority => v.prioritized address.paneID priority
  | .paneControl _ _ => v

/-- The stream of an address is the one of its pane. -/
def Has (v : BrokerView) (address : PaneAddress) : Prop :=
  trimSpace address.paneID = address.paneID ∧ trimSpace address.streamID = address.streamID ∧
    ∃ a, v address.paneID = some a ∧ a.Is address.streamID address.channelGeneration

/-- A message that finds what it is about. -/
def Takes (limit : Int) (v : BrokerView) : TerminalQueueClientMessage → Prop
  | .replaceSubscriptions subscriptions =>
    subscriptions.length ≤ limit ∧ (subscriptions.map fun s => s.paneID).Nodup ∧ ∀ s ∈ subscriptions, s.Accepted
  | .setPriority address _ => v.Has address
  | .paneControl address _ => v.Has address

end BrokerView

/-! ## Priorities of streams -/

namespace QueuePaneStream

theorem perform_priority (s : QueuePaneStream) (work : QueueWork) : (s.perform work).1.priority = s.priority := by
  rcases s.perform_cases work with ⟨_, _, _, _, h⟩ | ⟨_, -, -, h⟩ | ⟨_, -, -, h⟩ <;> rw [h] <;> rfl

theorem settle_priority : ∀ (n : Nat) (s : QueuePaneStream) (works : List QueueWork), (s.settle n works).priority = s.priority
  | 0, _, _ => rfl
  | _ + 1, _, [] => rfl
  | n + 1, s, work :: rest => by rw [settle, settle_priority n, perform_priority]

theorem enqueueControl_priority (s : QueuePaneStream) (frame : TextFrame) : (s.enqueueControl frame).priority = s.priority :=
  settle_priority _ _ _

theorem acknowledgeTurn_priority (s : QueuePaneStream) (value : String) : (s.acknowledgeTurn value).1.priority = s.priority := by
  cases h : s.acknowledgeTurn value with
  | mk s' err =>
    cases err with
    | some err => rw [acknowledgeTurn_refused h]
    | none =>
      obtain ⟨_, _, -, ⟨-, -, -, rfl⟩ | ⟨-, _, _, _, -, -, rfl⟩ | ⟨-, -, -, -, rfl⟩⟩ := acknowledgeTurn_accepted h <;> rfl

end QueuePaneStream

theorem startPaneStream_active (w : DesiredStream) (sizes : Nat × Nat) :
    (startPaneStream w sizes).active = w.subscription.active := by
  simp only [SubscribedStream.active, startPaneStream, QueuePaneStream.enqueueControl_priority]
  rfl

/-! ## The broker computes the view -/

section
variable {b : SubscriptionBroker}

theorem view_some {paneID : String} {a : ActiveStream} (h : b.view paneID = some a) :
    ∃ i s, b.streams.lookup paneID = some i ∧ b.heap[i]? = some s ∧ s.active = a := by
  obtain ⟨i, hi, h⟩ := Option.bind_eq_some_iff.mp h
  obtain ⟨s, hs, h⟩ := Option.map_eq_some_iff.mp h
  exact ⟨i, s, hi, hs, h⟩

theorem view_of {paneID : String} {i : Nat} {s : SubscribedStream} (hi : b.streams.lookup paneID = some i)
    (hs : b.heap[i]? = some s) : b.view paneID = some s.active := by
  rw [SubscriptionBroker.view, hi, Option.bind_some, hs]
  rfl

theorem view_none {paneID : String} (h : b.streams.lookup paneID = none) : b.view paneID = none := by
  rw [SubscriptionBroker.view, h]
  rfl

theorem accepts_iff (s : SubscribedStream) (subscription : QueueSubscription) (ht : trimSpace subscription.streamID =
    subscription.streamID) : s.accepts subscription = true ↔ s.active.Is subscription.streamID subscription.channelGeneration := by
  rw [SubscribedStream.accepts, SubscribedStream.matchesIdentity, ht, Bool.and_eq_true, decide_eq_true_eq, decide_eq_true_eq]
  rfl

theorem startDesired_limit (opened : Opened) (b : SubscriptionBroker) (w : DesiredStream) :
    (b.startDesired opened w).maxSubscriptions = b.maxSubscriptions := by
  unfold SubscriptionBroker.startDesired SubscriptionBroker.WritePaneError
  split
  · split <;> rfl
  · dsimp only
    split <;> rfl

theorem replace_limit (subscriptions : List QueueSubscription) (opened : Opened) :
    (b.ReplaceSubscriptions subscriptions opened).1.maxSubscriptions = b.maxSubscriptions := by
  have hfold (ws : List DesiredStream) (b : SubscriptionBroker) :
      (ws.foldl (SubscriptionBroker.startDesired opened) b).maxSubscriptions = b.maxSubscriptions := by
    induction ws generalizing b with
    | nil => rfl
    | cons w ws ih => rw [List.foldl_cons, ih, startDesired_limit]
  rcases replace_cases b subscriptions opened with ⟨err, he⟩ | ⟨desired, -, he⟩
  · rw [he]
  · rw [he]
    exact hfold _ _

/-- What the list holds for a pane, and what is wanted for it. -/
theorem wants_of {subscriptions : List QueueSubscription} {wants : List DesiredStream}
    (h : List.Forall₂ Validates subscriptions wants) :
    (∀ s ∈ subscriptions, ∃ w ∈ wants, Validates s w) ∧ ∀ w ∈ wants, ∃ s ∈ subscriptions, Validates s w := by
  induction h with
  | nil => exact ⟨nofun, nofun⟩
  | @cons s w _ _ hv _ ih =>
    constructor
    · intro x hx
      rcases List.mem_cons.mp hx with rfl | hx
      · exact ⟨w, List.mem_cons_self .., hv⟩
      · obtain ⟨y, hy, h⟩ := ih.1 x hx
        exact ⟨y, List.mem_cons_of_mem _ hy, h⟩
    · intro x hx
      rcases List.mem_cons.mp hx with rfl | hx
      · exact ⟨s, List.mem_cons_self .., hv⟩
      · obtain ⟨y, hy, h⟩ := ih.2 x hx
        exact ⟨y, List.mem_cons_of_mem _ hy, h⟩

/-- A stream that the broker lacks is started, one that it has is kept. -/
theorem Replaced.renewed {b' : SubscriptionBroker} {wants : List DesiredStream} {sizes : String → Nat × Nat} (hb : BrokerOk b)
    (h : Replaced (fun paneID => .ok (sizes paneID)) wants b b') {s : QueueSubscription} {w : DesiredStream} (ha : s.Accepted)
    (hw : w ∈ wants) (hv : Validates s w) : b'.view s.paneID = some (b.view.renewed s) := by
  obtain ⟨hp, hs, hg, hpriority⟩ := ha.wanted hv
  have his (t : SubscribedStream) : t.accepts w.subscription = true ↔ t.active.Is s.streamID s.channelGeneration := by
    rw [accepts_iff _ _ (by rw [hs]; exact ha.trims.2), hs, hg]
  cases hl : b.lacks w with
  | false =>
    obtain ⟨i, t, hi, ht, hacc⟩ := lacks_false hb hl
    obtain ⟨hi', ht'⟩ := h.kept w hw i t hi ht hacc
    rw [hp] at hi hi'
    rw [view_of hi' ht', BrokerView.renewed, view_of hi ht]
    simp only [(his t).mp hacc, if_true]
  | true =>
    obtain ⟨i, t, -, hi, ht, hstart, -⟩ := h.fresh w hw hl _ rfl
    have hactive : t.active = s.active := by
      have hstarted : t.active = (startPaneStream w (sizes (paneOf w))).active := by rw [hstart]; rfl
      rw [hstarted, startPaneStream_active, QueueSubscription.active, hs, hg, hpriority]
      rfl
    rw [hp] at hi
    rw [view_of hi ht, hactive, BrokerView.renewed]
    split
    · rename_i a hview
      obtain ⟨j, u, hj, hu, rfl⟩ := view_some hview
      have hnot : ¬ u.active.Is s.streamID s.channelGeneration := by
        rw [← his, Bool.not_eq_true]
        rw [← hp] at hj
        simpa only [SubscriptionBroker.lacks, hj, hu, Bool.not_eq_true'] using hl
      rw [if_neg hnot]
    · rfl

theorem replace_view {subscriptions : List QueueSubscription} (hb : BrokerOk b) (hmax : 0 < b.maxSubscriptions)
    (ht : b.view.Takes b.maxSubscriptions (.replaceSubscriptions subscriptions)) (sizes : String → Nat × Nat) :
    BrokerOk (b.ReplaceSubscriptions subscriptions fun paneID => .ok (sizes paneID)).1 ∧
      (b.ReplaceSubscriptions subscriptions fun paneID => .ok (sizes paneID)).1.view = b.view.replaced subscriptions := by
  obtain ⟨hlimit, hn, ha⟩ := ht
  obtain ⟨desired, hd⟩ := collectDesired_accepted ha hn fun _ _ d (h : d ∈ []) => absurd h List.not_mem_nil
  have hnone : (b.ReplaceSubscriptions subscriptions fun paneID => .ok (sizes paneID)).2 = none := by
    unfold SubscriptionBroker.ReplaceSubscriptions
    simp only [show ¬ b.maxSubscriptions ≤ 0 by omega, if_false, show ¬ b.maxSubscriptions < subscriptions.length by omega]
    rw [hd]
  generalize hr : b.ReplaceSubscriptions subscriptions (fun paneID => .ok (sizes paneID)) = r at hnone ⊢
  obtain ⟨b', err⟩ := r
  obtain rfl : err = none := hnone
  obtain ⟨wants, hvalid, _, _, hp⟩ := replace_ok hb hr
  obtain ⟨hleft, hright⟩ := wants_of hvalid
  refine ⟨hp.brokerOk, funext fun paneID => ?_⟩
  unfold BrokerView.replaced
  cases hf : subscriptions.find? fun s => s.paneID = paneID with
  | none =>
    apply view_none
    rw [← Option.not_isSome_iff_eq_none, AList.lookup_isSome, hp.replaced.keys]
    rintro ⟨w, hw, he, -⟩
    obtain ⟨s, hs, hv⟩ := hright w hw
    have hne := List.find?_eq_none.mp hf s hs
    rw [(ha s hs).wanted hv |>.1] at he
    exact hne (decide_eq_true he)
  | some s =>
    have hs := List.mem_of_find?_eq_some hf
    obtain rfl : s.paneID = paneID := by simpa using List.find?_some hf
    obtain ⟨w, hw, hv⟩ := hleft s hs
    exact hp.replaced.renewed hb (ha s hs) hw hv

/-! ### Messages for one stream -/

theorem activeStream_of {address : PaneAddress} (h : b.view.Has address) :
    ∃ i s, b.activeStream address = some i ∧ b.streams.lookup address.paneID = some i ∧ b.heap[i]? = some s := by
  obtain ⟨hp, hs, a, hview, his⟩ := h
  obtain ⟨i, s, hi, hheap, rfl⟩ := view_some hview
  have hm : s.matchesIdentity address.streamID address.channelGeneration = true := by
    rw [SubscribedStream.matchesIdentity, hs, Bool.and_eq_true, decide_eq_true_eq, decide_eq_true_eq]
    exact his
  refine ⟨i, s, ?_, hi, hheap⟩
  rw [SubscriptionBroker.activeStream, hp, hi]
  simp only [hheap, hm, if_true]

/-- What is done to one stream is what its goroutines could do. -/
theorem modifyStream_event {i : Nat} {s : SubscribedStream} (hs : b.heap[i]? = some s) (f : QueuePaneStream → QueuePaneStream) :
    b.modifyStream i f = subscriptionEvent b (.stream i (f s.stream) false) := by
  simp only [SubscriptionBroker.modifyStream, subscriptionEvent, Bool.or_false]
  congr 1
  apply List.ext_getElem?
  intro j
  rw [List.getElem?_modify, List.getElem?_modify]
  by_cases hj : i = j
  · subst hj
    rw [hs]
    simp
  · simp [hj]

theorem stream_view (hb : BrokerOk b) {i : Nat} {s : SubscribedStream} {paneID : String}
    (hi : b.streams.lookup paneID = some i) (hs : b.heap[i]? = some s) (becomes : QueuePaneStream) (stops : Bool) :
    (subscriptionEvent b (.stream i becomes stops)).view =
      fun other => if other = paneID then some { s.active with priority := becomes.priority } else b.view other := by
  funext other
  simp only [SubscriptionBroker.view, subscriptionEvent]
  by_cases ho : other = paneID
  · subst ho
    rw [if_pos rfl, hi, Option.bind_some, List.getElem?_modify, hs]
    simp [SubscribedStream.active]
  · rw [if_neg ho]
    cases hl : b.streams.lookup other with
    | none => rfl
    | some j =>
      have hj : i ≠ j := by
        rintro rfl
        obtain ⟨_, ht, hp⟩ := hb.inHeap _ _ hl
        obtain ⟨_, hu, hq⟩ := hb.inHeap _ _ hi
        rw [ht, Option.some.injEq] at hu
        exact ho (by rw [← hp, hu, hq])
      rw [Option.bind_some, Option.bind_some, List.getElem?_modify]
      simp [hj]

/-- Whatever keeps the priority of a stream keeps the view. -/
theorem stream_keeps {i : Nat} {becomes : QueuePaneStream} (hi : b.heap[i]?.map (fun s => s.stream.priority) = some becomes.priority)
    (stops : Bool) : (subscriptionEvent b (.stream i becomes stops)).view = b.view := by
  obtain ⟨s, hs, hp⟩ := Option.map_eq_some_iff.mp hi
  funext paneID
  simp only [SubscriptionBroker.view, subscriptionEvent]
  cases b.streams.lookup paneID with
  | none => rfl
  | some j =>
    rw [Option.bind_some, Option.bind_some, List.getElem?_modify]
    by_cases hj : i = j
    · subst hj
      rw [hs]
      simp [SubscribedStream.active, hp]
    · simp [hj]

theorem modifyStream_keeps (hb : BrokerOk b) {i : Nat} {s : SubscribedStream} (hs : b.heap[i]? = some s)
    (f : QueuePaneStream → QueuePaneStream) (hf : ∀ t, (f t).priority = t.priority) :
    BrokerOk (b.modifyStream i f) ∧ (b.modifyStream i f).view = b.view := by
  rw [modifyStream_event hs]
  exact ⟨subscriptionEvent_ok hb _, stream_keeps (by rw [hs, hf]; rfl) false⟩

theorem setPriority_view (hb : BrokerOk b) {address : PaneAddress} (h : b.view.Has address) (priority : Int) :
    ∃ b', b.SetPriority address priority = (b', none) ∧ BrokerOk b' ∧ b'.view = b.view.prioritized address.paneID priority ∧
      b'.maxSubscriptions = b.maxSubscriptions := by
  obtain ⟨i, s, ha, hi, hs⟩ := activeStream_of h
  refine ⟨b.modifyStream i fun s => { s with priority := clampTerminalStreamPriority priority },
    by simp only [SubscriptionBroker.SetPriority, ha], ?_, ?_, rfl⟩ <;> rw [modifyStream_event hs]
  · exact subscriptionEvent_ok hb _
  · rw [stream_view hb hi hs]
    funext other
    unfold BrokerView.prioritized
    by_cases ho : other = address.paneID
    · subst ho
      rw [if_pos rfl, if_pos rfl, view_of hi hs]
      rfl
    · rw [if_neg ho, if_neg ho]

/-- A control never touches identity or priority, and is not refused for want of its stream. -/
theorem handlePaneControl_view (hb : BrokerOk b) {address : PaneAddress} (h : b.view.Has address) (payload : ControlPayload)
    (answers : ControlAnswers) :
    BrokerOk (b.HandlePaneControl address payload answers).1 ∧
      (b.HandlePaneControl address payload answers).1.view = b.view ∧
      (b.HandlePaneControl address payload answers).1.maxSubscriptions = b.maxSubscriptions ∧
      (b.HandlePaneControl address payload answers).2 ≠ some .controlNotActive ∧
      (b.HandlePaneControl address payload answers).2 ≠ some .priorityNotActive := by
  obtain ⟨i, s, ha, -, hs⟩ := activeStream_of h
  have hwrite (r : StreamRefusal) (hr : b.writeAgentFrame i answers = some r) : r = .streamClosed ∨ ∃ err, r = .agentWrite err := by
    unfold SubscriptionBroker.writeAgentFrame at hr
    split at hr
    · exact .inl (Option.some.inj hr).symm
    · obtain ⟨err, -, rfl⟩ := Option.map_eq_some_iff.mp hr
      exact .inr ⟨err, rfl⟩
  have hsame (r : Option StreamRefusal) (hc : r ≠ some .controlNotActive) (hp : r ≠ some .priorityNotActive) :
      BrokerOk b ∧ b.view = b.view ∧ b.maxSubscriptions = b.maxSubscriptions ∧ r ≠ some .controlNotActive ∧
        r ≠ some .priorityNotActive := ⟨hb, rfl, rfl, hc, hp⟩
  have hagent := hsame (b.writeAgentFrame i answers)
    (fun hr => by rcases hwrite _ hr with h | ⟨_, h⟩ <;> cases h) fun hr => by rcases hwrite _ hr with h | ⟨_, h⟩ <;> cases h
  unfold SubscriptionBroker.HandlePaneControl
  rw [ha]
  cases payload with
  | missing => exact hsame _ nofun nofun
  | undecodable => exact hsame _ nofun nofun
  | decoded control =>
    dsimp only
    split
    · obtain ⟨hok, hview⟩ := modifyStream_keeps hb hs _ fun t =>
        t.enqueueControl_priority (BrokerControl.pong.frame answers.pongSize)
      exact ⟨hok, hview, rfl, nofun, nofun⟩
    · exact hagent
    · exact hagent
    · exact hsame _ nofun nofun
    · exact hsame _ nofun nofun
    · split
      · exact hsame _ nofun nofun
      · split
        · exact hsame _ nofun nofun
        · exact hagent
    · split
      · obtain ⟨hok, hview⟩ := modifyStream_keeps hb hs (fun t => (t.acknowledgeTurn control.Data).1) fun t =>
          t.acknowledgeTurn_priority control.Data
        refine ⟨hok, hview, rfl, ?_, ?_⟩
        all_goals
          intro hr
          obtain ⟨_, -, hr⟩ := Option.bind_eq_some_iff.mp hr
          obtain ⟨_, -, hr⟩ := Option.map_eq_some_iff.mp hr
          cases hr
      · exact hsame _ nofun nofun

/-- **Handling refines the view**: a message that finds what it is about does to the broker what it
means, and no stream is missing for it. -/
theorem handle_view (hb : BrokerOk b) (hmax : 0 < b.maxSubscriptions) {message : TerminalQueueClientMessage}
    (h : b.view.Takes b.maxSubscriptions message) (sizes : String → Nat × Nat) (answers : ControlAnswers) :
    BrokerOk (b.handle (fun paneID => .ok (sizes paneID)) answers message).1 ∧
      (b.handle (fun paneID => .ok (sizes paneID)) answers message).1.view = b.view.handle message ∧
      (b.handle (fun paneID => .ok (sizes paneID)) answers message).1.maxSubscriptions = b.maxSubscriptions ∧
      (b.handle (fun paneID => .ok (sizes paneID)) answers message).2 ≠ some .controlNotActive ∧
      (b.handle (fun paneID => .ok (sizes paneID)) answers message).2 ≠ some .priorityNotActive := by
  cases message with
  | replaceSubscriptions subscriptions =>
    obtain ⟨hok, hview⟩ := replace_view hb hmax h sizes
    exact ⟨hok, hview, replace_limit _ _, nofun, nofun⟩
  | setPriority address priority =>
    obtain ⟨b', he, hok, hview, hlimit⟩ := setPriority_view hb h priority
    rw [SubscriptionBroker.handle, he]
    exact ⟨hok, hview, hlimit, nofun, nofun⟩
  | paneControl address control => exact handlePaneControl_view hb h control answers

end

end Webshell
