import Webshell.QueueSubscriptions
import Mathlib.Data.List.Forall2

/-!
# What replacing the subscriptions leaves

Each loop of the call is described once: the collection of the wants, the pass
over the map, the stopping, and the starting of what is missing. Between calls
the map names exactly the streams that are not stopped, and no order is above
the counter.
-/

namespace Webshell

/-! ## Collecting the wants -/

def paneOf (d : DesiredStream) : String := d.subscription.paneID

def Validates (s : QueueSubscription) (d : DesiredStream) : Prop :=
  validateTerminalQueueSubscription s = .ok (d.subscription, d.syncRequest)

theorem collectDesired_ok : ∀ {subscriptions : List QueueSubscription} {acc desired : List DesiredStream},
    collectDesired subscriptions acc = .ok desired → (acc.map paneOf).Nodup →
      (desired.map paneOf).Nodup ∧ ∃ more, desired = acc ++ more ∧ List.Forall₂ Validates subscriptions more
  | [], acc, desired, h, hn => by
    rw [collectDesired, Except.ok.injEq] at h
    subst h
    exact ⟨hn, [], by simp, .nil⟩
  | subscription :: rest, acc, desired, h, hn => by
    rw [collectDesired] at h
    cases hv : validateTerminalQueueSubscription subscription with
    | error err => rw [hv] at h; cases h
    | ok r =>
      obtain ⟨normalized, syncRequest⟩ := r
      rw [hv] at h
      simp only at h
      split at h
      · cases h
      · rename_i hdup
        have hn' : ((acc ++ [(⟨normalized, syncRequest⟩ : DesiredStream)]).map paneOf).Nodup := by
          rw [List.map_append, List.nodup_append]
          refine ⟨hn, List.nodup_singleton _, fun a ha c hc he => hdup ?_⟩
          obtain ⟨d, hd, rfl⟩ := List.mem_map.mp ha
          rw [List.map_cons, List.map_nil, List.mem_singleton] at hc
          rw [hc] at he
          exact List.any_eq_true.mpr ⟨d, hd, decide_eq_true he⟩
        obtain ⟨hnodup, more, rfl, hmore⟩ := collectDesired_ok h hn'
        exact ⟨hnodup, ⟨normalized, syncRequest⟩ :: more, by simp, .cons hv hmore⟩

/-! ## The pass over the map -/

theorem findDesired_some {paneID : String} {desired : List DesiredStream} {d : DesiredStream}
    (h : findDesired paneID desired = some d) : d ∈ desired ∧ paneOf d = paneID :=
  ⟨List.mem_of_find?_eq_some h, by simpa [paneOf] using List.find?_some h⟩

theorem findDesired_mem {desired : List DesiredStream} (hn : (desired.map paneOf).Nodup) {d : DesiredStream}
    (hd : d ∈ desired) : findDesired (paneOf d) desired = some d := by
  induction desired with
  | nil => cases hd
  | cons x desired ih =>
    rw [List.map_cons, List.nodup_cons] at hn
    unfold findDesired at ih ⊢
    rw [List.find?_cons]
    rcases List.mem_cons.mp hd with rfl | hd
    · simp [paneOf]
    · have hne : ¬ x.subscription.paneID = paneOf d := fun he => hn.1 (by
        have hx : paneOf x = paneOf d := he
        rw [hx]; exact List.mem_map_of_mem hd)
      simp only [hne, decide_false]
      exact ih hn.2 hd

theorem findDesired_filter {paneID other : String} (h : paneID ≠ other) (desired : List DesiredStream) :
    findDesired paneID (desired.filter fun d => d.subscription.paneID ≠ other) = findDesired paneID desired := by
  unfold findDesired
  rw [List.find?_filter]
  congr 1
  funext d
  by_cases hd : d.subscription.paneID = paneID
  · simp [hd, h]
  · simp [hd]

theorem stillWanted_filter {heap : List SubscribedStream} {entry : (_ : String) × Nat} {other : String}
    (h : entry.1 ≠ other) (desired : List DesiredStream) :
    stillWanted heap (desired.filter fun d => d.subscription.paneID ≠ other) entry = stillWanted heap desired entry := by
  unfold stillWanted
  rw [findDesired_filter h]

structure Retired (heap : List SubscribedStream) (entries : List ((_ : String) × Nat)) (r r' : Retiring) : Prop where
  others : ∀ paneID, (∀ e ∈ entries, e.1 ≠ paneID) → r'.streams.lookup paneID = r.streams.lookup paneID
  passed : ∀ e ∈ entries,
    r'.streams.lookup e.1 = if stillWanted heap r.desired e then r.streams.lookup e.1 else none
  desired : r'.desired = r.desired.filter fun d =>
    !entries.any fun e => decide (e.1 = d.subscription.paneID) && stillWanted heap r.desired e
  removed : r'.removed = r.removed ++ (entries.filter fun e => !stillWanted heap r.desired e).map Sigma.snd

theorem retire_spec (heap : List SubscribedStream) : ∀ (entries : List ((_ : String) × Nat)) (r : Retiring),
    (entries.map Sigma.fst).Nodup → Retired heap entries r (entries.foldl (retireEntry heap) r)
  | [], r, _ => ⟨fun _ _ => rfl, fun e he => (by cases he), by simp, by simp⟩
  | e :: entries, r, hn => by
    rw [List.map_cons, List.nodup_cons] at hn
    have hne : ∀ e' ∈ entries, e'.1 ≠ e.1 := fun e' he' h => hn.1 (h ▸ List.mem_map_of_mem he')
    have ih := retire_spec heap entries (retireEntry heap r e) hn.2
    rw [List.foldl_cons]
    cases hw : stillWanted heap r.desired e with
    | true =>
      have hr : retireEntry heap r e = { r with desired := r.desired.filter fun d => d.subscription.paneID ≠ e.1 } := by
        rw [retireEntry, if_pos hw]
      rw [hr] at ih ⊢
      have hsame : ∀ e' ∈ entries, stillWanted heap (r.desired.filter fun d => d.subscription.paneID ≠ e.1) e' =
          stillWanted heap r.desired e' := fun e' he' => stillWanted_filter (hne e' he') _
      constructor
      · exact fun paneID h => ih.others paneID fun e' he' => h e' (List.mem_cons_of_mem _ he')
      · intro e' he'
        rcases List.mem_cons.mp he' with rfl | he'
        · rw [hw, if_pos rfl]
          exact ih.others _ hne
        · rw [ih.passed e' he', hsame e' he']
      · rw [ih.desired, List.filter_filter]
        apply List.filter_congr
        intro d _
        rw [List.any_cons, hw, Bool.and_true]
        have hany : (entries.any fun e' => decide (e'.1 = d.subscription.paneID) &&
              stillWanted heap (r.desired.filter fun d => d.subscription.paneID ≠ e.1) e') =
            entries.any fun e' => decide (e'.1 = d.subscription.paneID) && stillWanted heap r.desired e' :=
          by
            rw [Bool.eq_iff_iff, List.any_eq_true, List.any_eq_true]
            exact exists_congr fun e' => and_congr_right fun he' => by rw [hsame e' he']
        rw [hany]
        by_cases hd : d.subscription.paneID = e.1
        · simp [hd]
        · simp [hd, Ne.symm hd]
      · rw [ih.removed, List.filter_cons]
        simp only [hw, Bool.not_true, Bool.false_eq_true, if_false]
        rw [List.filter_congr fun e' he' => by rw [hsame e' he']]
    | false =>
      have hr : retireEntry heap r e = { r with streams := r.streams.erase e.1, removed := r.removed ++ [e.2] } := by
        rw [retireEntry, if_neg (by rw [hw]; decide)]
      rw [hr] at ih ⊢
      constructor
      · intro paneID h
        rw [ih.others paneID fun e' he' => h e' (List.mem_cons_of_mem _ he')]
        exact AList.lookup_erase_ne (Ne.symm (h e (List.mem_cons_self ..)))
      · intro e' he'
        rcases List.mem_cons.mp he' with rfl | he'
        · rw [hw, ih.others _ hne]
          exact AList.lookup_erase ..
        · rw [ih.passed e' he']
          split
          · exact AList.lookup_erase_ne (hne e' he')
          · rfl
      · rw [ih.desired]
        apply List.filter_congr
        intro d _
        rw [List.any_cons, hw, Bool.and_false, Bool.false_or]
      · rw [ih.removed, List.filter_cons]
        simp [hw]

/-! ## Stopping -/

theorem retire_idem (s : SubscribedStream) : s.retire.retire = s.retire := rfl

theorem retireAll_getElem? : ∀ (removed : List Nat) (heap : List SubscribedStream) (j : Nat),
    (removed.foldl (fun heap i => heap.modify i SubscribedStream.retire) heap)[j]? =
      if j ∈ removed then heap[j]?.map SubscribedStream.retire else heap[j]?
  | [], heap, j => by simp
  | i :: removed, heap, j => by
    rw [List.foldl_cons, retireAll_getElem? removed, List.getElem?_modify]
    by_cases hi : i = j
    · subst hi
      cases heap[i]? with
      | none => simp
      | some s => simp [retire_idem]
    · have hj : j ∈ i :: removed ↔ j ∈ removed := by simp [Ne.symm hi]
      simp only [hi, if_false, hj, Option.map_eq_map, Option.map_id']

theorem retireAll_length (removed : List Nat) (heap : List SubscribedStream) :
    (removed.foldl (fun heap i => heap.modify i SubscribedStream.retire) heap).length = heap.length := by
  induction removed generalizing heap with
  | nil => rfl
  | cons i removed ih => rw [List.foldl_cons, ih, List.length_modify]

/-! ## Starting what is missing -/

/-- The pane error of a want that cannot be opened. -/
def openFailure (opened : Opened) (want : DesiredStream) : Option PaneError :=
  match opened (paneOf want) with
  | .error err => some {
      paneID := GoText.trimSpace want.subscription.paneID, streamID := GoText.trimSpace want.subscription.streamID
      channelGeneration := want.subscription.channelGeneration, payload := AgentConnectionErrorPayload err }
  | .ok _ => none

structure Started (opened : Opened) (b : SubscriptionBroker) (missing : List DesiredStream) (b' : SubscriptionBroker)
    (news : List SubscribedStream) : Prop where
  heap : b'.heap = b.heap ++ news
  orders : news.map SubscribedStream.order = List.range' (b.nextOrder + 1) news.length
  nextOrder : b'.nextOrder = b.nextOrder + news.length
  errors : b'.paneErrors = b.paneErrors ++ if b.writes then missing.filterMap (openFailure opened) else []
  writes : b'.writes = b.writes
  others : ∀ paneID, (∀ w ∈ missing, paneOf w ≠ paneID) → b'.streams.lookup paneID = b.streams.lookup paneID
  failed : ∀ w ∈ missing, ∀ err, opened (paneOf w) = .error err → b'.streams.lookup (paneOf w) = none
  started : ∀ w ∈ missing, ∀ sizes, opened (paneOf w) = .ok sizes → ∃ i n, news[i]? = some n ∧
    n = { startPaneStream w sizes with order := n.order } ∧ b'.streams.lookup (paneOf w) = some (b.heap.length + i)
  mapped : ∀ (i : Nat) (n : SubscribedStream), news[i]? = some n →
    b'.streams.lookup n.subscription.paneID = some (b.heap.length + i)

theorem startPaneStream_paneID (w : DesiredStream) (sizes : Nat × Nat) :
    (startPaneStream w sizes).subscription.paneID = paneOf w := rfl

theorem startDesired_failed {opened : Opened} {b : SubscriptionBroker} {w : DesiredStream} {err : String}
    (h : opened (paneOf w) = .error err) :
    (b.startDesired opened w).heap = b.heap ∧ (b.startDesired opened w).streams = b.streams ∧
      (b.startDesired opened w).nextOrder = b.nextOrder ∧ (b.startDesired opened w).writes = b.writes ∧
      (b.startDesired opened w).paneErrors = b.paneErrors ++ if b.writes then (openFailure opened w).toList else [] := by
  have h' : opened w.subscription.paneID = .error err := h
  simp only [SubscriptionBroker.startDesired, h', openFailure, h, SubscriptionBroker.WritePaneError]
  split <;> simp

theorem startDesired_ok {opened : Opened} {b : SubscriptionBroker} {w : DesiredStream} {sizes : Nat × Nat}
    (h : opened (paneOf w) = .ok sizes) (hnone : b.streams.lookup (paneOf w) = none) :
    b.startDesired opened w = { b with
      nextOrder := b.nextOrder + 1
      heap := b.heap ++ [{ startPaneStream w sizes with order := b.nextOrder + 1 }]
      streams := b.streams.insert (paneOf w) b.heap.length } := by
  have h' : opened w.subscription.paneID = .ok sizes := h
  have hnone' : b.streams.lookup w.subscription.paneID = none := hnone
  simp only [SubscriptionBroker.startDesired, h', hnone']
  rfl

section
variable {opened : Opened} {b b' : SubscriptionBroker} {w : DesiredStream} {missing : List DesiredStream}
  {news : List SubscribedStream}

theorem Started.consFailed {err : String} (ho : opened (paneOf w) = .error err)
    (hnone : b.streams.lookup (paneOf w) = none) (hne : ∀ x ∈ missing, paneOf x ≠ paneOf w)
    (ih : Started opened (b.startDesired opened w) missing b' news) : Started opened b (w :: missing) b' news := by
  obtain ⟨hheap, hstreams, hnext, hwrites, herrors⟩ := startDesired_failed (b := b) ho
  refine ⟨by rw [ih.heap, hheap], by rw [ih.orders, hnext], by rw [ih.nextOrder, hnext], ?_,
    ih.writes.trans hwrites, ?_, ?_, ?_, ?_⟩
  · rw [ih.errors, herrors, hwrites]
    have hf : openFailure opened w ≠ none := by simp [openFailure, ho]
    obtain ⟨e, he⟩ := Option.ne_none_iff_exists'.mp hf
    split <;> simp [he]
  · intro paneID h
    rw [ih.others paneID fun x hx => h x (List.mem_cons_of_mem _ hx), hstreams]
  · intro x hx err' he
    rcases List.mem_cons.mp hx with rfl | hx
    · rw [ih.others _ hne, hstreams]
      exact hnone
    · exact ih.failed x hx err' he
  · intro x hx sizes he
    rcases List.mem_cons.mp hx with rfl | hx
    · rw [ho] at he; cases he
    · rw [← hheap]; exact ih.started x hx sizes he
  · rw [← hheap]; exact ih.mapped

theorem Started.consOk {sizes : Nat × Nat} (ho : opened (paneOf w) = .ok sizes)
    (hnone : b.streams.lookup (paneOf w) = none) (hne : ∀ x ∈ missing, paneOf x ≠ paneOf w)
    (ih : Started opened (b.startDesired opened w) missing b' news) :
    Started opened b (w :: missing) b' ({ startPaneStream w sizes with order := b.nextOrder + 1 } :: news) := by
  have hb := startDesired_ok ho hnone
  have hlookup : (b.startDesired opened w).streams.lookup (paneOf w) = some b.heap.length := by
    rw [hb]; exact AList.lookup_insert ..
  have hlen : (b.startDesired opened w).heap.length = b.heap.length + 1 := by rw [hb]; simp
  constructor
  · rw [ih.heap, hb]; simp
  · rw [List.map_cons, ih.orders, hb, List.length_cons, List.range'_succ]
  · rw [ih.nextOrder, hb, List.length_cons]; simp only; omega
  · have hf : openFailure opened w = none := by simp [openFailure, ho]
    rw [ih.errors, hb, List.filterMap_cons, hf]
  · rw [ih.writes, hb]
  · intro paneID h
    rw [ih.others paneID fun x hx => h x (List.mem_cons_of_mem _ hx), hb]
    exact AList.lookup_insert_ne (Ne.symm (h w (List.mem_cons_self ..)))
  · intro x hx err he
    rcases List.mem_cons.mp hx with rfl | hx
    · rw [ho] at he; cases he
    · exact ih.failed x hx err he
  · intro x hx sizes' he
    rcases List.mem_cons.mp hx with rfl | hx
    · rw [ho] at he
      cases he
      exact ⟨0, { startPaneStream x sizes with order := b.nextOrder + 1 }, rfl, rfl, by
        rw [ih.others _ hne, hlookup]; rfl⟩
    · obtain ⟨i, n, hi, hn', hl⟩ := ih.started x hx sizes' he
      exact ⟨i + 1, n, hi, hn', by rw [hl, hlen]; congr 1; omega⟩
  · intro i n hi
    cases i with
    | zero =>
      rw [List.getElem?_cons_zero, Option.some.injEq] at hi
      subst hi
      simp only [startPaneStream_paneID]
      rw [ih.others _ hne, hlookup]; rfl
    | succ i =>
      rw [ih.mapped i n hi, hlen]
      congr 1; omega

end

theorem start_spec (opened : Opened) {missing : List DesiredStream} (hn : (missing.map paneOf).Nodup) :
    ∀ b : SubscriptionBroker, (∀ w ∈ missing, b.streams.lookup (paneOf w) = none) →
      ∃ news, Started opened b missing (missing.foldl (SubscriptionBroker.startDesired opened) b) news := by
  induction missing with
  | nil =>
    intro b _
    refine ⟨[], by simp, rfl, rfl, by simp, rfl, fun _ _ => rfl, fun w hw => ?_, fun w hw => ?_, fun i n hi => ?_⟩
    · cases hw
    · cases hw
    · simp at hi
  | cons w missing ih =>
    intro b hnone
    rw [List.map_cons, List.nodup_cons] at hn
    have hne : ∀ x ∈ missing, paneOf x ≠ paneOf w := fun x hx he => hn.1 (he ▸ List.mem_map_of_mem hx)
    have hw := hnone w (List.mem_cons_self ..)
    rw [List.foldl_cons]
    cases ho : opened (paneOf w) with
    | error err =>
      obtain ⟨-, hstreams, -⟩ := startDesired_failed (b := b) ho
      obtain ⟨news, hs⟩ := ih hn.2 (b.startDesired opened w)
        fun x hx => by rw [hstreams]; exact hnone x (List.mem_cons_of_mem _ hx)
      exact ⟨news, hs.consFailed ho hw hne⟩
    | ok sizes =>
      have hb := startDesired_ok ho hw
      obtain ⟨news, hs⟩ := ih hn.2 (b.startDesired opened w) fun x hx => by
        rw [hb]
        exact (AList.lookup_insert_ne (hne x hx)).trans (hnone x (List.mem_cons_of_mem _ hx))
      exact ⟨_, hs.consOk ho hw hne⟩

/-! ## Between calls -/

structure BrokerOk (b : SubscriptionBroker) : Prop where
  inHeap : ∀ paneID i, b.streams.lookup paneID = some i → ∃ s, b.heap[i]? = some s ∧ s.subscription.paneID = paneID
  /-- A stream that is not stopped is the one of its pane. -/
  live : ∀ (i : Nat) (s : SubscribedStream), b.heap[i]? = some s → s.stopped = false →
    b.streams.lookup s.subscription.paneID = some i
  orders : ∀ s ∈ b.heap, s.order ≤ b.nextOrder

/-- No stream of the want's pane is the one it asks for. -/
def SubscriptionBroker.lacks (b : SubscriptionBroker) (w : DesiredStream) : Bool :=
  match b.streams.lookup (paneOf w) with
  | none => true
  | some i =>
    match b.heap[i]? with
    | none => true
    | some s => !s.accepts w.subscription

/-- What a call that returns no error has done. -/
structure Replaced (opened : Opened) (wants : List DesiredStream) (b b' : SubscriptionBroker) : Prop where
  kept : ∀ w ∈ wants, ∀ i s, b.streams.lookup (paneOf w) = some i → b.heap[i]? = some s →
    s.accepts w.subscription = true → b'.streams.lookup (paneOf w) = some i ∧ b'.heap[i]? = some s
  retired : ∀ paneID i s, b.streams.lookup paneID = some i → b.heap[i]? = some s →
    (∀ w ∈ wants, paneOf w = paneID → s.accepts w.subscription = false) →
      b'.heap[i]? = some s.retire ∧ ∀ paneID', b'.streams.lookup paneID' ≠ some i
  keys : ∀ paneID, paneID ∈ b'.streams ↔ ∃ w ∈ wants, paneOf w = paneID ∧
    ¬ (b.lacks w = true ∧ ∃ err, opened paneID = .error err)
  errors : b'.paneErrors = b.paneErrors ++
    if b.writes then (wants.filter b.lacks).filterMap (openFailure opened) else []
  fresh : ∀ w ∈ wants, b.lacks w = true → ∀ sizes, opened (paneOf w) = .ok sizes → ∃ i s,
    b.heap.length ≤ i ∧ b'.streams.lookup (paneOf w) = some i ∧ b'.heap[i]? = some s ∧
      s = { startPaneStream w sizes with order := s.order } ∧ b.nextOrder < s.order
  orders : ∃ news : List SubscribedStream, b'.heap.drop b.heap.length = news ∧
    news.map SubscribedStream.order = List.range' (b.nextOrder + 1) news.length

section
variable {b : SubscriptionBroker} {desired : List DesiredStream} {opened : Opened}

theorem lookup_entry {paneID : String} {i : Nat} :
    b.streams.lookup paneID = some i ↔ (⟨paneID, i⟩ : (_ : String) × Nat) ∈ b.streams.entries :=
  AList.mem_lookup_iff

theorem stillWanted_of {w : DesiredStream} (hn : (desired.map paneOf).Nodup) (hw : w ∈ desired) {i : Nat}
    {s : SubscribedStream} (hs : b.heap[i]? = some s) :
    stillWanted b.heap desired ⟨paneOf w, i⟩ = s.accepts w.subscription := by
  unfold stillWanted
  rw [findDesired_mem hn hw, hs]

theorem stillWanted_some {e : (_ : String) × Nat} (h : stillWanted b.heap desired e = true) :
    ∃ w ∈ desired, paneOf w = e.1 ∧ ∃ s, b.heap[e.2]? = some s ∧ s.accepts w.subscription = true := by
  unfold stillWanted at h
  split at h
  · rename_i want s hf hs
    obtain ⟨hm, hp⟩ := findDesired_some hf
    exact ⟨want, hm, hp, s, hs, h⟩
  · cases h

/-- The pass over the whole map, told by lookups. -/
structure Passed (b : SubscriptionBroker) (desired : List DesiredStream) (r : Retiring) : Prop where
  keeps : ∀ paneID i, r.streams.lookup paneID = some i ↔
    b.streams.lookup paneID = some i ∧ stillWanted b.heap desired ⟨paneID, i⟩ = true
  missing : r.desired = desired.filter b.lacks
  removed : ∀ i, i ∈ r.removed ↔ ∃ paneID, b.streams.lookup paneID = some i ∧
    stillWanted b.heap desired ⟨paneID, i⟩ = false

theorem pass_spec (hb : BrokerOk b) (hn : (desired.map paneOf).Nodup) :
    Passed b desired (b.streams.entries.foldl (retireEntry b.heap) { desired := desired, streams := b.streams }) := by
  have h := retire_spec b.heap b.streams.entries { desired := desired, streams := b.streams } b.streams.nodupKeys
  generalize b.streams.entries.foldl (retireEntry b.heap) { desired := desired, streams := b.streams } = r at h
  constructor
  · intro paneID i
    cases hl : b.streams.lookup paneID with
    | none =>
      have hr := h.others paneID fun e he hk => by
        have := lookup_entry.mpr (show (⟨e.1, e.2⟩ : (_ : String) × Nat) ∈ b.streams.entries from he)
        rw [hk, hl] at this; cases this
      rw [hr, hl]
      simp
    | some j =>
      have hr := h.passed _ (lookup_entry.mp hl)
      simp only at hr
      rw [hr, hl]
      split <;> rename_i hw
      · rw [Option.some.injEq]
        exact ⟨fun hj => ⟨hj, hj ▸ hw⟩, fun hj => hj.1⟩
      · refine ⟨fun hj => (by cases hj), fun hj => ?_⟩
        rw [Option.some.injEq] at hj
        exact absurd (hj.1 ▸ hj.2) hw
  · rw [h.desired]
    apply List.filter_congr
    intro w hw
    rw [Bool.eq_iff_iff, Bool.not_eq_true', List.any_eq_false]
    unfold SubscriptionBroker.lacks
    cases hl : b.streams.lookup (paneOf w) with
    | none =>
      refine ⟨fun _ => rfl, fun _ e he => ?_⟩
      have hne : ¬ e.1 = w.subscription.paneID := fun hk => by
        have := lookup_entry.mpr (show (⟨e.1, e.2⟩ : (_ : String) × Nat) ∈ b.streams.entries from he)
        rw [hk] at this
        rw [show b.streams.lookup w.subscription.paneID = none from hl] at this
        cases this
      simp [hne]
    | some i =>
      obtain ⟨s, hs, -⟩ := hb.inHeap _ _ hl
      have hwant := stillWanted_of hn hw hs
      simp only [hs]
      constructor
      · intro hall
        have := hall _ (lookup_entry.mp hl)
        rw [hwant] at this
        simpa [paneOf] using this
      · intro hnot e he hcontra
        simp only [Bool.and_eq_true, decide_eq_true_eq] at hcontra
        have hl' := lookup_entry.mpr (show (⟨e.1, e.2⟩ : (_ : String) × Nat) ∈ b.streams.entries from he)
        have hkey : e.1 = paneOf w := hcontra.1
        rw [hkey, hl, Option.some.injEq] at hl'
        have he' : e = ⟨paneOf w, i⟩ := by
          obtain ⟨k, j⟩ := e
          simp only at hkey hl'
          rw [hkey, hl']
        rw [he', hwant] at hcontra
        rw [hcontra.2] at hnot
        cases hnot
  · intro i
    rw [h.removed]
    simp only [List.nil_append, List.mem_map, List.mem_filter, Bool.not_eq_true']
    constructor
    · rintro ⟨⟨k, j⟩, ⟨hm, hw⟩, rfl⟩
      exact ⟨k, lookup_entry.mpr hm, hw⟩
    · rintro ⟨paneID, hl, hw⟩
      exact ⟨⟨paneID, i⟩, ⟨lookup_entry.mp hl, hw⟩, rfl⟩

end

/-! ## The whole call -/

section
variable {b b' : SubscriptionBroker} {desired : List DesiredStream} {opened : Opened} {r : Retiring}
  {news : List SubscribedStream}

theorem lacks_wanted (hb : BrokerOk b) (hn : (desired.map paneOf).Nodup) {w : DesiredStream} (hw : w ∈ desired) {i : Nat}
    (hl : b.streams.lookup (paneOf w) = some i) : stillWanted b.heap desired ⟨paneOf w, i⟩ = !b.lacks w := by
  obtain ⟨s, hs, -⟩ := hb.inHeap _ _ hl
  rw [stillWanted_of hn hw hs]
  simp [SubscriptionBroker.lacks, hl, hs]

theorem lacks_false (hb : BrokerOk b) {w : DesiredStream} (h : b.lacks w = false) :
    ∃ i s, b.streams.lookup (paneOf w) = some i ∧ b.heap[i]? = some s ∧ s.accepts w.subscription = true := by
  unfold SubscriptionBroker.lacks at h
  cases hl : b.streams.lookup (paneOf w) with
  | none => rw [hl] at h; cases h
  | some i =>
    obtain ⟨s, hs, -⟩ := hb.inHeap _ _ hl
    rw [hl] at h
    simp only [hs, Bool.not_eq_false'] at h
    exact ⟨i, s, rfl, hs, h⟩

theorem paneOf_inj (hn : (desired.map paneOf).Nodup) {w x : DesiredStream} (hw : w ∈ desired) (hx : x ∈ desired)
    (h : paneOf x = paneOf w) : x = w := by
  have hf := findDesired_mem hn hx
  rw [h, findDesired_mem hn hw, Option.some.injEq] at hf
  exact hf.symm

/-- The passes of one call: `r` is left by the loop over the map, `b'` by the loop over the wants. -/
structure Passes (opened : Opened) (desired : List DesiredStream) (b : SubscriptionBroker) (r : Retiring)
    (b' : SubscriptionBroker) (news : List SubscribedStream) : Prop where
  ok : BrokerOk b
  nodup : (desired.map paneOf).Nodup
  passed : Passed b desired r
  started : Started opened { b with
    heap := r.removed.foldl (fun heap i => heap.modify i SubscribedStream.retire) b.heap
    streams := r.streams } (desired.filter b.lacks) b' news

namespace Passes

variable (h : Passes opened desired b r b' news)

include h

theorem heapLength : b.heap.length ≤ b'.heap.length := by
  rw [h.started.heap, List.length_append, retireAll_length]
  omega

theorem heapOld {i : Nat} (hi : i < b.heap.length) :
    b'.heap[i]? = if i ∈ r.removed then b.heap[i]?.map SubscribedStream.retire else b.heap[i]? := by
  rw [h.started.heap, List.getElem?_append_left (by rw [retireAll_length]; exact hi), retireAll_getElem?]

theorem heapNew (i : Nat) : b'.heap[b.heap.length + i]? = news[i]? := by
  rw [h.started.heap, List.getElem?_append_right (by rw [retireAll_length]; omega), retireAll_length]
  congr 1
  omega

theorem lookupOthers {paneID : String} (ho : ∀ w ∈ desired, b.lacks w = true → paneOf w ≠ paneID) :
    b'.streams.lookup paneID = r.streams.lookup paneID :=
  h.started.others paneID fun w hw => ho w (List.mem_filter.mp hw).1 (List.mem_filter.mp hw).2

theorem lookupFailed {w : DesiredStream} (hw : w ∈ desired) (hl : b.lacks w = true) {err : String}
    (he : opened (paneOf w) = .error err) : b'.streams.lookup (paneOf w) = none :=
  h.started.failed w (List.mem_filter.mpr ⟨hw, hl⟩) err he

theorem lookupStarted {w : DesiredStream} (hw : w ∈ desired) (hl : b.lacks w = true) {sizes : Nat × Nat}
    (he : opened (paneOf w) = .ok sizes) : ∃ i n, news[i]? = some n ∧
      n = { startPaneStream w sizes with order := n.order } ∧ b'.streams.lookup (paneOf w) = some (b.heap.length + i) := by
  obtain ⟨i, n, hi, hn, hs⟩ := h.started.started w (List.mem_filter.mpr ⟨hw, hl⟩) sizes he
  exact ⟨i, n, hi, hn, by rw [hs, retireAll_length]⟩

/-- A stream that is still wanted stays in the map. -/
theorem lookupKept {paneID : String} {i : Nat} (hl : b.streams.lookup paneID = some i)
    (hw : stillWanted b.heap desired ⟨paneID, i⟩ = true) : b'.streams.lookup paneID = some i := by
  rw [h.lookupOthers fun w hd hlacks hp => ?_]
  · exact (h.passed.keeps paneID i).mpr ⟨hl, hw⟩
  · subst hp
    rw [lacks_wanted h.ok h.nodup hd hl, hlacks] at hw
    cases hw

/-- What the map names afterwards is an old stream still wanted or a new one. -/
theorem lookup_cases {paneID : String} {i : Nat} (hl : b'.streams.lookup paneID = some i) :
    (b.streams.lookup paneID = some i ∧ stillWanted b.heap desired ⟨paneID, i⟩ = true) ∨
    ∃ w ∈ desired, paneOf w = paneID ∧ b.lacks w = true ∧ ∃ k n, news[k]? = some n ∧ i = b.heap.length + k ∧
      n.subscription.paneID = paneID := by
  by_cases ho : ∀ w ∈ desired, b.lacks w = true → paneOf w ≠ paneID
  · rw [h.lookupOthers ho] at hl
    exact .inl ((h.passed.keeps paneID i).mp hl)
  · push Not at ho
    obtain ⟨w, hw, hlacks, rfl⟩ := ho
    cases he : opened (paneOf w) with
    | error err =>
      rw [h.lookupFailed hw hlacks he] at hl
      cases hl
    | ok sizes =>
      obtain ⟨k, n, hk, hn, hs⟩ := h.lookupStarted hw hlacks he
      rw [hs, Option.some.injEq] at hl
      refine .inr ⟨w, hw, rfl, hlacks, k, n, hk, hl.symm, ?_⟩
      rw [hn]
      exact startPaneStream_paneID w sizes

theorem removed_iff {paneID : String} {i : Nat} (hl : b.streams.lookup paneID = some i) :
    i ∈ r.removed ↔ stillWanted b.heap desired ⟨paneID, i⟩ = false := by
  rw [h.passed.removed]
  constructor
  · rintro ⟨other, ho, hw⟩
    obtain ⟨s, hs, rfl⟩ := h.ok.inHeap _ _ hl
    obtain ⟨s', hs', rfl⟩ := h.ok.inHeap _ _ ho
    rw [hs, Option.some.injEq] at hs'
    exact hs' ▸ hw
  · exact fun hw => ⟨paneID, hl, hw⟩

theorem brokerOk : BrokerOk b' := by
  constructor
  · intro paneID i hl
    rcases h.lookup_cases hl with ⟨hold, -⟩ | ⟨w, -, -, -, k, n, hk, rfl, hp⟩
    · obtain ⟨s, hs, hp⟩ := h.ok.inHeap _ _ hold
      rw [h.heapOld (List.getElem?_eq_some_iff.mp hs).1, hs]
      split
      · exact ⟨s.retire, rfl, hp⟩
      · exact ⟨s, rfl, hp⟩
    · exact ⟨n, by rw [h.heapNew, hk], hp⟩
  · intro i s hs hstop
    by_cases hi : i < b.heap.length
    · rw [h.heapOld hi] at hs
      split at hs
      · obtain ⟨s', -, rfl⟩ := Option.map_eq_some_iff.mp hs
        cases hstop
      · rename_i hrem
        have hl := h.ok.live i s hs hstop
        rw [h.removed_iff hl, Bool.not_eq_false] at hrem
        exact h.lookupKept hl hrem
    · obtain ⟨k, rfl⟩ : ∃ k, i = b.heap.length + k := ⟨i - b.heap.length, by omega⟩
      rw [h.heapNew] at hs
      have hm := h.started.mapped k s hs
      rw [hm, retireAll_length]
  · intro s hs
    rw [h.started.heap, List.mem_append] at hs
    rw [h.started.nextOrder]
    rcases hs with hs | hs
    · obtain ⟨i, hi⟩ := List.mem_iff_getElem?.mp hs
      rw [retireAll_getElem?] at hi
      have hold : ∃ s', b.heap[i]? = some s' ∧ s.order = s'.order := by
        split at hi
        · obtain ⟨s', hs', rfl⟩ := Option.map_eq_some_iff.mp hi
          exact ⟨s', hs', rfl⟩
        · exact ⟨s, hi, rfl⟩
      obtain ⟨s', hs', he⟩ := hold
      have := h.ok.orders s' (List.mem_of_getElem? hs')
      simp only
      omega
    · have hm := List.mem_map_of_mem (f := SubscribedStream.order) hs
      rw [h.started.orders, List.mem_range'_1] at hm
      simp only at hm ⊢
      omega

theorem replaced : Replaced opened desired b b' where
  kept w hw i s hl hs ha := by
    have hwant : stillWanted b.heap desired ⟨paneOf w, i⟩ = true := by rw [stillWanted_of h.nodup hw hs, ha]
    refine ⟨h.lookupKept hl hwant, ?_⟩
    rw [h.heapOld (List.getElem?_eq_some_iff.mp hs).1, if_neg (by rw [h.removed_iff hl, hwant]; decide), hs]
  retired paneID i s hl hs hno := by
    have hnot : stillWanted b.heap desired ⟨paneID, i⟩ = false := by
      rw [← Bool.not_eq_true]
      intro hw
      obtain ⟨w, hd, hp, s', hs', ha⟩ := stillWanted_some hw
      rw [hs, Option.some.injEq] at hs'
      subst hs'
      rw [hno w hd hp] at ha
      cases ha
    have hi := (List.getElem?_eq_some_iff.mp hs).1
    refine ⟨by rw [h.heapOld hi, if_pos ((h.removed_iff hl).mpr hnot), hs]; rfl, fun other ho => ?_⟩
    rcases h.lookup_cases ho with ⟨hold, hw⟩ | ⟨-, -, -, -, k, -, -, rfl, -⟩
    · have hrem := (h.removed_iff hl).mpr hnot
      rw [h.removed_iff hold, hw] at hrem
      cases hrem
    · omega
  keys paneID := by
    rw [← AList.lookup_isSome, Option.isSome_iff_exists]
    constructor
    · rintro ⟨i, hl⟩
      rcases h.lookup_cases hl with ⟨hold, hw⟩ | ⟨w, hw, rfl, hlacks, -⟩
      · obtain ⟨w, hd, hp, -⟩ := stillWanted_some hw
        simp only at hp
        subst hp
        refine ⟨w, hd, rfl, fun hlacks => ?_⟩
        rw [lacks_wanted h.ok h.nodup hd hold, hlacks.1] at hw
        cases hw
      · refine ⟨w, hw, rfl, ?_⟩
        rintro ⟨-, err, he⟩
        rw [h.lookupFailed hw hlacks he] at hl
        cases hl
    · rintro ⟨w, hw, rfl, hopen⟩
      cases hlacks : b.lacks w with
      | false =>
        obtain ⟨i, s, hl, hs, ha⟩ := lacks_false h.ok hlacks
        exact ⟨i, h.lookupKept hl (by rw [stillWanted_of h.nodup hw hs, ha])⟩
      | true =>
        cases he : opened (paneOf w) with
        | error err => exact absurd ⟨hlacks, err, he⟩ hopen
        | ok sizes =>
          obtain ⟨k, n, -, -, hs⟩ := h.lookupStarted hw hlacks he
          exact ⟨_, hs⟩
  errors := h.started.errors
  fresh w hw hlacks sizes he := by
    obtain ⟨k, n, hk, hn, hs⟩ := h.lookupStarted hw hlacks he
    refine ⟨b.heap.length + k, n, by omega, hs, by rw [h.heapNew, hk], hn, ?_⟩
    have hm := List.mem_map_of_mem (f := SubscribedStream.order) (List.mem_of_getElem? hk)
    rw [h.started.orders, List.mem_range'_1] at hm
    exact hm.1
  orders := by
    refine ⟨news, ?_, h.started.orders⟩
    rw [h.started.heap, ← retireAll_length r.removed b.heap, List.drop_left]

end Passes

end

/-! ## Every reachable broker -/

theorem BrokerOk.fresh (transportRole : String) (writes : Bool) : BrokerOk (NewTerminalQueueBroker transportRole writes) where
  inHeap _ _ h := by cases h
  live _ _ h := by cases h
  orders _ h := by cases h

/-- The call that returns no error, taken apart. -/
theorem replace_cases (b : SubscriptionBroker) (subscriptions : List QueueSubscription) (opened : Opened) :
    (∃ err, b.ReplaceSubscriptions subscriptions opened = (b, some err)) ∨
    ∃ desired, collectDesired subscriptions [] = .ok desired ∧ b.ReplaceSubscriptions subscriptions opened =
      (let r := b.streams.entries.foldl (retireEntry b.heap) { desired := desired, streams := b.streams }
      r.desired.foldl (SubscriptionBroker.startDesired opened) { b with
        heap := r.removed.foldl (fun heap i => heap.modify i SubscribedStream.retire) b.heap
        streams := r.streams }, none) := by
  unfold SubscriptionBroker.ReplaceSubscriptions
  simp only
  generalize (if b.maxSubscriptions ≤ 0 then terminalQueueMaxSubscriptions else b.maxSubscriptions) = limit
  by_cases hmany : limit < subscriptions.length
  · rw [if_pos hmany]
    exact .inl ⟨_, rfl⟩
  · rw [if_neg hmany]
    cases collectDesired subscriptions [] with
    | error err => exact .inl ⟨err, rfl⟩
    | ok desired => exact .inr ⟨desired, rfl, rfl⟩

theorem replace_ok {b b' : SubscriptionBroker} {subscriptions : List QueueSubscription} {opened : Opened} (hb : BrokerOk b)
    (h : b.ReplaceSubscriptions subscriptions opened = (b', none)) :
    ∃ wants, List.Forall₂ Validates subscriptions wants ∧ ∃ r news, Passes opened wants b r b' news := by
  rcases replace_cases b subscriptions opened with ⟨err, he⟩ | ⟨desired, hd, he⟩
  · rw [he] at h; cases h
  · rw [h, Prod.mk.injEq] at he
    obtain ⟨hnodup, _, rfl, hvalid⟩ := collectDesired_ok hd List.nodup_nil
    have hp := pass_spec hb hnodup
    simp only at he
    generalize b.streams.entries.foldl (retireEntry b.heap) { desired := desired, streams := b.streams } = r at hp he
    have hmissing : (r.desired.map paneOf).Nodup := by
      rw [hp.missing]
      exact hnodup.sublist (List.filter_sublist.map _)
    obtain ⟨news, hs⟩ := start_spec opened hmissing { b with
        heap := r.removed.foldl (fun heap i => heap.modify i SubscribedStream.retire) b.heap
        streams := r.streams } fun w hw => by
      rw [hp.missing, List.mem_filter] at hw
      cases hl : r.streams.lookup (paneOf w) with
      | none => rfl
      | some i =>
        obtain ⟨hold, hwant⟩ := (hp.keeps _ _).mp hl
        rw [lacks_wanted hb hnodup hw.1 hold, hw.2] at hwant
        cases hwant
    rw [← he.1, hp.missing] at hs
    exact ⟨desired, hvalid, r, news, hb, hnodup, hp, hs⟩

theorem BrokerOk.close {b : SubscriptionBroker} (hb : BrokerOk b) : BrokerOk b.Close := by
  have hheap : b.Close.heap = (b.streams.entries.map Sigma.snd).foldl
      (fun heap i => heap.modify i SubscribedStream.retire) b.heap := by
    rw [List.foldl_map]
    rfl
  constructor
  · intro paneID i h
    cases h
  · intro i s hs hstop
    rw [hheap, retireAll_getElem?] at hs
    split at hs
    · obtain ⟨s', -, rfl⟩ := Option.map_eq_some_iff.mp hs
      cases hstop
    · rename_i hout
      exact absurd (List.mem_map_of_mem (lookup_entry.mp (hb.live i s hs hstop))) hout
  · intro s hs
    obtain ⟨i, hi⟩ := List.mem_iff_getElem?.mp (hheap ▸ hs)
    rw [retireAll_getElem?] at hi
    split at hi
    · obtain ⟨s', hs', rfl⟩ := Option.map_eq_some_iff.mp hi
      exact hb.orders s' (List.mem_of_getElem? hs')
    · exact hb.orders s (List.mem_of_getElem? hi)

theorem subscriptionEvent_ok {b : SubscriptionBroker} (hb : BrokerOk b) (e : SubscriptionEvent) : BrokerOk (subscriptionEvent b e) := by
  cases e with
  | replace subscriptions opened =>
    cases hr : b.ReplaceSubscriptions subscriptions opened with
    | mk b' err =>
      simp only [subscriptionEvent, hr]
      cases err with
      | none =>
        obtain ⟨_, _, _, _, hp⟩ := replace_ok hb hr
        exact hp.brokerOk
      | some err =>
        rcases replace_cases b subscriptions opened with ⟨_, he⟩ | ⟨_, -, he⟩
        · rw [hr, Prod.mk.injEq] at he
          exact he.1 ▸ hb
        · rw [hr, Prod.mk.injEq] at he
          cases he.2
  | stream i becomes stops =>
    have hsame : ∀ (j : Nat) (s : SubscribedStream), (subscriptionEvent b (.stream i becomes stops)).heap[j]? = some s →
        ∃ s', b.heap[j]? = some s' ∧ s.subscription = s'.subscription ∧ s.order = s'.order ∧
          (s.stopped = false → s'.stopped = false) := by
      intro j s hs
      simp only [subscriptionEvent, List.getElem?_modify] at hs
      split at hs
      · obtain ⟨s', hs', rfl⟩ := Option.map_eq_some_iff.mp hs
        refine ⟨s', hs', rfl, rfl, fun hstop => ?_⟩
        rw [Bool.or_eq_false_iff] at hstop
        exact hstop.1
      · rw [Option.map_eq_map, Option.map_id'] at hs
        exact ⟨s, hs, rfl, rfl, id⟩
    constructor
    · intro paneID j hl
      obtain ⟨s, hs, hp⟩ := hb.inHeap paneID j hl
      have hj : j < (subscriptionEvent b (.stream i becomes stops)).heap.length := by
        simp only [subscriptionEvent, List.length_modify]
        exact (List.getElem?_eq_some_iff.mp hs).1
      obtain ⟨s', hs', hsub, -⟩ := hsame j _ (List.getElem?_eq_getElem hj)
      rw [hs, Option.some.injEq] at hs'
      exact ⟨_, List.getElem?_eq_getElem hj, by rw [hsub, ← hs', hp]⟩
    · intro j s hs hstop
      obtain ⟨s', hs', hsub, -, hstop'⟩ := hsame j s hs
      rw [hsub]
      exact hb.live j s' hs' (hstop' hstop)
    · intro s hs
      obtain ⟨j, hj⟩ := List.mem_iff_getElem?.mp hs
      obtain ⟨s', hs', -, ho, -⟩ := hsame j s hj
      rw [ho]
      exact hb.orders s' (List.mem_of_getElem? hs')
  | close => exact hb.close

theorem reachable_brokerOk {transportRole : String} {writes : Bool} {b : SubscriptionBroker}
    (h : subscriptionMachine.Reachable (NewTerminalQueueBroker transportRole writes) b) : BrokerOk b :=
  Machine.reachable_inv _ (fun _ e _ hb hs => Option.some.inj hs ▸ subscriptionEvent_ok hb e) h (.fresh transportRole writes)

/-- No pane has two streams that run. -/
def OnePerPane (b : SubscriptionBroker) : Prop :=
  ∀ (i j : Nat) (s t : SubscribedStream), b.heap[i]? = some s → b.heap[j]? = some t → s.stopped = false →
    t.stopped = false → s.subscription.paneID = t.subscription.paneID → i = j

theorem BrokerOk.onePerPane {b : SubscriptionBroker} (hb : BrokerOk b) : OnePerPane b := by
  intro i j s t hs ht hstop htop hp
  have h := hb.live i s hs hstop
  rw [hp, hb.live j t ht htop, Option.some.injEq] at h
  exact h.symm

theorem replaceSubscriptions_outcome {transportRole : String} {writes : Bool} {b : SubscriptionBroker}
    (h : subscriptionMachine.Reachable (NewTerminalQueueBroker transportRole writes) b)
    (subscriptions : List QueueSubscription) (opened : Opened) :
    (∀ b' err, b.ReplaceSubscriptions subscriptions opened = (b', some err) → b' = b) ∧
    ∀ b', b.ReplaceSubscriptions subscriptions opened = (b', none) →
      ∃ wants, List.Forall₂ Validates subscriptions wants ∧ (wants.map paneOf).Nodup ∧ Replaced opened wants b b' ∧
        OnePerPane b' ∧ ∀ s ∈ b.heap, s.order ≤ b.nextOrder := by
  have hb := reachable_brokerOk h
  constructor
  · intro b' err he
    rcases replace_cases b subscriptions opened with ⟨_, hc⟩ | ⟨_, -, hc⟩
    · rw [he, Prod.mk.injEq] at hc
      exact hc.1
    · rw [he, Prod.mk.injEq] at hc
      cases hc.2
  · intro b' he
    obtain ⟨wants, hvalid, r, news, hp⟩ := replace_ok hb he
    exact ⟨wants, hvalid, hp.nodup, hp.replaced, hp.brokerOk.onePerPane, hb.orders⟩

def demoSubscription (paneID streamID : String) : QueueSubscription where
  paneID := paneID
  streamID := streamID
  channelGeneration := 1

def demoBroker : SubscriptionBroker :=
  subscriptionEvent (NewTerminalQueueBroker "queue" true)
    (.replace [demoSubscription "p1" "s1", demoSubscription "p2" "s2"] fun _ => .ok (10, 10))

theorem replaceSubscriptions_outcome_demo :
    ∃ b', demoBroker.ReplaceSubscriptions [demoSubscription "p2" "s2", demoSubscription "p1" "s3"]
        (fun _ => .error "gone") = (b', none) ∧
      ∃ wants, List.Forall₂ Validates [demoSubscription "p2" "s2", demoSubscription "p1" "s3"] wants ∧
        (wants.map paneOf).Nodup ∧ Replaced (fun _ => .error "gone") wants demoBroker b' ∧ OnePerPane b' ∧
          ∀ s ∈ demoBroker.heap, s.order ≤ demoBroker.nextOrder := by
  have he : (demoBroker.ReplaceSubscriptions [demoSubscription "p2" "s2", demoSubscription "p1" "s3"]
      fun _ => .error "gone").2 = none := by decide +kernel
  refine ⟨_, Prod.ext rfl he, ?_⟩
  exact (@replaceSubscriptions_outcome "queue" true demoBroker ⟨[_], rfl⟩ _ _).2 _ (Prod.ext rfl he)

end Webshell
