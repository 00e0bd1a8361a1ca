import Webshell.BackendReplies

/-!
# What the terminal answers reaches the page in order

While the page has not given up its worker, every state that the worker posts is
newer than the last one the page has taken: nothing that a command made the
terminal say is dropped, doubled or put out of order.
-/

namespace Webshell

/-! ## The page -/

namespace RemoteRpc

variable {p : RemoteRpc}

/-- Neither failed nor freed. -/
structure Live (p : RemoteRpc) : Prop where
  failed : p.failed = false
  disposed : p.disposed = false

theorem not_live_fail (p : RemoteRpc) : ¬ Live p.fail := by
  unfold fail
  intro h
  split at h
  · rename_i he
    simp [h.failed, h.disposed] at he
  · simpa using h.failed

theorem not_live_free (p : RemoteRpc) : ¬ Live p.free := by
  unfold free
  intro h
  split at h
  · rename_i he
    simpa [he] using h.disposed
  · simpa using h.disposed

/-- What a request's bookkeeping leaves alone. -/
structure SameScreen (p q : RemoteRpc) : Prop where
  progress : q.progress = p.progress
  screen : q.screen = p.screen
  responses : q.responses = p.responses

theorem SameScreen.refl (p : RemoteRpc) : SameScreen p p := ⟨rfl, rfl, rfl⟩

/-- The messages whose loss the page does not survive. -/
def watched (messages : List BackendMessage) : List BackendMessage := messages.filter fun message => message.type ≠ .diagnose

theorem watched_append (l m : List BackendMessage) : watched (l ++ m) = watched l ++ watched m := List.filter_append ..

theorem request_live (h : p.RpcInv) (type : BackendCommand) (bytes : Nat) (posts : Bool)
    (hl : (p.request type bytes posts).1.Live) : Live p ∧ SameScreen p (p.request type bytes posts).1 ∧
      watched ((p.request type bytes posts).1.pending.map PendingRequest.message) =
        watched (p.pending.map PendingRequest.message ++ (p.request type bytes posts).2.toList) := by
  revert hl
  unfold request
  split
  · intro hl
    exact ⟨hl, .refl p, by simp⟩
  · rename_i hopen
    simp only [Bool.or_eq_true, not_or, Bool.not_eq_true] at hopen
    have hlive : Live p := ⟨hopen.2, hopen.1⟩
    split
    · simp only
      split
      · exact fun _ => ⟨hlive, .refl p, by simp⟩
      · exact fun hl => absurd hl (not_live_fail p)
    · extract_lets request q
      split
      · exact fun _ => ⟨hlive, ⟨rfl, rfl, rfl⟩, by simp [q, request]⟩
      · simp only
        split
        · rename_i ht
          refine fun _ => ⟨hlive, ⟨rfl, rfl, rfl⟩, ?_⟩
          have hkeep : q.pending.filter (fun other => other.message.id ≠ request.message.id) = p.pending := by
            simp only [q, List.filter_append, request]
            rw [List.filter_eq_self.mpr]
            · simp
            · intro other hm
              have := h.id_lt hm
              simpa using Nat.ne_of_lt this
          rw [show (q.settle request false).pending = p.pending from hkeep]
          simp
        · exact fun hl => absurd hl (not_live_fail q)

theorem settle_watched (h : p.RpcInv) {request : PendingRequest} (hm : request ∈ p.pending)
    (ht : request.message.type = .diagnose) (resolved : Bool) :
    watched ((p.settle request resolved).pending.map PendingRequest.message) = watched (p.pending.map PendingRequest.message) := by
  simp only [settle, watched, List.filter_map, List.filter_filter]
  congr 1
  refine List.filter_congr fun other hother => ?_
  by_cases he : other.message.id = request.message.id
  · obtain rfl := List.inj_on_of_nodup_map h.nodup hother hm he
    simp [ht]
  · simp [he]

theorem checkTimeout_live (h : p.RpcInv) {id : Nat} {late : Bool} (hl : (p.checkTimeout id late).Live) : Live p ∧
    SameScreen p (p.checkTimeout id late) ∧ watched ((p.checkTimeout id late).pending.map PendingRequest.message) =
      watched (p.pending.map PendingRequest.message) := by
  revert hl
  unfold checkTimeout
  split
  · exact fun hl => ⟨hl, .refl p, rfl⟩
  · rename_i request hfind
    split
    · rename_i ht
      exact fun hl => ⟨⟨hl.failed, hl.disposed⟩, ⟨rfl, rfl, rfl⟩, settle_watched h (List.mem_of_find?_eq_some hfind) ht false⟩
    · split
      · exact fun hl => ⟨hl, .refl p, rfl⟩
      · exact fun hl => absurd hl (not_live_fail p)

/-! ## Replies -/

theorem acceptProgress_new {state : TerminalProgress} (h : ∀ held, p.progress = some held → held.revision ≤ state.revision) :
    p.acceptProgress state = { p with progress := some state, responses := p.responses ++ state.responses } := by
  unfold acceptProgress
  rw [if_neg]
  cases hp : p.progress with
  | none => simp
  | some held => simpa using h held hp

theorem acceptFrame_frame {t t' : RemoteTerminal} {frame : TerminalFrame} (h : t.acceptFrame frame = .ok t') :
    t'.frame = t.frame ∨ t'.frame = some frame := by
  unfold RemoteTerminal.acceptFrame at h
  split at h
  · cases h
    exact .inl rfl
  · split at h
    · cases h
      exact .inr rfl
    · split at h
      · cases h
      · rename_i viewport _ _
        cases hc : t.changedRows viewport with
        | error e => rw [hc] at h; cases h
        | ok changed =>
          cases hn : t.nextLines frame.rows viewport changed with
          | error e => simp only [hc, hn, bind, Except.bind] at h; cases h
          | ok lines =>
            simp only [hc, hn, bind, Except.bind] at h
            cases h
            exact .inr rfl

/-- No state of a worker is older than what the page holds. -/
structure Newer (p : RemoteRpc) (state : TerminalProgress) : Prop where
  progress : ∀ held, p.progress = some held → held.revision ≤ state.revision
  frame : ∀ held, p.screen.frame = some held → held.revision ≤ state.revision

/-- What has come of a reply that the page has taken. -/
structure Took (p : RemoteRpc) (reported : Option TerminalProgress) (q : RemoteRpc) : Prop where
  progress : q.progress = reported.or p.progress
  responses : q.responses = p.responses ++ reported.elim [] TerminalProgress.responses
  frame : ∀ frame, q.screen.frame = some frame →
    p.screen.frame = some frame ∨ ∃ state, reported = some state ∧ frame.revision = state.revision

theorem accept_took {result : BackendResult} (hnew : ∀ state, result.progress = some state → Newer p state)
    {q : RemoteRpc} (h : p.accept result = (q, false)) : Took p result.progress q := by
  cases result with
  | terminalState state cells =>
    have hn := hnew state rfl
    simp only [accept, acceptFrame] at h
    split at h
    · rename_i hold
      cases hf : p.screen.frame with
      | none => simp [hf] at hold
      | some held =>
        have hle := hn.frame held hf
        simp only [hf, Option.any_some, decide_eq_true_eq] at hold
        omega
    · split at h
      · cases h
      · split at h
        · rename_i screen hs
          cases h
          rw [acceptProgress_new hn.progress] at hs ⊢
          refine ⟨rfl, rfl, fun frame hf => ?_⟩
          rcases acceptFrame_frame hs with he | he
          · exact .inl (he ▸ hf)
          · rw [he] at hf
            cases hf
            exact .inr ⟨state, rfl, rfl⟩
        · cases h
  | terminalProgress state =>
    cases h
    rw [acceptProgress_new (hnew state rfl).progress]
    exact ⟨rfl, rfl, fun frame hf => .inl hf⟩
  | other =>
    cases h
    exact ⟨rfl, by simp [BackendResult.progress], fun frame hf => .inl hf⟩

theorem onmessage_pending {reply : WorkerReply} (hl : (p.onmessage reply).Live) : Live p ∧
    (p.onmessage reply).pending = p.pending.filter fun request => request.message.id ≠ reply.message.id := by
  revert hl
  unfold onmessage
  split
  · rename_i hd
    exact fun hl => absurd (hl.disposed.symm.trans hd) (by simp)
  · split
    · rename_i hfind
      refine fun hl => ⟨hl, (List.filter_eq_self.mpr fun request hm => ?_).symm⟩
      simpa using List.find?_eq_none.mp hfind request hm
    · rename_i request hfind
      have hid : request.message.id = reply.message.id := by simpa using List.find?_some hfind
      split
      · simp only
        split
        · exact fun hl => absurd hl (not_live_fail _)
        · exact fun hl => ⟨⟨hl.failed, hl.disposed⟩, by simp [settle, hid]⟩
      · rename_i result _
        have hb := RpcInv.accept_bookkeeping p result
        split
        · rename_i q heq
          rw [heq] at hb
          have hq : q.pending = p.pending := hb.pending
          exact fun hl => ⟨⟨hb.failed ▸ hl.failed, hb.disposed ▸ hl.disposed⟩, by simp [settle, hid, hq]⟩
        · exact fun hl => absurd hl (not_live_fail _)

theorem onmessage_unknown {reply : WorkerReply} (h : ∀ request ∈ p.pending, request.message.id ≠ reply.message.id) :
    p.onmessage reply = p := by
  unfold onmessage
  split
  · rfl
  · rw [List.find?_eq_none.mpr (by simpa using h)]

theorem onmessage_took {reply : WorkerReply} (hl : (p.onmessage reply).Live)
    (hknown : ∃ request ∈ p.pending, request.message.id = reply.message.id)
    (hnew : ∀ state, reply.progress = some state → Newer p state) :
    Took p reply.progress (p.onmessage reply) ∧ ∀ text, reply.result ≠ .error { message := text, fatal := true } := by
  revert hl
  unfold onmessage
  split
  · rename_i hd
    exact fun hl => absurd (hl.disposed.symm.trans hd) (by simp)
  · split
    · rename_i hfind
      obtain ⟨request, hm, hid⟩ := hknown
      exact absurd hid (by simpa using List.find?_eq_none.mp hfind request hm)
    · rename_i request hfind
      split
      · rename_i err hr
        simp only
        split
        · exact fun hl => absurd hl (not_live_fail _)
        · rename_i hfatal
          intro _
          have hnone : reply.progress = none := by simp [WorkerReply.progress, hr, Except.toOption]
          rw [hnone]
          refine ⟨⟨rfl, by simp [settle], fun frame hf => .inl hf⟩, fun text ht => ?_⟩
          rw [hr] at ht
          cases ht
          simp at hfatal
      · rename_i result hr
        have hprogress : reply.progress = result.progress := by simp [WorkerReply.progress, hr, Except.toOption]
        rw [hprogress] at hnew ⊢
        split
        · rename_i q heq
          have ht := accept_took hnew heq
          intro _
          refine ⟨⟨ht.progress, ht.responses, ht.frame⟩, fun text he => ?_⟩
          rw [hr] at he
          cases he
        · exact fun hl => absurd hl (not_live_fail _)

end RemoteRpc

/-! ## The flow of states -/

namespace BackendRun

open RemoteRpc

/-- The revisions that the page has heard of last and will hear of. -/
def reported (s : BackendRun) : List Nat :=
  (s.page.progress.map TerminalProgress.revision).toList ++
    s.flying.filterMap fun reply => reply.progress.map TerminalProgress.revision

structure Flowing (s : BackendRun) (worker : WorkerRuntime) : Prop where
  watched : watched (s.page.pending.map PendingRequest.message) = watched s.talk
  silent : ∀ reply ∈ s.flying, reply.message.type = .diagnose → reply.progress = none
  revisions : (s.reported ++ [worker.revision]).Pairwise (· ≤ ·)
  current : worker.failed = false → s.reported.getLast?.getD 0 = worker.revision
  fatal : worker.failed = true → ∃ reply ∈ s.flying, reply.message.type ≠ .diagnose ∧
    ∃ text, reply.result = .error { message := text, fatal := true }
  frame : ∀ frame, s.page.screen.frame = some frame →
    ∃ state, s.page.progress = some state ∧ frame.revision ≤ state.revision
  output : s.posted = s.consumed ++ s.page.responses ++ s.flying.flatMap WorkerReply.responses

def Flows (s : BackendRun) : Prop := s.page.Live → ∃ worker, s.worker = some worker ∧ Flowing s worker

variable {s : BackendRun}

theorem withPage_live {p : RemoteRpc} (hl : (s.withPage p).page.Live) : s.withPage p = { s with page := p } ∧ p.Live := by
  unfold BackendRun.withPage at hl ⊢
  split
  · rename_i he
    rw [if_pos he] at hl
    have hlp : p.Live := ⟨hl.failed, hl.disposed⟩
    simp [hlp.failed, hlp.disposed] at he
  · rename_i he
    rw [if_neg he] at hl
    exact ⟨rfl, hl⟩

theorem Flowing.request {worker : WorkerRuntime} (h : Flowing s worker) (messages : List BackendMessage) {p : RemoteRpc}
    (hp : SameScreen s.page p)
    (hw : RemoteRpc.watched (p.pending.map PendingRequest.message) =
      RemoteRpc.watched (s.page.pending.map PendingRequest.message ++ messages)) :
    Flowing { s with page := p, lane := s.lane ++ messages } worker where
  watched := by
    have htalk : talk { s with page := p, lane := s.lane ++ messages } = s.talk ++ messages := by simp [talk]
    rw [htalk, hw, watched_append, watched_append, h.watched]
  silent := h.silent
  revisions := by simpa only [reported, hp.progress] using h.revisions
  current := by simpa only [reported, hp.progress] using h.current
  fatal := h.fatal
  frame := by
    rw [hp.screen, hp.progress]
    exact h.frame
  output := by
    rw [hp.responses]
    exact h.output

namespace Flows

theorem page (h : Flows s) {p : RemoteRpc}
    (hp : p.Live → s.page.Live ∧ SameScreen s.page p ∧ watched (p.pending.map PendingRequest.message) =
      watched (s.page.pending.map PendingRequest.message)) : Flows (s.withPage p) := by
  intro hl
  obtain ⟨he, hlp⟩ := withPage_live hl
  obtain ⟨hlive, hsame, hw⟩ := hp hlp
  obtain ⟨worker, hworker, hflow⟩ := h hlive
  rw [he]
  have := hflow.request [] hsame (by rw [List.append_nil]; exact hw)
  rw [List.append_nil] at this
  exact ⟨worker, hworker, this⟩

theorem request (hs : Listening s) (h : Flows s) (type : BackendCommand) (bytes : Nat) (posts : Bool) :
    Flows (s.request type bytes posts) := by
  have hspec := request_live hs.page type bytes posts
  unfold BackendRun.request
  revert hspec
  obtain ⟨p, message⟩ := s.page.request type bytes posts
  intro hspec hl
  obtain ⟨he, hlp⟩ := withPage_live hl
  obtain ⟨hlive, hsame, hw⟩ := hspec hlp
  obtain ⟨worker, hworker, hflow⟩ := h hlive
  exact ⟨worker, by simpa [he] using hworker, by simpa [he] using hflow.request message.toList hsame hw⟩

theorem restart (h : s.page.RpcInv) (constructs posts : Bool) : Flows (s.restart constructs posts) := by
  have hfresh : Flowing { page := s.page.restart, worker := some {} } {} := by
    constructor <;> simp [RemoteRpc.restart, rejectPending, talk, reported, RemoteRpc.watched]
  unfold BackendRun.restart
  simp only
  split
  · exact request (Listening.fresh h) (fun _ => ⟨{}, rfl, hfresh⟩) .init 0 posts
  · intro hl
    have := (withPage_live hl).2.failed
    simp at this

end Flows

/-! ## The worker -/

theorem pairwise_raised {l : List Nat} {a b : Nat} (h : (l ++ [a]).Pairwise (· ≤ ·)) (hab : a ≤ b) :
    (l ++ [b]).Pairwise (· ≤ ·) := by
  simp only [List.pairwise_append, List.mem_singleton, List.pairwise_singleton, true_and] at h ⊢
  exact ⟨h.1, fun x hx y hy => hy ▸ Nat.le_trans (h.2 x hx a rfl) hab⟩

theorem pairwise_twice {l : List Nat} {a : Nat} (h : (l ++ [a]).Pairwise (· ≤ ·)) : (l ++ [a] ++ [a]).Pairwise (· ≤ ·) := by
  rw [List.pairwise_append]
  refine ⟨h, by simp, fun x hx y hy => ?_⟩
  rw [List.mem_singleton] at hy
  rcases List.mem_append.mp hx with hx | hx
  · exact (List.pairwise_append.mp h).2.2 x hx y (by simp [hy])
  · simp only [List.mem_singleton] at hx
    simp [hx, hy]

theorem Flowing.handle {worker worker' : WorkerRuntime} (h : Flowing s worker) {message : BackendMessage}
    {lane : List BackendMessage} {reply : WorkerReply} (hl : s.lane = message :: lane) (hr : Handled worker message worker' reply) :
    Flowing { s with
      worker := some worker', lane := lane, flying := s.flying ++ [reply], posted := s.posted ++ reply.responses } worker' where
  watched := by
    rw [h.watched]
    simp [talk, hl, hr.about]
  silent other hm ht := by
    rcases List.mem_append.mp hm with hm | hm
    · exact h.silent other hm ht
    · obtain rfl := List.mem_singleton.mp hm
      cases hp : other.progress with
      | none => rfl
      | some state => exact absurd (hr.about ▸ ht) (hr.progress state hp).2
  revisions := by
    have hraised := pairwise_raised h.revisions hr.revision
    cases hp : reply.progress with
    | none => simpa [reported, hp] using hraised
    | some state =>
      have := pairwise_twice hraised
      rw [← (hr.progress state hp).1] at this ⊢
      simpa [reported, hp] using this
  current hw := by
    have hold : worker.failed = false := by
      by_contra hf
      simp [hr.failed (by simpa using hf)] at hw
    have hcurrent := h.current hold
    cases hp : reply.progress with
    | none =>
      rw [(hr.silent hp).resolve_right (by simp [hw]), ← hcurrent]
      simp [reported, hp]
    | some state => simp [reported, hp, ← (hr.progress state hp).1]
  fatal hw := by
    by_cases hold : worker.failed = true
    · obtain ⟨other, hm, hother⟩ := h.fatal hold
      exact ⟨other, List.mem_append_left _ hm, hother⟩
    · exact ⟨reply, by simp, hr.about ▸ hr.began (by simpa using hold) hw, hr.fatal hw⟩
  frame := h.frame
  output := by
    rw [h.output]
    simp

/-! ## The page's turn -/

theorem Flowing.newer {worker : WorkerRuntime} (h : Flowing s worker) {reply : WorkerReply} {flying : List WorkerReply}
    (hf : s.flying = reply :: flying) (state : TerminalProgress) (hp : reply.progress = some state) : Newer s.page state := by
  have hrevisions := h.revisions
  have hold (held : TerminalProgress) (hh : s.page.progress = some held) : held.revision ≤ state.revision := by
    simp only [reported, hf, hp, hh, Option.map_some, Option.toList_some, List.filterMap_cons, List.cons_append, List.nil_append,
       List.pairwise_cons] at hrevisions
    exact hrevisions.1 _ (by simp)
  refine ⟨hold, fun held hh => ?_⟩
  obtain ⟨last, hlast, hle⟩ := h.frame held hh
  exact Nat.le_trans hle (hold last hlast)

/-- A reply that carries a state is about a request that is still pending. -/
theorem Flowing.known {worker : WorkerRuntime} (h : Flowing s worker) {reply : WorkerReply} {flying : List WorkerReply}
    (hf : s.flying = reply :: flying) (ht : reply.message.type ≠ .diagnose) :
    ∃ request ∈ s.page.pending, request.message.id = reply.message.id := by
  have hm : reply.message ∈ RemoteRpc.watched s.talk := by simp [talk, hf, RemoteRpc.watched, ht]
  rw [← h.watched] at hm
  obtain ⟨request, hr, he⟩ := List.mem_map.mp (List.mem_filter.mp hm).1
  exact ⟨request, hr, congrArg _ he⟩

theorem Flowing.deliver_took {worker : WorkerRuntime} (h : Flowing s worker) {reply : WorkerReply} {flying : List WorkerReply}
    (hf : s.flying = reply :: flying) (hl : (s.page.onmessage reply).Live) :
    (s.page.onmessage reply).progress = reply.progress.or s.page.progress ∧
      (s.page.onmessage reply).responses = s.page.responses ++ reply.responses := by
  by_cases hknown : ∃ request ∈ s.page.pending, request.message.id = reply.message.id
  · have htook := (onmessage_took hl hknown (h.newer hf)).1
    exact ⟨htook.progress, htook.responses⟩
  · have hnone : reply.progress = none := h.silent reply (by simp [hf]) (by_contra fun ht => hknown (h.known hf ht))
    rw [onmessage_unknown fun request hm he => hknown ⟨request, hm, he⟩]
    simp [WorkerReply.responses, hnone]

theorem Flowing.deliver {worker : WorkerRuntime} (h : Flowing s worker) (hs : Listening s) {reply : WorkerReply}
    {flying : List WorkerReply} (hf : s.flying = reply :: flying) (hl : (s.page.onmessage reply).Live) :
    Flowing { s with page := s.page.onmessage reply, flying := flying } worker := by
  have htalk : s.talk = reply.message :: talk { s with page := s.page.onmessage reply, flying := flying } := by simp [talk, hf]
  have hwatched : RemoteRpc.watched ((s.page.onmessage reply).pending.map PendingRequest.message) =
      RemoteRpc.watched (talk { s with page := s.page.onmessage reply, flying := flying }) := by
    have hids := hs.ids
    rw [htalk, List.map_cons, List.nodup_cons] at hids
    have hrest : (s.talk.filter fun message => message.id ≠ reply.message.id) =
        talk { s with page := s.page.onmessage reply, flying := flying } := by
      rw [htalk, List.filter_cons_of_neg (by simp), List.filter_eq_self]
      intro message hm
      simpa using fun he => hids.1 (List.mem_map.mpr ⟨message, hm, he⟩)
    have hfilter : ((s.page.onmessage reply).pending.map PendingRequest.message) =
        (s.page.pending.map PendingRequest.message).filter fun message => message.id ≠ reply.message.id := by
      rw [(onmessage_pending hl).2, List.filter_map]
      rfl
    have hcomm (l : List BackendMessage) : RemoteRpc.watched (l.filter fun message => message.id ≠ reply.message.id) =
        (RemoteRpc.watched l).filter fun message => message.id ≠ reply.message.id := List.filter_comm ..
    rw [hfilter, ← hrest, hcomm, hcomm, h.watched]
  by_cases hknown : ∃ request ∈ s.page.pending, request.message.id = reply.message.id
  · obtain ⟨htook, hfatal⟩ := onmessage_took hl hknown (h.newer hf)
    have hsuffix : reported { s with page := s.page.onmessage reply, flying := flying } <:+ s.reported := by
      simp only [reported, htook.progress, hf]
      cases hp : reply.progress with
      | none => simp [hp]
      | some state => exact ⟨(s.page.progress.map TerminalProgress.revision).toList, by simp [hp]⟩
    refine ⟨hwatched, fun other hm => h.silent other (hf ▸ List.mem_cons_of_mem _ hm), ?_, fun hw => ?_, fun hw => ?_,
      fun frame hframe => ?_, ?_⟩
    · exact h.revisions.sublist (hsuffix.sublist.append_right _)
    · rw [← h.current hw]
      simp only [reported, htook.progress, hf]
      cases hp : reply.progress with
      | none => simp [hp]
      | some state => simp [hp, List.getLast?_append, List.getLast?_cons]
    · obtain ⟨other, hm, ht, text, he⟩ := h.fatal hw
      rw [hf] at hm
      rcases List.mem_cons.mp hm with rfl | hm
      · exact absurd he (hfatal text)
      · exact ⟨other, hm, ht, text, he⟩
    · simp only [htook.progress]
      rcases htook.frame frame hframe with hold | ⟨state, hp, he⟩
      · obtain ⟨held, hheld, hle⟩ := h.frame frame hold
        cases hp : reply.progress with
        | none => exact ⟨held, by simpa [hp] using hheld, hle⟩
        | some state => exact ⟨state, rfl, Nat.le_trans hle ((h.newer hf state hp).progress held hheld)⟩
      · exact ⟨state, by simp [hp], Nat.le_of_eq he⟩
    · rw [h.output, htook.responses, hf]
      simp [WorkerReply.responses]
  · have hsame : s.page.onmessage reply = s.page := onmessage_unknown fun request hm he => hknown ⟨request, hm, he⟩
    have hdiagnose : reply.message.type = .diagnose := by_contra fun ht => hknown (h.known hf ht)
    have hnone := h.silent reply (by simp [hf]) hdiagnose
    have hreported : reported { s with page := s.page.onmessage reply, flying := flying } = s.reported := by
      simp [reported, hsame, hf, hnone]
    refine ⟨hwatched, fun other hm => h.silent other (hf ▸ List.mem_cons_of_mem _ hm), hreported ▸ h.revisions,
      hreported ▸ h.current, fun hw => ?_, ?_, ?_⟩
    · obtain ⟨other, hm, ht, htext⟩ := h.fatal hw
      rw [hf] at hm
      rcases List.mem_cons.mp hm with rfl | hm
      · exact absurd hdiagnose ht
      · exact ⟨other, hm, ht, htext⟩
    · simp only [hsame]
      exact h.frame
    · rw [h.output, hsame, hf]
      simp [WorkerReply.responses, hnone]

theorem Flows.step (hs : Listening s) (h : Flows s) {event : BackendEvent} {s' : BackendRun}
    (hstep : backendMachine.step s event = some s') : Flows s' := by
  cases event with
  | request type bytes posts => exact Option.some.inj hstep ▸ h.request hs type bytes posts
  | handle outcome =>
    simp only [backendMachine] at hstep
    split at hstep
    · rename_i worker message lane hw hl
      obtain rfl := Option.some.inj hstep
      intro hlive
      obtain ⟨held, hheld, hflow⟩ := h hlive
      obtain rfl := Option.some.inj (hw.symm.trans hheld)
      exact ⟨_, rfl, hflow.handle hl (worker.handle_spec message outcome)⟩
    · cases hstep
  | deliver =>
    simp only [backendMachine] at hstep
    split at hstep
    · cases hstep
    · rename_i reply flying hf
      obtain rfl := Option.some.inj hstep
      intro hl
      obtain ⟨he, hlp⟩ := withPage_live hl
      obtain ⟨worker, hworker, hflow⟩ := h (onmessage_pending hlp).1
      rw [he]
      exact ⟨worker, hworker, hflow.deliver hs hf hlp⟩
  | stale reply => exact Option.some.inj hstep ▸ h
  | timeout id late => exact Option.some.inj hstep ▸ h.page fun hl => checkTimeout_live hs.page hl
  | workerError => exact Option.some.inj hstep ▸ h.page fun hl => absurd hl (not_live_fail _)
  | readResponse =>
    simp only [backendMachine] at hstep
    split at hstep
    · cases hstep
    · rename_i response rest hr
      obtain rfl := Option.some.inj hstep
      intro hl
      obtain ⟨worker, hworker, hflow⟩ := h ⟨hl.failed, hl.disposed⟩
      refine ⟨worker, hworker, hflow.watched, hflow.silent, hflow.revisions, hflow.current, hflow.fatal, hflow.frame, ?_⟩
      simp [hflow.output, hr]
  | restart constructs posts =>
    simp only [backendMachine] at hstep
    split at hstep
    · cases hstep
    · exact Option.some.inj hstep ▸ restart hs.page constructs posts
  | free => exact Option.some.inj hstep ▸ h.page fun hl => absurd hl (not_live_free _)

theorem Flows.run {constructs posts : Bool} {events : List BackendEvent} {s : BackendRun}
    (h : backendMachine.run (.constructed constructs posts) events = some s) : Listening s ∧ Flows s := by
  refine Machine.run_inv _ (I := fun s => Listening s ∧ Flows s) (fun _ _ _ hi hs => ⟨hi.1.step hs, hi.2.step hi.1 hs⟩) h ?_
  exact ⟨.constructed constructs posts, restart .start constructs posts⟩

end BackendRun

/-- While the page keeps its worker, what the worker's terminal has answered is
what was read, what waits and what is under way, in that order; the next state to
arrive is taken, and when nothing is under way the page holds the worker's last. -/
theorem backend_output_in_order (constructs posts : Bool) {events : List BackendEvent} {s : BackendRun}
    (h : backendMachine.run (.constructed constructs posts) events = some s) (hl : s.page.Live) :
    ∃ worker, s.worker = some worker ∧
      s.posted = s.consumed ++ s.page.responses ++ s.flying.flatMap WorkerReply.responses ∧
      (s.reported ++ [worker.revision]).Pairwise (· ≤ ·) ∧
      (∀ reply flying, s.flying = reply :: flying → (s.page.onmessage reply).Live →
        (s.page.onmessage reply).progress = reply.progress.or s.page.progress ∧
          (s.page.onmessage reply).responses = s.page.responses ++ reply.responses) ∧
      (s.flying = [] → worker.failed = false ∧ (s.page.progress.map TerminalProgress.revision).getD 0 = worker.revision) := by
  obtain ⟨hs, hflows⟩ := BackendRun.Flows.run h
  obtain ⟨worker, hworker, hflow⟩ := hflows hl
  refine ⟨worker, hworker, hflow.output, hflow.revisions, fun reply flying hf hlive => ?_, fun hf => ?_⟩
  · exact hflow.deliver_took hf hlive
  · have hsound : worker.failed = false := by
      by_contra hfailed
      obtain ⟨reply, hm, -⟩ := hflow.fatal (by simpa using hfailed)
      simp [hf] at hm
    refine ⟨hsound, ?_⟩
    rw [← hflow.current hsound]
    cases hp : s.page.progress <;> simp [BackendRun.reported, hf, hp]

/-- What the terminal says to its start and to two writes; one answer is read. -/
def answeredEvents : List BackendEvent :=
  [.request .write 3 true, .handle { responses := ["c"], held := true, cells := noCells }, .request .write 2 true, .deliver,
    .handle { responses := ["a", "b"], cells := noCells }, .handle { cells := noCells }, .readResponse]

theorem answeredEvents_runs : (backendMachine.run (.constructed true true) answeredEvents).isSome = true := by decide +kernel

theorem backend_output_in_order_answered : ∃ s worker, backendMachine.run (.constructed true true) answeredEvents = some s ∧
    s.worker = some worker ∧ s.posted = s.consumed ++ s.page.responses ++ s.flying.flatMap WorkerReply.responses ∧
    s.posted = ["c", "a", "b"] ∧ s.consumed = ["c"] ∧ s.flying.length = 2 := by
  have h := (Option.some_get answeredEvents_runs).symm
  obtain ⟨worker, hw, houtput, -⟩ := backend_output_in_order true true h ⟨by decide +kernel, by decide +kernel⟩
  exact ⟨_, worker, h, hw, houtput, by decide +kernel, by decide +kernel, by decide +kernel⟩

end Webshell
