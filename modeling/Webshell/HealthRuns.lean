import Webshell.SessionHealth

/-!
# When a session is recovered

A recovery is started for a failure only, at most `retryLimit` times before the
session has been stable or is connected anew, and a session is called stalled
only when the same progress was seen at every check for as long as it takes.
-/

namespace Webshell

/-! ## Reading the log -/

/-- How often the session was recovered since its attempts are counted. -/
def spentBy (session : Nat) (n : Nat) : HealthEntry → Nat
  | .recover s _ => if s = session then n + 1 else n
  | .reset s => if s = session then 0 else n
  | _ => n

def spent (session : Nat) (log : List HealthEntry) : Nat := log.foldl (spentBy session) 0

def gaveUpBy (session : Nat) (given : Bool) : HealthEntry → Bool
  | .report s _ exhausted => if s = session then given || exhausted else given
  | .reset s => if s = session then false else given
  | _ => given

/-- Whether the session was given up since then. -/
def gaveUp (session : Nat) (log : List HealthEntry) : Bool := log.foldl (gaveUpBy session) false

/-- The entries that matter for how long an obligation has been seen. -/
def HealthEntry.concerns (session : Nat) (key : ObligationKey) : HealthEntry → Bool
  | .reset s | .cleared s => s = session
  | .seen s k _ _ => s = session && k = key
  | _ => false

/-- From a check at `since` on, nothing else was seen of the obligation than this progress. -/
def Watching (session : Nat) (key : ObligationKey) (progress : String) (since : Nat) (log : List HealthEntry) : Prop :=
  ∃ front mid, log = front ++ .seen session key since (some progress) :: mid ∧
    ∀ entry ∈ mid, entry.concerns session key = true → ∃ time, entry = .seen session key time (some progress)

variable {limits : HealthLimits} {session : Nat} {log : List HealthEntry} {entry : HealthEntry}

@[simp] theorem spent_concat : spent session (log ++ [entry]) = spentBy session (spent session log) entry := by
  simp [spent]

@[simp] theorem gaveUp_concat : gaveUp session (log ++ [entry]) = gaveUpBy session (gaveUp session log) entry := by
  simp [gaveUp]

namespace Watching

variable {key : ObligationKey} {progress : String} {since : Nat}

theorem start (session : Nat) (key : ObligationKey) (progress : String) (since : Nat) (log : List HealthEntry) :
    Watching session key progress since (log ++ [.seen session key since (some progress)]) := ⟨log, [], rfl, by simp⟩

theorem concat (h : Watching session key progress since log)
    (he : entry.concerns session key = true → ∃ time, entry = .seen session key time (some progress)) :
    Watching session key progress since (log ++ [entry]) := by
  obtain ⟨front, mid, rfl, hmid⟩ := h
  refine ⟨front, mid ++ [entry], by simp, fun other hm hc => ?_⟩
  rcases List.mem_append.mp hm with hm | hm
  · exact hmid other hm hc
  · obtain rfl := List.mem_singleton.mp hm
    exact he hc

end Watching

/-! ## What holds of a log -/

/-- What must be known before an entry is made. -/
def EntrySound (limits : HealthLimits) (before : List HealthEntry) : HealthEntry → Prop
  | .recover session _ => spent session before < limits.retryLimit ∧ gaveUp session before = false
  | .stalled session key time => ∃ progress since, since + limits.stalledMs ≤ time ∧ Watching session key progress since before
  | _ => True

def LogSound (limits : HealthLimits) (log : List HealthEntry) : Prop :=
  ∀ before entry after, log = before ++ entry :: after → EntrySound limits before entry

theorem LogSound.concat (h : LogSound limits log) (he : EntrySound limits log entry) : LogSound limits (log ++ [entry]) := by
  intro before other after hsplit
  rcases List.eq_nil_or_concat' after with rfl | ⟨after, last, rfl⟩
  · obtain ⟨hlog, hlast⟩ := List.append_inj' hsplit rfl
    obtain rfl := List.singleton_inj.mp hlast
    exact hlog ▸ he
  · rw [← List.cons_append, ← List.append_assoc] at hsplit
    obtain ⟨hlog, -⟩ := List.append_inj' hsplit rfl
    exact h before other after hlog

/-! ## The invariant -/

structure HealthState.Sound (limits : HealthLimits) (now : Nat) (log : List HealthEntry) (session : Nat) (state : HealthState) :
    Prop where
  budget : spent session log + state.timer.isSome.toNat + state.exhausted.toNat ≤ state.attempts
  attempts : state.attempts ≤ limits.retryLimit + state.exhausted.toNat
  ended : state.exhausted = true → state.timer = none
  gaveUp : gaveUp session log = state.exhausted
  marks : ∀ key mark, state.marks key = some mark → mark.since ≤ now ∧ Watching session key mark.progress mark.since log

namespace HealthController

/-- What holds of all but one session, whose state is being changed. -/
structure SoundBut (limits : HealthLimits) (session : Option Nat) (c : HealthController) : Prop where
  log : LogSound limits c.log
  spent : ∀ s, spent s c.log ≤ limits.retryLimit
  states : ∀ s state, some s ≠ session → c.states s = some state → state.Sound limits c.now c.log s

end HealthController

def HealthEntry.about : HealthEntry → Nat
  | .reset s | .cleared s | .seen s _ _ _ | .stalled s _ _ | .report s _ _ | .recover s _ => s

theorem spentBy_other {n : Nat} (h : entry.about ≠ session) : spentBy session n entry = n := by
  cases entry <;> simp_all [spentBy, HealthEntry.about]

theorem gaveUpBy_other {b : Bool} (h : entry.about ≠ session) : gaveUpBy session b entry = b := by
  cases entry <;> simp_all [gaveUpBy, HealthEntry.about]

theorem concerns_other {key : ObligationKey} (h : entry.about ≠ session) : entry.concerns session key = false := by
  cases entry <;> simp_all [HealthEntry.concerns, HealthEntry.about]

theorem HealthState.Sound.other {now : Nat} {state : HealthState} (h : state.Sound limits now log session)
    (he : entry.about ≠ session) : state.Sound limits now (log ++ [entry]) session where
  budget := by simpa [spentBy_other he] using h.budget
  attempts := h.attempts
  ended := h.ended
  gaveUp := by simpa [gaveUpBy_other he] using h.gaveUp
  marks key mark hm := by
    refine ⟨(h.marks key mark hm).1, (h.marks key mark hm).2.concat fun hc => ?_⟩
    simp [concerns_other he] at hc

namespace HealthController

variable {c : HealthController}

namespace SoundBut

theorem note (h : SoundBut limits (some session) c) (entry : HealthEntry) (hs : entry.about = session) (he : EntrySound limits c.log entry) :
    SoundBut limits (some session) (c.note entry) where
  log := h.log.concat he
  spent s := by
    have hold := h.spent s
    simp only [HealthController.note, spent_concat]
    by_cases hne : entry.about = s
    · cases entry with
      | recover s' reason =>
        obtain rfl : s' = s := hne
        have := he.1
        simp only [spentBy, if_true]
        omega
      | reset s' =>
        obtain rfl : s' = s := hne
        simp [spentBy]
      | cleared | seen | stalled | report => simpa [spentBy] using hold
    · rw [spentBy_other hne]
      exact hold
  states s state hne hst := by
    have hother : entry.about ≠ s := by
      rw [hs]
      exact fun hs => hne (by rw [hs])
    exact (h.states s state hne hst).other hother

theorem put (h : SoundBut limits (some session) c) {state : HealthState} (hs : state.Sound limits c.now c.log session) :
    SoundBut limits none (c.put session state) where
  log := h.log
  spent := h.spent
  states s other _ hst := by
    simp only [HealthController.put, Function.update_apply] at hst
    split at hst
    · obtain rfl := Option.some.inj hst
      rename_i heq
      exact heq ▸ hs
    · rename_i hne
      exact h.states s other (fun he => hne (Option.some.inj he)) hst

theorem putNote (h : SoundBut limits (some session) c) (entry : HealthEntry) {state : HealthState} (habout : entry.about = session)
    (he : EntrySound limits c.log entry) (hs : state.Sound limits c.now (c.log ++ [entry]) session) :
    SoundBut limits none ((c.put session state).note entry) := (h.note entry habout he).put hs

theorem but (h : SoundBut limits none c) (session : Nat) : SoundBut limits (some session) c :=
  ⟨h.log, h.spent, fun s state _ hst => h.states s state nofun hst⟩

end SoundBut

end HealthController

namespace HealthState.Sound

variable {now : Nat} {state state' : HealthState}

/-- What a state is sound by. -/
theorem congr (h : state.Sound limits now log session) (ht : state'.timer = state.timer) (ha : state'.attempts = state.attempts)
    (he : state'.exhausted = state.exhausted) (hm : state'.marks = state.marks) : state'.Sound limits now log session where
  budget := by simpa [ht, ha, he] using h.budget
  attempts := by simpa [ha, he] using h.attempts
  ended := by simpa [ht, he] using h.ended
  gaveUp := by simpa [he] using h.gaveUp
  marks := by simpa [hm] using h.marks

theorem later (h : state.Sound limits now log session) {now' : Nat} (hle : now ≤ now') : state.Sound limits now' log session :=
  ⟨h.budget, h.attempts, h.ended, h.gaveUp, fun key mark hm => ⟨Nat.le_trans (h.marks key mark hm).1 hle, (h.marks key mark hm).2⟩⟩

theorem cleared (h : state.Sound limits now log session) (ht : state'.timer = state.timer) (ha : state'.attempts = state.attempts)
    (he : state'.exhausted = state.exhausted) (hm : ∀ key, state'.marks key = none) :
    state'.Sound limits now (log ++ [.cleared session]) session where
  budget := by simpa [spentBy, ht, ha, he] using h.budget
  attempts := by simpa [ha, he] using h.attempts
  ended := by simpa [ht, he] using h.ended
  gaveUp := by simpa [gaveUpBy, he] using h.gaveUp
  marks := by simp [hm]

theorem reset (ht : state.timer = none) (ha : state.attempts = 0) (he : state.exhausted = false)
    (hm : ∀ key, state.marks key = none) : state.Sound limits now (log ++ [.reset session]) session where
  budget := by simp [spentBy, ht, he]
  attempts := by simp [ha]
  ended := by simp [he]
  gaveUp := by simp [gaveUpBy, he]
  marks := by simp [hm]

theorem stalled (h : state.Sound limits now log session) (key : ObligationKey) (time : Nat) :
    state.Sound limits now (log ++ [.stalled session key time]) session where
  budget := by simpa [spentBy] using h.budget
  attempts := h.attempts
  ended := h.ended
  gaveUp := by simpa [gaveUpBy] using h.gaveUp
  marks other mark hm := ⟨(h.marks other mark hm).1, (h.marks other mark hm).2.concat nofun⟩

theorem report (h : state.Sound limits now log session) (reason : String) :
    state.Sound limits now (log ++ [.report session reason false]) session where
  budget := by simpa [spentBy] using h.budget
  attempts := h.attempts
  ended := h.ended
  gaveUp := by simpa [gaveUpBy] using h.gaveUp
  marks other mark hm := ⟨(h.marks other mark hm).1, (h.marks other mark hm).2.concat nofun⟩

/-- After a look at one obligation, what was known of the other one stands. -/
theorem seen (h : state.Sound limits now log session) (key : ObligationKey) (pending : Option String)
    (mark : Option ObligationMark) (ht : state'.timer = state.timer) (ha : state'.attempts = state.attempts)
    (he : state'.exhausted = state.exhausted) (hm : state'.marks = Function.update state.marks key mark)
    (hmark : ∀ held, mark = some held → held.since ≤ now ∧
      Watching session key held.progress held.since (log ++ [.seen session key now pending])) :
    state'.Sound limits now (log ++ [.seen session key now pending]) session where
  budget := by simpa [spentBy, ht, ha, he] using h.budget
  attempts := by simpa [ha, he] using h.attempts
  ended := by simpa [ht, he] using h.ended
  gaveUp := by simpa [gaveUpBy, he] using h.gaveUp
  marks other held hheld := by
    rw [hm, Function.update_apply] at hheld
    split at hheld
    · rename_i heq
      exact heq ▸ hmark held hheld
    · rename_i hne
      refine ⟨(h.marks other held hheld).1, (h.marks other held hheld).2.concat fun hc => ?_⟩
      simp [HealthEntry.concerns, Ne.symm hne] at hc

/-- `inspect` keeps what it finds, and what it calls stalled has been seen for long enough. -/
theorem inspect (h : state.Sound limits now log session) (key : ObligationKey) (pending : Option String) :
    (HealthController.inspect limits state key pending now).1.Sound limits now (log ++ [.seen session key now pending]) session ∧
    (HealthController.inspect limits state key pending now).1.timer = state.timer ∧
    (HealthController.inspect limits state key pending now).1.exhausted = state.exhausted ∧
    ((HealthController.inspect limits state key pending now).2 = true → ∃ progress since, since + limits.stalledMs ≤ now ∧
      Watching session key progress since (log ++ [.seen session key now pending])) := by
  unfold HealthController.inspect
  cases pending with
  | none => exact ⟨h.seen key none none rfl rfl rfl rfl (by simp), rfl, rfl, nofun⟩
  | some progress =>
    have hstart : ∀ held, some { progress := progress, since := now : ObligationMark } = some held → held.since ≤ now ∧
        Watching session key held.progress held.since (log ++ [.seen session key now (some progress)]) := by
      rintro _ ⟨⟩
      exact ⟨Nat.le_refl _, .start ..⟩
    simp only
    split
    · exact ⟨h.seen key _ _ rfl rfl rfl rfl hstart, rfl, rfl, nofun⟩
    · rename_i held hheld
      obtain ⟨hsince, hwatch⟩ := h.marks key held hheld
      split
      · exact ⟨h.seen key _ _ rfl rfl rfl rfl hstart, rfl, rfl, nofun⟩
      · rename_i hsame
        have hsame : held.progress = progress := by simpa using hsame
        have hstill : Watching session key held.progress held.since (log ++ [.seen session key now (some progress)]) :=
          hwatch.concat fun _ => ⟨now, by rw [hsame]⟩
        refine ⟨h.seen key _ (some held) rfl rfl rfl ?_ (by rintro _ ⟨⟩; exact ⟨hsince, hstill⟩), rfl, rfl, fun hlong => ?_⟩
        · rw [← hheld, Function.update_eq_self]
        · have : limits.stalledMs ≤ now - held.since := of_decide_eq_true hlong
          exact ⟨_, _, by omega, hstill⟩

end HealthState.Sound

namespace HealthController

variable {c : HealthController} {v : SessionView}

@[simp] theorem note_now (c : HealthController) (entry : HealthEntry) : (c.note entry).now = c.now := rfl

@[simp] theorem put_now (c : HealthController) (session : Nat) (state : HealthState) : (c.put session state).now = c.now := rfl

theorem put_put (c : HealthController) (session : Nat) (state state' : HealthState) :
    (c.put session state).put session state' = c.put session state' := by
  simp [put, Function.update_idem]

/-! ## The functions -/

theorem stateFor_sound (h : SoundBut limits none c) (session : Nat) (v : SessionView) :
    SoundBut limits (some session) (c.stateFor session v).1 ∧
      (c.stateFor session v).2.Sound limits (c.stateFor session v).1.now (c.stateFor session v).1.log session := by
  unfold stateFor
  split
  · rename_i state hstate
    exact ⟨h.but session, h.states session state nofun hstate⟩
  · refine ⟨?_, .reset rfl rfl rfl fun _ => rfl⟩
    have hnoted := (h.but session).note (.reset session) rfl trivial
    refine ⟨hnoted.log, hnoted.spent, fun s state hne hst => hnoted.states s state hne ?_⟩
    have hother : s ≠ session := fun he => hne (by rw [he])
    simpa [note, put, Function.update_apply, hother] using hst

theorem failState_sound (h : SoundBut limits (some session) c) {state : HealthState} (hs : state.Sound limits c.now c.log session)
    (v : SessionView) (reason : String) : SoundBut limits none (c.failState limits session v reason state) := by
  unfold failState
  simp only
  split
  · exact h.put (hs.congr rfl rfl rfl rfl)
  · rename_i hidle
    simp only [ne_eq, not_or, not_not, Bool.not_eq_true] at hidle
    obtain ⟨htimer, hexhausted⟩ := hidle
    have hbudget := hs.budget
    have hattempts := hs.attempts
    rw [htimer, hexhausted] at hbudget
    rw [hexhausted] at hattempts
    simp only [Option.isSome_none, Bool.toNat_false, Nat.add_zero] at hbudget hattempts
    split
    · exact h.put (hs.congr rfl rfl rfl rfl)
    · split
      · rename_i hlimit
        refine h.putNote (.report session reason true) rfl trivial ⟨?_, ?_, fun _ => htimer, ?_, ?_⟩
        · simpa [spentBy, htimer] using hbudget
        · simpa using hattempts
        · simp [gaveUpBy]
        · exact fun key mark hm => ⟨(hs.marks key mark hm).1, (hs.marks key mark hm).2.concat nofun⟩
      · rename_i hlimit
        refine h.putNote _ rfl trivial (HealthState.Sound.report ?_ reason)
        refine ⟨?_, ?_, ?_, ?_, hs.marks⟩
        · simpa [hexhausted] using hbudget
        · simpa [hexhausted] using hlimit
        · simp [hexhausted]
        · exact hs.gaveUp

theorem fail_sound (h : SoundBut limits none c) (session : Nat) (v : SessionView) (reason : String) :
    SoundBut limits none (c.fail limits session v reason) := by
  unfold fail
  split
  · exact h
  · obtain ⟨hc, hstate⟩ := stateFor_sound h session v
    exact failState_sound hc hstate v reason

theorem timerFires_sound (h : SoundBut limits none c) {state : HealthState} (hstate : c.states session = some state)
    {reason : String} (htimer : state.timer = some reason) (v : SessionView) :
    SoundBut limits none (c.timerFires session v reason state) := by
  have hs := h.states session state nofun hstate
  have hexhausted : state.exhausted = false := by
    by_contra he
    have := hs.ended (by simpa using he)
    simp [this] at htimer
  have hbudget := hs.budget
  have hattempts := hs.attempts
  rw [htimer, hexhausted] at hbudget
  rw [hexhausted] at hattempts
  simp only [Option.isSome_some, Bool.toNat_true, Bool.toNat_false, Nat.add_zero] at hbudget hattempts
  unfold timerFires
  simp only
  split
  · refine (h.but session).put ⟨?_, by simpa [hexhausted] using hattempts, fun _ => rfl, hs.gaveUp, hs.marks⟩
    simp only [Option.isSome_none, hexhausted, Bool.toNat_false]
    omega
  · have hcleared := (h.but session).note (.cleared session) rfl trivial
    have hspent : spent session (c.log ++ [.cleared session]) = spent session c.log := by simp [spentBy]
    have hgave : gaveUp session (c.log ++ [.cleared session]) = false := by simpa [gaveUpBy, hexhausted] using hs.gaveUp
    have hrecover : EntrySound limits (c.log ++ [.cleared session]) (.recover session reason) :=
      ⟨by rw [hspent]; omega, hgave⟩
    have hstarted : ({ state with
        timer := none, marks := fun _ => none, recovering := true, recoveryProgress := "", recoveryProgressAt := c.now } :
          HealthState).Sound limits c.now (c.log ++ [.cleared session] ++ [.recover session reason]) session := by
      have hspent' : spent session (c.log ++ [.cleared session] ++ [.recover session reason]) = spent session c.log + 1 := by
        rw [spent_concat, hspent]
        simp [spentBy]
      have hgave' : gaveUp session (c.log ++ [.cleared session] ++ [.recover session reason]) = false := by
        rw [gaveUp_concat, hgave]
        rfl
      refine ⟨?_, by simpa [hexhausted] using hattempts, fun _ => rfl, hgave'.trans hexhausted.symm, nofun⟩
      rw [hspent', hexhausted]
      simpa using hbudget
    have hdone := (hcleared.note (.recover session reason) rfl hrecover).put hstarted
    exact ⟨hdone.log, hdone.spent, hdone.states⟩

theorem recoverReturns_sound (h : SoundBut limits none c) (session id : Nat) (v : SessionView) (failure : Option String) :
    SoundBut limits none (c.recoverReturns limits session id v failure) := by
  unfold recoverReturns
  cases failure with
  | none => exact h
  | some reason =>
    simp only
    refine fail_sound ?_ session v reason
    split
    · rename_i state hstate
      split
      · exact (h.but session).put ((h.states session state nofun hstate).congr rfl rfl rfl rfl)
      · exact h
    · exact h

theorem completeRecovery_sound (h : SoundBut limits none c) (session : Nat) (v : SessionView) :
    SoundBut limits none (c.completeRecovery session v) := by
  unfold completeRecovery
  split
  · exact h
  · rename_i state hstate
    split
    · exact h
    · exact (h.but session).putNote (.cleared session) rfl trivial
        ((h.states session state nofun hstate).cleared rfl rfl rfl fun _ => rfl)

theorem checkObligations_sound (h : SoundBut limits (some session) c) {state : HealthState}
    (hs : state.Sound limits c.now c.log session) (v : SessionView) :
    SoundBut limits none (c.checkObligations limits session v state) := by
  unfold checkObligations
  split
  · exact h.put (hs.congr rfl rfl rfl rfl)
  · rename_i hidle
    simp only [ne_eq, not_or, not_not, Bool.not_eq_true] at hidle
    obtain ⟨-, htimer, hexhausted⟩ := hidle
    have hout := hs.inspect .output v.output
    rcases hout' : inspect limits state .output v.output c.now with ⟨state₁, outputStalled⟩
    rw [hout'] at hout
    obtain ⟨hs₁, ht₁, he₁, hlong₁⟩ := hout
    have hc₁ := h.note (.seen session .output c.now v.output) rfl trivial
    have hres := hs₁.inspect .resize v.resize
    rcases hres' : inspect limits state₁ .resize v.resize c.now with ⟨state₂, resizeStalled⟩
    rw [hres'] at hres
    simp only [note_now, put_now, hres']
    obtain ⟨hs₂, ht₂, he₂, hlong₂⟩ := hres
    have hc₂ := hc₁.note (.seen session .resize c.now v.resize) rfl trivial
    split
    · rename_i hstalled
      obtain ⟨progress, since, hle, hwatch⟩ := hlong₁ hstalled
      have hsound : EntrySound limits (c.log ++ [.seen session .output c.now v.output] ++ [.seen session .resize c.now v.resize])
          (.stalled session .output c.now) :=
        ⟨progress, since, hle, hwatch.concat fun hc => by simp [HealthEntry.concerns] at hc⟩
      exact fail_sound (hc₂.putNote _ rfl hsound (hs₂.stalled .output c.now)) session v _
    · split
      · rename_i hstalled
        exact fail_sound (hc₂.putNote (.stalled session .resize c.now) rfl (hlong₂ hstalled) (hs₂.stalled .resize c.now)) session v _
      · split
        · rename_i hstable
          have hmarks (key : ObligationKey) : state₂.marks key = none := by
            cases key with
            | output => exact Option.isNone_iff_eq_none.mp hstable.1
            | resize => exact Option.isNone_iff_eq_none.mp hstable.2.1
          have ht : state₂.timer = none := ht₂.trans (ht₁.trans htimer)
          have he : state₂.exhausted = false := he₂.trans (he₁.trans hexhausted)
          have hreset : ({ state₂ with attempts := 0 } : HealthState).Sound limits c.now
              (c.log ++ [.seen session .output c.now v.output] ++ [.seen session .resize c.now v.resize] ++ [.reset session]) session :=
            .reset ht rfl he hmarks
          rw [put_put]
          exact hc₂.putNote (.reset session) rfl trivial hreset
        · exact hc₂.put hs₂

theorem checkRecovery_sound (h : SoundBut limits (some session) c) {state : HealthState}
    (hs : state.Sound limits c.now c.log session) (v : SessionView) :
    SoundBut limits none (c.checkRecovery limits session v state) := by
  unfold checkRecovery
  split
  · split
    · have hcleared := h.note (.cleared session) rfl trivial
      have hstate : (settled { state with recovering := false } c.now).Sound limits c.now (c.note (.cleared session)).log session :=
        hs.cleared rfl rfl rfl fun _ => rfl
      exact checkObligations_sound hcleared hstate v
    · split
      · exact h.put (hs.congr rfl rfl rfl rfl)
      · split
        · have hrest : ({ state with recovering := false } : HealthState).Sound limits c.now c.log session :=
            hs.congr rfl rfl rfl rfl
          exact fail_sound (h.put hrest) session v _
        · exact h.put hs
  · exact checkObligations_sound h hs v

theorem checkState_sound (h : SoundBut limits (some session) c) {state : HealthState}
    (hs : state.Sound limits c.now c.log session) (resumed online : Bool) (v : SessionView) :
    SoundBut limits none (c.checkState limits resumed online session v state) := by
  unfold checkState
  split
  · exact h.putNote (.cleared session) rfl trivial (hs.cleared rfl rfl rfl fun _ => rfl)
  · split
    · have hcleared := h.note (.cleared session) rfl trivial
      have hstate : (settled { state with epoch := v.connectionEpoch } c.now).Sound limits c.now (c.note (.cleared session)).log session :=
        hs.cleared rfl rfl rfl fun _ => rfl
      simp only
      split
      · rename_i hexhausted
        have hreset := hcleared.note (.reset session) rfl trivial
        have hfresh : ({ settled { state with epoch := v.connectionEpoch } c.now with exhausted := false, attempts := 0 } :
            HealthState).Sound limits c.now ((c.note (.cleared session)).note (.reset session)).log session :=
          .reset (hs.ended hexhausted) rfl rfl fun _ => rfl
        exact checkRecovery_sound hreset hfresh v
      · exact checkRecovery_sound hcleared hstate v
    · exact checkRecovery_sound h hs v

theorem checkSession_sound (h : SoundBut limits none c) (resumed online : Bool) (seen : Nat × SessionView) :
    SoundBut limits none (checkSession limits resumed online c seen) := by
  unfold checkSession
  split
  · exact h
  · obtain ⟨hc, hstate⟩ := stateFor_sound h seen.1 seen.2
    exact checkState_sound hc hstate resumed online seen.2

theorem check_sound (h : SoundBut limits none c) (online : Bool) (sessions : List (Nat × SessionView)) :
    SoundBut limits none (c.check limits online sessions) := by
  unfold check
  split
  · exact h
  · have hstart : SoundBut limits none { c with lastCheckAt := c.now } := ⟨h.log, h.spent, h.states⟩
    generalize hd : decide (limits.stalledMs < c.now - c.lastCheckAt) = resumed
    revert hstart
    generalize { c with lastCheckAt := c.now } = c'
    intro hstart
    induction sessions generalizing c' with
    | nil => exact hstart
    | cons seen sessions ih => exact ih _ (checkSession_sound hstart resumed online seen)

theorem step_sound (h : SoundBut limits none c) {event : HealthEvent} {c' : HealthController}
    (hs : (healthMachine limits).step c event = some c') : SoundBut limits none c' := by
  cases event with
  | tick now =>
    obtain ⟨hle, he⟩ := Option.ite_none_right_eq_some.mp hs
    cases he
    exact ⟨h.log, h.spent, fun s state hne hst => (h.states s state hne hst).later hle⟩
  | fail session v reason => exact Option.some.inj hs ▸ fail_sound h session v reason
  | timer session v =>
    simp only [healthMachine] at hs
    split at hs
    · cases hs
    · rename_i state hstate
      obtain ⟨reason, htimer, he⟩ := Option.map_eq_some_iff.mp hs
      exact he ▸ timerFires_sound h hstate htimer v
  | recoverReturns v failure =>
    simp only [healthMachine] at hs
    split at hs
    · cases hs
    · rename_i session id calls _
      have hpopped : SoundBut limits none { c with calls := calls } := ⟨h.log, h.spent, h.states⟩
      exact Option.some.inj hs ▸ recoverReturns_sound hpopped session id v failure
  | completeRecovery session v => exact Option.some.inj hs ▸ completeRecovery_sound h session v
  | check online sessions => exact Option.some.inj hs ▸ check_sound h online sessions
  | disposeSession session =>
    obtain rfl := Option.some.inj hs
    refine ⟨h.log, h.spent, fun s state hne hst => h.states s state hne ?_⟩
    simp only [disposeSession, Function.update_apply] at hst
    split at hst
    · cases hst
    · exact hst
  | dispose =>
    obtain rfl := Option.some.inj hs
    exact ⟨h.log, h.spent, nofun⟩

theorem start_sound (limits : HealthLimits) : SoundBut limits none {} :=
  ⟨fun before entry after he => by simp at he, fun s => Nat.zero_le _, nofun⟩

theorem run_sound {events : List HealthEvent} (h : (healthMachine limits).run {} events = some c) : SoundBut limits none c :=
  Machine.run_inv _ (fun _ _ _ hi hs => step_sound hi hs) h (start_sound limits)

end HealthController

/-- In every run, a session is recovered at most `retryLimit` times before its
attempts are counted anew, never after it was given up, and is only called
stalled if for `stalledMs` every check saw the same progress of the same
obligation; while it is given up, no recovery waits for it. -/
theorem session_health (limits : HealthLimits) {events : List HealthEvent} {c : HealthController}
    (h : (healthMachine limits).run {} events = some c) :
    (∀ session, spent session c.log ≤ limits.retryLimit) ∧
    (∀ before session reason after, c.log = before ++ .recover session reason :: after →
      spent session before < limits.retryLimit ∧ gaveUp session before = false) ∧
    (∀ before session key time after, c.log = before ++ .stalled session key time :: after →
      ∃ progress since, since + limits.stalledMs ≤ time ∧ Watching session key progress since before) ∧
    ∀ session state, c.states session = some state → gaveUp session c.log = true →
      ∀ v, (healthMachine limits).step c (.timer session v) = none := by
  have hs := HealthController.run_sound h
  refine ⟨hs.spent, fun before session reason after he => hs.log before _ after he,
    fun before session key time after he => hs.log before _ after he, fun session state hstate hgave v => ?_⟩
  have hsound := hs.states session state nofun hstate
  have htimer := hsound.ended (hsound.gaveUp ▸ hgave)
  simp [healthMachine, hstate, htimer]

/-! ## A session that does not get better -/

def stuckView : SessionView := { output := some "7:0:", presented := false }

/-- Its output stands still; every recovery fails at once. -/
def stuckEvents : List HealthEvent :=
  [.check true [(1, stuckView)], .tick 12000, .check true [(1, stuckView)]] ++
    (List.replicate 3 [HealthEvent.timer 1 stuckView, .recoverReturns stuckView (some "no worker")]).flatten

theorem stuckEvents_runs : ((healthMachine {}).run {} stuckEvents).isSome = true := by decide +kernel

theorem session_health_stuck : ∃ c, (healthMachine {}).run {} stuckEvents = some c ∧ spent 1 c.log = 3 ∧ spent 1 c.log ≤ 3 ∧
    gaveUp 1 c.log = true ∧ ∀ v, (healthMachine {}).step c (.timer 1 v) = none := by
  have h := (Option.some_get stuckEvents_runs).symm
  obtain ⟨hspent, -, -, hended⟩ := session_health {} h
  have hgave : gaveUp 1 (((healthMachine {}).run {} stuckEvents).get stuckEvents_runs).log = true := by decide +kernel
  have hstate : ((((healthMachine {}).run {} stuckEvents).get stuckEvents_runs).states 1).isSome = true := by decide +kernel
  exact ⟨_, h, by decide +kernel, hspent 1, hgave, hended 1 _ (Option.some_get hstate).symm hgave⟩

end Webshell
