import Webshell.Logs
import Webshell.ScpReceive

/-!
# Uploads stay where they are sent

Whatever the peer sends and whatever the host answers, a session touches its
target and what plain names lead to from there.
-/

namespace Webshell

open GoBytes Throwing

variable {σ φ α β : Type}

/-! ## What a session may do -/

def ScpOp.touched : ScpOp → Option Str
  | .made path | .entered path | .opened path | .modeChanged path | .timesChanged path => some path
  | .record _ | .checked _ _ => none

/-- The operations that would follow a link. -/
def ScpOp.follows : ScpOp → Option Str
  | .made path | .entered path | .opened path => some path
  | .record _ | .checked _ _ | .modeChanged _ | .timesChanged _ => none

/-- A path with names put behind it. -/
def below (path : Str) (names : List Str) : Str :=
  if names = [] then path else (if path = [slash] then [] else path) ++ names.flatMap (slash :: ·)

section Session

variable (options : ScpOptions) (target : Str) (isDir : Bool)

def ScpInside (before : List ScpOp) (path : Str) : Prop :=
  ∃ names, path = below target names ∧ names.length ≤ 129 ∧ (∀ name ∈ names, scpName name) ∧
    (isDir = false → names ≠ [] → options.recursive ∧ .entered target ∈ before)

/-- The record at hand has had the path checked. -/
def ScpFresh (before : List ScpOp) (path : Str) : Prop :=
  ∃ earlier later, before = earlier ++ .checked path false :: later ∧ ∀ text, .record text ∉ later

structure ScpAllowed (before : List ScpOp) (op : ScpOp) : Prop where
  inside : ∀ path, op.touched = some path → ScpInside options target isDir before path
  fresh : ∀ path, op.follows = some path → ScpFresh before path
  stopped : ∀ path, .checked path true ∉ before

def ScpSafe (log : List ScpOp) : Prop :=
  ∀ before op after, log = before ++ op :: after → ScpAllowed options target isDir before op

end Session

/-- Every directory record has its own end. -/
inductive ScpClosed : List ScpOp → Prop
  | nil : ScpClosed []
  | other {op : ScpOp} {ops : List ScpOp} (h : ∀ text, op = .record text → text.head? ≠ some 68 ∧ text.head? ≠ some 69)
      (hops : ScpClosed ops) : ScpClosed (op :: ops)
  | directory {fields : Str} {inner ops : List ScpOp} (hinner : ScpClosed inner) (hops : ScpClosed ops) :
      ScpClosed (.record (68 :: fields) :: inner ++ .record recordEnd :: ops)

theorem ScpClosed.append {ops more : List ScpOp} (h : ScpClosed ops) (hmore : ScpClosed more) : ScpClosed (ops ++ more) := by
  induction h with
  | nil => exact hmore
  | other h _ ih => exact .other h ih
  | directory hinner _ _ ih =>
    rw [List.append_assoc]
    exact .directory hinner ih

/-- What follows a record: of a directory, also what lies behind its end. -/
def ScpTail (directory : Bool) (ops : List ScpOp) : Prop :=
  if directory then ∃ inner more, ops = inner ++ .record recordEnd :: more ∧ ScpClosed inner ∧ ScpClosed more
  else ScpClosed ops

theorem ScpTail.append {directory : Bool} {ops more : List ScpOp} (h : ScpTail directory ops) (hmore : ScpClosed more) :
    ScpTail directory (ops ++ more) := by
  cases directory with
  | false => exact ScpClosed.append h hmore
  | true =>
    obtain ⟨inner, rest, rfl, hinner, hrest⟩ := h
    exact ⟨inner, rest ++ more, by simp, hinner, hrest.append hmore⟩

theorem ScpClosed.tail {directory : Bool} {ops more : List ScpOp} (h : ScpClosed ops) (hmore : ScpTail directory more) :
    ScpTail directory (ops ++ more) := by
  cases directory with
  | false => exact h.append hmore
  | true =>
    obtain ⟨inner, rest, rfl, hinner, hrest⟩ := hmore
    exact ⟨ops ++ inner, rest, by simp, h.append hinner, hrest⟩

/-- A record and what it does. -/
theorem ScpTail.closed {kind : UInt8} {fields : Str} {ops : List ScpOp} (h : ScpTail (kind = 68) ops) (he : kind ≠ 69) :
    ScpClosed (.record (kind :: fields) :: ops) := by
  by_cases hk : kind = 68
  · subst hk
    obtain ⟨inner, more, rfl, hinner, hmore⟩ := h
    exact .directory hinner hmore
  · simp only [ScpTail, hk, decide_false] at h
    refine .other ?_ h
    rintro _ ⟨⟩
    simp [hk, he]

/-! ## Paths -/

theorem absolute_cons (name : Str) (names : List Str) : absolute (name :: names) = (name :: names).flatMap (slash :: ·) := by
  induction names generalizing name with
  | nil => simp [absolute, join]
  | cons next names ih =>
    have hnext := ih next
    unfold absolute join at hnext ⊢
    rw [List.flatMap_cons, ← hnext]
    simp [List.intercalate]

theorem below_absolute {names more : List Str} (h : ∀ name ∈ names, PlainName name) :
    absolute (names ++ more) = below (absolute names) more := by
  unfold below
  by_cases hmore : more = []
  · rw [if_pos hmore, hmore, List.append_nil]
  · rw [if_neg hmore]
    cases names with
    | nil =>
      cases more with
      | nil => exact absurd rfl hmore
      | cons name more => exact absolute_cons name more
    | cons name names =>
      have hne : absolute (name :: names) ≠ [slash] := by
        intro heq
        rw [absolute_cons] at heq
        have hnil := (h name (List.mem_cons_self ..)).nonempty
        simp [hnil] at heq
      rw [if_neg hne, List.cons_append, absolute_cons, absolute_cons, ← List.cons_append, List.flatMap_append]

theorem scpName_plain {name : Str} (h : scpName name) : PlainName name := by
  simp only [scpName, decide_eq_true_eq] at h
  obtain ⟨hne, hdot, hdots, hbytes⟩ := h
  exact ⟨hne, hdot, hdots, hbytes slash (by decide)⟩

/-! ## The log grows -/

section Growth

variable {options : ScpOptions} {target : Str} {isDir : Bool} {log : List ScpOp} {n : Nat}

theorem ScpInside.mono {path : Str} {before : List ScpOp} (h : ScpInside options target isDir before path)
    (more : List ScpOp) : ScpInside options target isDir (before ++ more) path := by
  obtain ⟨names, hpath, hlength, hnames, hentered⟩ := h
  refine ⟨names, hpath, hlength, hnames, fun hdir hne => ?_⟩
  obtain ⟨hrecursive, hmem⟩ := hentered hdir hne
  exact ⟨hrecursive, List.mem_append_left _ hmem⟩

/-- The log of a session that goes on. -/
structure ScpLog (options : ScpOptions) (target : Str) (isDir : Bool) (log : List ScpOp) : Prop where
  safe : ScpSafe options target isDir log
  stopped : ∀ path, .checked path true ∉ log

theorem ScpSafe.concat (h : ScpLog options target isDir log) {op : ScpOp}
    (hinside : ∀ path, op.touched = some path → ScpInside options target isDir log path)
    (hfresh : ∀ path, op.follows = some path → ScpFresh log path) : ScpSafe options target isDir (log ++ [op]) :=
  Log.concat h.safe ⟨hinside, hfresh, h.stopped⟩

theorem ScpLog.concat (h : ScpLog options target isDir log) {op : ScpOp}
    (hinside : ∀ path, op.touched = some path → ScpInside options target isDir log path)
    (hfresh : ∀ path, op.follows = some path → ScpFresh log path) (hlink : ∀ path, op ≠ .checked path true) :
    ScpLog options target isDir (log ++ [op]) := by
  refine ⟨ScpSafe.concat h hinside hfresh, fun path hm => ?_⟩
  rcases List.mem_append.mp hm with hm | hm
  · exact h.stopped path hm
  · exact hlink path (List.mem_singleton.mp hm).symm

/-- A mode or a time is changed. -/
theorem ScpLog.change (h : ScpLog options target isDir log) {path : Str} {op : ScpOp} (htouched : op.touched = some path)
    (hfollows : op.follows = none) (hpath : ScpInside options target isDir log path) :
    ScpLog options target isDir (log ++ [op]) := by
  apply h.concat
  · intro other ho
    rw [htouched, Option.some.injEq] at ho
    exact ho ▸ hpath
  · intro other ho
    rw [hfollows] at ho
    cases ho
  · rintro other rfl
    cases htouched

/-- A path is made, entered or opened. -/
theorem ScpLog.follow (h : ScpLog options target isDir log) {path : Str} {op : ScpOp} (htouched : op.touched = some path)
    (hfollows : op.follows = some path) (hpath : ScpInside options target isDir log path) (hfresh : ScpFresh log path) :
    ScpLog options target isDir (log ++ [op]) := by
  apply h.concat
  · intro other ho
    rw [htouched, Option.some.injEq] at ho
    exact ho ▸ hpath
  · intro other ho
    rw [hfollows, Option.some.injEq] at ho
    exact ho ▸ hfresh
  · rintro other rfl
    cases htouched

/-! ## Methods that leave the log alone -/

def ScpAt (log : List ScpOp) (n : Nat) (s : ScpRun σ) : Prop := s.ops = log ∧ s.input.length ≤ n

/-- What holds when a session fails. -/
def ScpFailed (options : ScpOptions) (target : Str) (isDir : Bool) (e : ScpError) (s : ScpRun σ) : Prop :=
  e ≠ .outOfFuel ∧ ScpSafe options target isDir s.ops

theorem ScpLog.fail (h : ScpLog options target isDir log) (text : Str) {Q : α → ScpRun σ → Prop} :
    Triple (ScpAt log n) (scpFail text) Q (ScpFailed options target isDir) := by
  apply Triple.throw
  rintro s ⟨rfl, -⟩
  exact ⟨nofun, h.safe⟩

theorem ScpLog.refuse (h : ScpLog options target isDir log) (bad : Prop) [Decidable bad] (text : String) :
    Triple (ScpAt log n) (scpRefuse bad text : Scp σ Unit) (fun _ s => ¬bad ∧ ScpAt log n s) (ScpFailed options target isDir) := by
  unfold scpRefuse
  by_cases hbad : bad
  · rw [if_pos hbad]
    exact h.fail _
  · rw [if_neg hbad]
    exact Triple.pure fun s hs => ⟨hbad, hs⟩

theorem scpNote_at (op : ScpOp) : Triple (ScpAt log n) (scpNote op : Scp σ Unit) (fun _ => ScpAt (log ++ [op]) n)
    (ScpFailed options target isDir) := by
  apply Triple.modify
  rintro s ⟨rfl, hn⟩
  exact ⟨rfl, hn⟩

theorem scpAttempt_at (call : ScpCall σ α) : Triple (ScpAt log n) (scpAttempt call) (fun _ => ScpAt log n)
    (ScpFailed options target isDir) := fun _ hs => hs

theorem ScpLog.call (h : ScpLog options target isDir log) (call : ScpCall σ α) :
    Triple (ScpAt log n) (scpCall call) (fun _ => ScpAt log n) (ScpFailed options target isDir) := by
  apply Triple.bind (scpAttempt_at call)
  intro result
  cases result with
  | ok a => exact Triple.pure fun _ hs => hs
  | error fault => exact h.fail _

theorem ScpLog.ofParse (h : ScpLog options target isDir log) (parsed : Except String α) :
    Triple (ScpAt log n) (ofParse parsed : Scp σ α) (fun a s => parsed = .ok a ∧ ScpAt log n s)
      (ScpFailed options target isDir) := by
  cases parsed with
  | ok a => exact Triple.pure fun _ hs => ⟨rfl, hs⟩
  | error text => exact h.fail _

theorem ScpLog.readByte (h : ScpLog options target isDir log) :
    Triple (ScpAt log n) (readByte : Scp σ UInt8) (fun _ => ScpAt log n) (ScpFailed options target isDir) := by
  rintro s ⟨rfl, hn⟩
  unfold Webshell.readByte
  cases hi : s.input with
  | nil => exact ⟨nofun, h.safe⟩
  | cons code input =>
    rw [hi, List.length_cons] at hn
    exact ⟨rfl, Nat.le_of_succ_le hn⟩

/-- A line that ends as it should takes something from what is to be read. -/
theorem readSlice_at : Triple (ScpAt log n) (readSlice : Scp σ (Str × Option ScpReadError))
    (fun result s => ScpAt log n s ∧ (result.2 = none → ScpAt log (n - 1) s ∧ 0 < n)) (ScpFailed options target isDir) := by
  rintro s ⟨rfl, hn⟩
  unfold readSlice
  simp only
  by_cases hline : newline ∈ s.input.take scpBuffer
  · have hpos := List.length_pos_of_mem (List.mem_of_mem_take hline)
    rw [if_pos hline]
    have hlength : ∀ size, (s.input.drop (size + 1)).length ≤ n - 1 := by
      intro size
      rw [List.length_drop]
      omega
    exact ⟨⟨rfl, Nat.le_trans (hlength _) (Nat.sub_le ..)⟩, fun _ => ⟨⟨rfl, hlength _⟩, by omega⟩⟩
  · rw [if_neg hline]
    by_cases hfull : scpBuffer ≤ s.input.length
    · rw [if_pos hfull]
      refine ⟨⟨rfl, ?_⟩, nofun⟩
      simp only [List.length_drop]
      omega
    · rw [if_neg hfull]
      exact ⟨⟨rfl, Nat.zero_le _⟩, nofun⟩

theorem ScpLog.copyN (h : ScpLog options target isDir log) (host : ScpHost σ φ) (file : φ) (size : Nat) :
    Triple (ScpAt log n) (copyN host file size) (fun _ => ScpAt log n) (ScpFailed options target isDir) := by
  apply Triple.get
  intro s
  apply Triple.set (R := ScpAt log n)
  · rintro _ ⟨⟨rfl, hn⟩, rfl⟩
    refine ⟨rfl, ?_⟩
    simp only [List.length_drop]
    omega
  · by_cases hsize : size = 0
    · rw [if_pos hsize]
      exact Triple.pure fun _ hs => hs
    · rw [if_neg hsize]
      apply Triple.bind (h.call _)
      intro _
      split
      · exact h.fail _
      · exact Triple.pure fun _ hs => hs

theorem ScpLog.response (h : ScpLog options target isDir log) :
    Triple (ScpAt log n) (response : Scp σ Unit) (fun _ => ScpAt log n) (ScpFailed options target isDir) := by
  apply Triple.bind h.readByte
  intro code
  by_cases hcode : code = 0
  · rw [if_pos hcode]
    exact Triple.pure fun _ hs => hs
  · rw [if_neg hcode]
    apply Triple.bind (readSlice_at.weaken (fun _ hs => hs) (fun _ _ hs => hs.1) (fun _ _ hs => hs))
    rintro ⟨line, err⟩
    cases err with
    | some err => exact h.fail _
    | none =>
      apply Triple.bind (h.refuse _ _)
      intro _
      exact Triple.of_fact fun _ => h.fail _

/-! ## What one record does -/

/-- The log has grown by what one record does, or by what several do. -/
def ScpGrown (options : ScpOptions) (target : Str) (isDir : Bool) (directory : Bool) (log : List ScpOp) (n : Nat)
    (s : ScpRun σ) : Prop :=
  ∃ more, ScpLog options target isDir (log ++ more) ∧ ScpTail directory more ∧ ScpAt (log ++ more) n s

theorem ScpGrown.elim {directory : Bool} {m : Scp σ α} {Q : α → ScpRun σ → Prop}
    (h : ∀ more, ScpLog options target isDir (log ++ more) → ScpTail directory more →
      Triple (ScpAt (log ++ more) n) m Q (ScpFailed options target isDir)) :
    Triple (ScpGrown options target isDir directory log n) m Q (ScpFailed options target isDir) := by
  rintro s ⟨more, hlog, htail, hs⟩
  exact h more hlog htail s hs

theorem ScpGrown.le {directory : Bool} {m : Nat} (hm : m ≤ n) {s : ScpRun σ}
    (h : ScpGrown options target isDir directory log m s) : ScpGrown options target isDir directory log n s := by
  obtain ⟨more, hlog, htail, hs⟩ := h
  exact ⟨more, hlog, htail, hs.1, Nat.le_trans hs.2 hm⟩

/-- What is already known to have happened is put before what happens. -/
theorem ScpGrown.behind {directory : Bool} {ops : List ScpOp} (hops : ScpClosed ops) {s : ScpRun σ}
    (h : ScpGrown options target isDir directory (log ++ ops) n s) : ScpGrown options target isDir directory log n s := by
  obtain ⟨more, hlog, htail, hs⟩ := h
  rw [List.append_assoc] at hlog hs
  exact ⟨ops ++ more, hlog, hops.tail htail, hs⟩

theorem closed_of_touched {op : ScpOp} {path : Str} (h : op.touched = some path) : ScpClosed [op] := by
  refine .other ?_ .nil
  rintro text rfl
  cases h

theorem ScpFresh.append {path : Str} {before more : List ScpOp} (h : ScpFresh before path)
    (hmore : ∀ text, .record text ∉ more) : ScpFresh (before ++ more) path := by
  obtain ⟨earlier, later, rfl, hlater⟩ := h
  refine ⟨earlier, later ++ more, by simp, fun text hm => ?_⟩
  rcases List.mem_append.mp hm with hm | hm
  · exact hlater text hm
  · exact hmore text hm

theorem ScpLog.tolerate (h : ScpLog options target isDir log) (tolerated : ScpFault → Bool) (result : Except ScpFault α) :
    Triple (ScpAt log n) (scpTolerate tolerated result : Scp σ Unit) (fun _ => ScpAt log n)
      (ScpFailed options target isDir) := by
  cases result with
  | ok a => exact Triple.pure fun _ hs => hs
  | error fault =>
    unfold scpTolerate
    by_cases ht : tolerated fault
    · simp only [ht, if_true]
      exact Triple.pure fun _ hs => hs
    · simp only [ht]
      exact h.fail _

/-- Nothing is done. -/
theorem ScpLog.grown {s : ScpRun σ} (h : ScpLog options target isDir log) (hs : ScpAt log n s) :
    ScpGrown options target isDir false log n s := by
  refine ⟨[], ?_, ScpClosed.nil, ?_⟩
  · rwa [List.append_nil]
  · rwa [List.append_nil]

theorem ScpLog.scpChange (h : ScpLog options target isDir log) (wanted : Bool) {path : Str} {op : ScpOp}
    (htouched : op.touched = some path) (hfollows : op.follows = none) (hpath : ScpInside options target isDir log path)
    (call : ScpCall σ Unit) : Triple (ScpAt log n) (scpChange wanted op call)
      (fun _ => ScpGrown options target isDir false log n) (ScpFailed options target isDir) := by
  cases wanted with
  | false => exact Triple.pure fun _ hs => h.grown hs
  | true =>
    have hlog := h.change htouched hfollows hpath
    apply Triple.bind (scpNote_at op)
    intro _
    refine (hlog.call call).weaken (fun _ hs => hs) (fun _ _ hs => ?_) fun _ _ hs => hs
    exact ⟨[op], hlog, closed_of_touched htouched, hs⟩

theorem ScpLog.receiveFile (h : ScpLog options target isDir log) (host : ScpHost σ φ) {path : Str} (size mode : Nat)
    (hpath : ScpInside options target isDir log path) (hfresh : ScpFresh log path) :
    Triple (ScpAt log n) (receiveFile host options path size mode)
      (fun _ => ScpGrown options target isDir false log n) (ScpFailed options target isDir) := by
  have hopened : ScpLog options target isDir (log ++ [.opened path]) := h.follow rfl rfl hpath hfresh
  apply Triple.bind (scpNote_at _)
  intro _
  apply Triple.bind (hopened.call _)
  intro file
  apply Triple.deferred
  · apply Triple.bind (hopened.call _)
    intro _
    apply Triple.bind (hopened.copyN host file size)
    intro _
    apply Triple.bind hopened.response
    intro _
    apply Triple.bind (hopened.scpChange _ rfl rfl (hpath.mono _) _)
    intro _
    apply ScpGrown.elim
    intro more hlog hmore
    apply Triple.bind (hlog.call _)
    intro _
    refine (hlog.call _).weaken (fun _ hs => hs) (fun _ s hs => ?_) fun _ _ hs => hs
    exact ScpGrown.behind (closed_of_touched rfl) ⟨more, hlog, hmore, hs⟩
  · rintro _ s ⟨more, hlog, hmore, hs⟩
    exact ⟨more, hlog, hmore, hs⟩
  · exact fun _ _ hs => hs

theorem ScpLog.receiveDirectory (h : ScpLog options target isDir log) (host : ScpHost σ φ) {enter : Str → Scp σ Unit}
    {path : Str} (entry : ScpEntry) (hpath : ScpInside options target isDir log path) (hfresh : ScpFresh log path)
    (henter : ∀ more, options.recursive → .entered path ∈ more → ScpLog options target isDir (log ++ more) →
      Triple (ScpAt (log ++ more) n) (enter path) (fun _ => ScpGrown options target isDir true (log ++ more) n)
        (ScpFailed options target isDir)) :
    Triple (ScpAt log n) (receiveDirectory host options enter path entry)
      (fun _ => ScpGrown options target isDir true log n) (ScpFailed options target isDir) := by
  have hmade : ScpLog options target isDir (log ++ [.made path]) := h.follow rfl rfl hpath hfresh
  have hentered : ScpLog options target isDir (log ++ [.made path] ++ [.entered path]) :=
    hmade.follow rfl rfl (hpath.mono _) (hfresh.append (by simp))
  apply Triple.bind (h.refuse _ _)
  intro _
  apply Triple.of_fact
  intro hwanted
  have hrecursive : options.recursive = true := by
    by_contra hr
    exact hwanted (.inl hr)
  apply Triple.bind (scpNote_at _)
  intro _
  apply Triple.bind (scpAttempt_at _)
  intro made
  apply Triple.bind (hmade.tolerate _ _)
  intro _
  apply Triple.bind (scpAttempt_at _)
  intro info
  apply Triple.bind (hmade.refuse _ _)
  intro _
  apply Triple.of_fact
  intro _
  apply Triple.bind (hmade.call _)
  intro _
  apply Triple.bind (scpNote_at _)
  intro _
  rw [List.append_assoc] at hentered ⊢
  apply Triple.bind (henter _ hrecursive (by simp) hentered)
  intro _
  apply ScpGrown.elim
  intro more hlog hmore
  refine (hlog.scpChange _ rfl rfl ((hpath.mono _).mono _) _).weaken (fun _ hs => hs) (fun _ s hs => ?_) fun _ _ hs => hs
  obtain ⟨rest, hlog, hrest, hs⟩ := hs
  have hops : ScpClosed [.made path, .entered path] := .other nofun (closed_of_touched rfl)
  apply ScpGrown.behind hops
  rw [List.append_assoc] at hlog hs
  exact ⟨more ++ rest, hlog, hmore.append hrest, hs⟩

theorem ScpLog.checkLink (h : ScpLog options target isDir log) (host : ScpHost σ φ) (path : Str) :
    Triple (ScpAt log n) (checkLink host path) (fun _ s => ScpLog options target isDir (log ++ [.checked path false]) ∧
      ScpAt (log ++ [.checked path false]) n s) (ScpFailed options target isDir) := by
  apply Triple.bind (scpAttempt_at _)
  intro info
  apply Triple.bind (scpNote_at _)
  intro _
  cases info.toOption.any (·.symlink) with
  | false =>
    have hlog : ScpLog options target isDir (log ++ [.checked path false]) := h.concat (by simp [ScpOp.touched])
      (by simp [ScpOp.follows]) (by simp)
    exact Triple.pure fun _ hs => ⟨hlog, hs⟩
  | true =>
    apply Triple.throw
    rintro s ⟨hops, -⟩
    refine ⟨nofun, ?_⟩
    rw [hops]
    exact ScpSafe.concat h (by simp [ScpOp.touched]) (by simp [ScpOp.follows])

theorem ScpLog.keepTimes (h : ScpLog options target isDir log) (host : ScpHost σ φ) {path : Str} (times : Option ScpTimes)
    (hpath : ScpInside options target isDir log path) : Triple (ScpAt log n) (keepTimes host options path times)
      (fun _ => ScpGrown options target isDir false log n) (ScpFailed options target isDir) := by
  cases times with
  | none => exact Triple.pure fun _ hs => h.grown hs
  | some times => exact h.scpChange _ rfl rfl hpath _

theorem ScpLog.receiveOne (h : ScpLog options target isDir log) (host : ScpHost σ φ) (enter : Str → Scp σ Unit)
    (directory : Bool) {path : Str} (entry : ScpEntry) (hpath : ScpInside options target isDir log path)
    (hfresh : ScpFresh log path)
    (henter : ∀ more, options.recursive → .entered path ∈ more → ScpLog options target isDir (log ++ more) →
      Triple (ScpAt (log ++ more) n) (enter path) (fun _ => ScpGrown options target isDir true (log ++ more) n)
        (ScpFailed options target isDir)) :
    Triple (ScpAt log n) (receiveOne host options enter directory path entry)
      (fun _ => ScpGrown options target isDir directory log n) (ScpFailed options target isDir) := by
  cases directory with
  | false => exact h.receiveFile host _ _ hpath hfresh
  | true => exact h.receiveDirectory host entry hpath hfresh henter

theorem ScpLog.receiveEntry (h : ScpLog options target isDir log) (host : ScpHost σ φ) {enter : Str → Scp σ Unit}
    (directory : Bool) {path : Str} (entry : ScpEntry) (times : Option ScpTimes)
    (hpath : ScpInside options target isDir log path)
    (henter : ∀ more, options.recursive → .entered path ∈ more → ScpLog options target isDir (log ++ more) →
      Triple (ScpAt (log ++ more) n) (enter path) (fun _ => ScpGrown options target isDir true (log ++ more) n)
        (ScpFailed options target isDir)) :
    Triple (ScpAt log n) (receiveEntry host options enter directory path entry times)
      (fun _ => ScpGrown options target isDir directory log n) (ScpFailed options target isDir) := by
  have hfresh : ScpFresh (log ++ [.checked path false]) path := ⟨log, [], rfl, by simp⟩
  have hops : ScpClosed [.checked path false] := .other nofun .nil
  apply Triple.bind (h.checkLink host path)
  intro _
  apply Triple.of_fact
  intro hchecked
  have hone := hchecked.receiveOne (n := n) host enter directory entry (hpath.mono _) hfresh
  simp only [List.append_assoc, List.singleton_append] at hone
  apply Triple.bind (hone fun more hrecursive hm => henter _ hrecursive (List.mem_cons_of_mem _ hm))
  intro _
  apply ScpGrown.elim
  intro more hlog hmore
  refine (hlog.keepTimes host times ((hpath.mono _).mono _)).weaken (fun _ hs => hs) (fun _ s hs => ?_) fun _ _ hs => hs
  obtain ⟨rest, hlog, hrest, hs⟩ := hs
  apply ScpGrown.behind hops
  rw [List.append_assoc] at hlog hs
  exact ⟨more ++ rest, hlog, hmore.append hrest, hs⟩

end Growth

/-! ## The records of a directory -/

section Records

variable {options : ScpOptions} {names : List Str} {isDir : Bool} {log : List ScpOp} {n : Nat}

/-- Where records are received: behind the target, once that is a directory. -/
structure ScpPlace (options : ScpOptions) (names : List Str) (isDir : Bool) (log : List ScpOp) (path : Str) (here : Bool)
    (depth : Nat) : Prop where
  path : ∃ more, path = absolute (names ++ more) ∧ more.length ≤ depth ∧ (∀ name ∈ more, scpName name) ∧
    (here = false → more = [])
  shallow : depth ≤ 128
  entered : here = true → isDir = false → options.recursive ∧ .entered (absolute names) ∈ log

theorem ScpPlace.mono {path : Str} {here : Bool} {depth : Nat} (h : ScpPlace options names isDir log path here depth)
    (more : List ScpOp) : ScpPlace options names isDir (log ++ more) path here depth := by
  refine ⟨h.path, h.shallow, fun hhere hdir => ?_⟩
  obtain ⟨hrecursive, hm⟩ := h.entered hhere hdir
  exact ⟨hrecursive, List.mem_append_left _ hm⟩

theorem ScpPlace.entry {path name : Str} {here : Bool} {depth : Nat} (hnames : ∀ name ∈ names, PlainName name)
    (h : ScpPlace options names isDir log path here depth) (hname : scpName name) :
    ∃ more, scpPath here path name = absolute (names ++ more) ∧ more.length ≤ depth + 1 ∧ (∀ name ∈ more, scpName name) ∧
      (here = false → more = []) := by
  obtain ⟨more, rfl, hlength, hmore, hroot⟩ := h.path
  cases here with
  | false => exact ⟨more, rfl, Nat.le_succ_of_le hlength, hmore, hroot⟩
  | true =>
    have hall : ∀ other ∈ more ++ [name], scpName other := by
      intro other hm
      rcases List.mem_append.mp hm with hm | hm
      · exact hmore other hm
      · rw [List.mem_singleton.mp hm]
        exact hname
    have hplain : ∀ name ∈ names ++ more, PlainName name := by
      intro other hm
      rcases List.mem_append.mp hm with hm | hm
      · exact hnames other hm
      · exact scpName_plain (hmore other hm)
    refine ⟨more ++ [name], ?_, ?_, hall, nofun⟩
    · rw [← List.append_assoc, ← pathJoin_absolute hplain (scpName_plain hname)]
      rfl
    · rw [List.length_append, List.length_singleton]
      omega

theorem ScpPlace.inside {path name : Str} {here : Bool} {depth : Nat} (hnames : ∀ name ∈ names, PlainName name)
    (h : ScpPlace options names isDir log path here depth) (hname : scpName name) :
    ScpInside options (absolute names) isDir log (scpPath here path name) := by
  obtain ⟨more, hpath, hlength, hmore, hroot⟩ := h.entry hnames hname
  have hshallow := h.shallow
  refine ⟨more, ?_, by omega, hmore, fun hdir hne => ?_⟩
  · rw [hpath, below_absolute hnames]
  · cases here with
    | false => exact absurd (hroot rfl) hne
    | true => exact h.entered rfl hdir

/-- The next directory down. -/
theorem ScpPlace.enter {path name : Str} {here : Bool} {depth : Nat} (hnames : ∀ name ∈ names, PlainName name)
    (h : ScpPlace options names isDir log path here depth) (hname : scpName name) (hdepth : depth + 1 ≤ 128)
    {more : List ScpOp} (hrecursive : options.recursive) (hentered : .entered (scpPath here path name) ∈ more) :
    ScpPlace options names isDir (log ++ more) (scpPath here path name) true (depth + 1) := by
  obtain ⟨below, hpath, hlength, hbelow, hroot⟩ := h.entry hnames hname
  refine ⟨⟨below, hpath, hlength, hbelow, nofun⟩, hdepth, fun _ hdir => ⟨hrecursive, ?_⟩⟩
  cases here with
  | false =>
    rw [hroot rfl, List.append_nil] at hpath
    rw [hpath] at hentered
    exact List.mem_append_right _ hentered
  | true => exact List.mem_append_left _ (h.entered rfl hdir).2

theorem scpEntry_name {here : Bool} {count : Nat} {fields : Str} {entry : ScpEntry}
    (h : scpEntry here count fields = .ok entry) : scpName entry.name := by
  unfold scpEntry at h
  split at h
  · split at h
    · cases h
    · rename_i hname
      rw [not_or] at hname
      split at h
      · split at h
        · cases h
        · cases h
          exact not_not.mp hname.2
      · cases h
  · cases h

/-- What holds of the records of a directory when `fuel` is enough for them. -/
def LoopGrows (host : ScpHost σ φ) (options : ScpOptions) (names : List Str) (isDir : Bool) (fuel : Nat) : Prop :=
  ∀ (path : Str) (here : Bool) (depth : Nat) (nested : Bool) (count : Nat) (times : Option ScpTimes) (log : List ScpOp)
    (n : Nat), n < fuel → ScpLog options (absolute names) isDir log → ScpPlace options names isDir log path here depth →
    Triple (ScpAt log n) (receiveLoop host options fuel path here depth nested count times)
      (fun _ => ScpGrown options (absolute names) isDir nested log n) (ScpFailed options (absolute names) isDir)

theorem LoopGrows.enter {host : ScpHost σ φ} {fuel : Nat} (ih : LoopGrows host options names isDir fuel)
    (hnames : ∀ name ∈ names, PlainName name) (hn : n < fuel) {path name : Str} {here : Bool} {depth : Nat}
    (hplace : ScpPlace options names isDir log path here depth) (hname : scpName name) (more : List ScpOp)
    (hrecursive : options.recursive) (hentered : .entered (scpPath here path name) ∈ more)
    (hlog : ScpLog options (absolute names) isDir (log ++ more)) :
    Triple (ScpAt (log ++ more) n)
      (receiveEntries (receiveLoop host options fuel) (scpPath here path name) true (depth + 1) true)
      (fun _ => ScpGrown options (absolute names) isDir true (log ++ more) n)
      (ScpFailed options (absolute names) isDir) := by
  apply Triple.bind (hlog.refuse _ _)
  intro _
  apply Triple.of_fact
  intro hdepth
  exact ih _ _ _ _ _ _ _ _ hn hlog (hplace.enter hnames hname (by omega) hrecursive hentered)

/-- A `C` or `D` record, and the records after it. -/
theorem LoopGrows.entry {host : ScpHost σ φ} {fuel : Nat} (ih : LoopGrows host options names isDir fuel)
    (hnames : ∀ name ∈ names, PlainName name) (hn : n < fuel) {path : Str} {here : Bool} {depth : Nat} {kind : UInt8}
    {fields : Str} (hkind : kind ≠ 69)
    (hlog : ScpLog options (absolute names) isDir (log ++ [.record (kind :: fields)]))
    (hplace : ScpPlace options names isDir (log ++ [.record (kind :: fields)]) path here depth) {entry : ScpEntry}
    (hname : scpName entry.name) (nested : Bool) (count : Nat) (times : Option ScpTimes) :
    Triple (ScpAt (log ++ [.record (kind :: fields)]) n)
      (do
        receiveEntry host options (fun path => receiveEntries (receiveLoop host options fuel) path true (depth + 1) true)
          (kind = 68) (scpPath here path entry.name) entry times
        receiveLoop host options fuel path here depth nested (count + 1) none)
      (fun _ => ScpGrown options (absolute names) isDir nested log n) (ScpFailed options (absolute names) isDir) := by
  apply Triple.bind (hlog.receiveEntry host _ entry times (hplace.inside hnames hname)
    fun more => ih.enter hnames hn hplace hname more)
  intro _
  apply ScpGrown.elim
  intro more hlog hmore
  refine (ih _ _ _ _ _ _ _ _ hn hlog (hplace.mono more)).weaken (fun _ hs => hs) (fun _ s hs => ?_) fun _ _ hs => hs
  rw [List.append_assoc] at hs
  exact ScpGrown.behind (hmore.closed hkind) hs

theorem LoopGrows.record {host : ScpHost σ φ} {fuel : Nat} (ih : LoopGrows host options names isDir fuel)
    (hnames : ∀ name ∈ names, PlainName name) (hn : n < fuel) {path : Str} {here : Bool} {depth : Nat} {kind : UInt8}
    {fields : Str} (hlog : ScpLog options (absolute names) isDir (log ++ [.record (kind :: fields)]))
    (hplace : ScpPlace options names isDir (log ++ [.record (kind :: fields)]) path here depth) (nested : Bool)
    (count : Nat) (times : Option ScpTimes) :
    Triple (ScpAt (log ++ [.record (kind :: fields)]) n)
      (receiveRecord host options (receiveLoop host options fuel) path here depth nested count times kind fields)
      (fun _ => ScpGrown options (absolute names) isDir nested log n) (ScpFailed options (absolute names) isDir) := by
  unfold receiveRecord
  by_cases habort : kind = 1 ∨ kind = 2
  · rw [if_pos habort]
    exact hlog.fail _
  rw [if_neg habort]
  by_cases hend : kind = 69
  · rw [if_pos hend]
    apply Triple.bind (hlog.refuse _ _)
    intro _
    apply Triple.of_fact
    intro hbad
    obtain ⟨htext, hnested⟩ := not_or.mp hbad
    rw [Bool.not_eq_false] at hnested
    rw [not_not.mp htext] at hlog ⊢
    rw [hnested]
    refine (hlog.call _).weaken (fun _ hs => hs) (fun _ s hs => ?_) fun _ _ hs => hs
    exact ⟨[.record recordEnd], hlog, ⟨[], [], rfl, .nil, .nil⟩, hs⟩
  rw [if_neg hend]
  by_cases htimes : kind = 84
  · rw [if_pos htimes]
    apply Triple.bind (hlog.ofParse _)
    intro times
    apply Triple.of_fact
    intro _
    apply Triple.bind (hlog.call _)
    intro _
    refine (ih _ _ _ _ _ _ _ _ hn hlog hplace).weaken (fun _ hs => hs) (fun _ s hs => ?_) fun _ _ hs => hs
    apply ScpGrown.behind _ hs
    refine .other ?_ .nil
    rintro _ ⟨⟩
    simp [htimes]
  rw [if_neg htimes]
  by_cases hentry : kind = 67 ∨ kind = 68
  · rw [if_pos hentry]
    apply Triple.bind (hlog.ofParse _)
    intro entry
    apply Triple.of_fact
    intro hparsed
    exact ih.entry hnames hn hend hlog hplace (scpEntry_name hparsed) nested count times
  · rw [if_neg hentry]
    exact hlog.fail _

theorem receiveLoop_grown (host : ScpHost σ φ) (hnames : ∀ name ∈ names, PlainName name) (fuel : Nat) :
    LoopGrows host options names isDir fuel := by
  induction fuel with
  | zero => exact fun _ _ _ _ _ _ _ _ hn => absurd hn (Nat.not_lt_zero _)
  | succ fuel ih =>
    intro path here depth nested count times log n hn h hplace
    apply Triple.bind readSlice_at
    rintro ⟨line, err⟩
    by_cases hend : err = some .eof ∧ nested = false ∧ line = []
    · obtain ⟨rfl, rfl, rfl⟩ := hend
      exact Triple.pure fun s hs => h.grown hs.1
    simp only [hend, if_false]
    cases err with
    | some err => exact (h.fail _).weaken (fun _ hs => hs.1) (fun _ _ hs => hs) fun _ _ hs => hs
    | none =>
      by_cases hpos : 0 < n
      swap
      · exact fun s hs => absurd (hs.2 rfl).2 hpos
      have hlog : ScpLog options (absolute names) isDir (log ++ [.record line.dropLast]) := h.concat nofun nofun nofun
      have hplace' := hplace.mono [.record line.dropLast]
      apply Triple.weaken (P := ScpAt log (n - 1)) (Q := fun _ => ScpGrown options (absolute names) isDir nested log (n - 1))
        (E := ScpFailed options (absolute names) isDir) ?_ (fun s hs => (hs.2 rfl).1)
        (fun _ _ hs => hs.le (Nat.sub_le ..)) fun _ _ hs => hs
      apply Triple.bind (scpNote_at _)
      intro _
      cases htext : line.dropLast with
      | nil =>
        rw [htext] at hlog
        exact hlog.fail _
      | cons kind fields =>
        rw [htext] at hlog hplace'
        exact ih.record hnames (by omega) hlog hplace' nested count times

end Records

/-! ## Whole sessions -/

/-- What the target is before anything is received. -/
def scpTargetDir (host : ScpHost σ φ) (target : Str) (world : σ) : Bool := (host.stat target world).1.toOption.any (·.dir)

/-- The fuel is enough, since every record takes something from what is to be read. -/
theorem receiveEntries_grown (host : ScpHost σ φ) {options : ScpOptions} {names : List Str} {isDir : Bool}
    (hnames : ∀ name ∈ names, PlainName name) (hlog : ScpLog options (absolute names) isDir []) (s : ScpRun σ) :
    Triple (ScpAt [] s.input.length)
      (receiveEntries (receiveLoop host options (s.input.length + 1)) (absolute names) isDir 0 false)
      (fun _ => ScpGrown options (absolute names) isDir false [] s.input.length)
      (ScpFailed options (absolute names) isDir) := by
  apply Triple.bind (hlog.refuse _ _)
  intro _
  apply Triple.of_fact
  intro _
  apply receiveLoop_grown host hnames _ _ _ _ _ _ _ _ _ (Nat.lt_succ_self _) hlog
  refine ⟨⟨[], by rw [List.append_nil], Nat.le_refl 0, by simp, fun _ => rfl⟩, by omega, ?_⟩
  intro hhere hdir
  rw [hhere] at hdir
  cases hdir

theorem receive_safe (host : ScpHost σ φ) (options : ScpOptions) {names : List Str} (hnames : ∀ name ∈ names, PlainName name)
    (world : σ) : Triple (fun s => s.ops = [] ∧ s.world = world) (receive host options (absolute names))
      (fun _ s => ScpSafe options (absolute names) (scpTargetDir host (absolute names) world) s.ops ∧ ScpClosed s.ops)
      (ScpFailed options (absolute names) (scpTargetDir host (absolute names) world)) := by
  have hlog : ScpLog options (absolute names) (scpTargetDir host (absolute names) world) [] :=
    ⟨fun before op after heq => by simp at heq, fun _ => List.not_mem_nil⟩
  have hstat : Triple (fun s => s.ops = [] ∧ s.world = world) (scpAttempt (host.stat (absolute names)))
      (fun info s => info = (host.stat (absolute names) world).1 ∧ ∃ n, ScpAt [] n s)
      (ScpFailed options (absolute names) (scpTargetDir host (absolute names) world)) := by
    rintro s ⟨hops, rfl⟩
    exact ⟨rfl, s.input.length, hops, Nat.le_refl _⟩
  apply Triple.bind hstat
  intro info
  apply Triple.of_fact
  rintro rfl
  apply Triple.of_exists
  intro n
  apply Triple.bind (hlog.tolerate _ _)
  intro _
  apply Triple.bind (hlog.refuse _ _)
  intro _
  apply Triple.of_fact
  intro _
  apply Triple.bind (hlog.call _)
  intro _
  apply Triple.get
  intro s
  refine (receiveEntries_grown host hnames hlog s).weaken ?_ ?_ fun _ _ hs => hs
  · rintro _ ⟨hs, rfl⟩
    exact ⟨hs.1, Nat.le_refl _⟩
  · rintro _ t ⟨more, hmore, hclosed, hs⟩
    rw [hs.1]
    exact ⟨hmore.safe, hclosed⟩

theorem scp_upload (host : ScpHost σ φ) (options : ScpOptions) {path : Str} (h : path.head? = some slash) (input : Str)
    (ends : Option Str) (world : σ) :
    let target := clean path
    let session := scpSession host options target input ends world
    ScpSafe options target (scpTargetDir host target world) session.2 ∧ (session.1 = none → ScpClosed session.2) ∧
      session.1 ≠ some .outOfFuel := by
  obtain ⟨names, hnames, htarget⟩ := clean_rooted h
  have hsafe := receive_safe host options hnames world ⟨input, ends, world, []⟩ ⟨rfl, rfl⟩
  rw [htarget]
  simp only [scpSession]
  cases hr : receive host options (absolute names) ⟨input, ends, world, []⟩ with
  | ok a s =>
    rw [hr] at hsafe
    exact ⟨hsafe.1, fun _ => hsafe.2, nofun⟩
  | error e s =>
    rw [hr] at hsafe
    refine ⟨hsafe.2, nofun, ?_⟩
    intro heq
    exact hsafe.1 (Option.some.inj heq)

/-! ## A target that is not there -/

/-- A disk of paths, each a directory or not. -/
def scpDisk : ScpHost (List (Str × Bool)) Str where
  stat path disk := ((disk.lookup path).elim (.error ⟨scpText "no such file", true, false⟩) fun dir => .ok ⟨dir, false⟩, disk)
  lstat path disk := ((disk.lookup path).elim (.error ⟨scpText "no such file", true, false⟩) fun dir => .ok ⟨dir, false⟩, disk)
  mkdir path _ disk :=
    if (disk.lookup path).isSome then (.error ⟨scpText "file exists", false, true⟩, disk) else (.ok (), (path, true) :: disk)
  openFile path _ disk := (.ok path, (path, false) :: disk)
  write _ _ disk := (.ok (), disk)
  chmodFile _ _ disk := (.ok (), disk)
  close _ disk := (.ok (), disk)
  chmod _ _ disk := (.ok (), disk)
  chtimes _ _ _ disk := (.ok (), disk)
  ack disk := (.ok (), disk)

/-- A directory with one file in it, sent to where nothing is. -/
def scpAbsent : Option ScpError × List ScpOp :=
  scpSession scpDisk ⟨true, false, false⟩ (clean (scpText "/t")) (scpText "D0755 0 x\nC0644 1 a\nX\x00E\n") none []

theorem scp_upload_absent : scpTargetDir scpDisk (clean (scpText "/t")) [] = false ∧
    clean (scpText "/t") ≠ scpText "/t/a" ∧ .opened (scpText "/t/a") ∈ scpAbsent.2 := by
  decide +kernel

theorem scp_upload_finished : scpAbsent.1 = none ∧ ScpClosed scpAbsent.2 := by
  have hend : scpAbsent.1 = none := by decide +kernel
  exact ⟨hend, (scp_upload scpDisk ⟨true, false, false⟩ (by decide : (scpText "/t").head? = some slash)
    (scpText "D0755 0 x\nC0644 1 a\nX\x00E\n") none []).2.1 hend⟩

end Webshell
