import Mathlib.Algebra.GroupWithZero.Nat
import Mathlib.Data.List.Forall2
import Webshell.SSHSessions

/-!
# The table of retained terminals

Who holds a terminal, how many there are and under which names, and what takes one
out of the table. The loop of `newTerminal` over the table holds the lock of the table
but only one after another the locks of the terminals, so outputs may end meanwhile.
-/

namespace Webshell

namespace SSHServer

/-- The sessions a terminal is attached to. -/
def holders (s : SSHServer) (j : Nat) : Nat := (s.connections.map fun c => c.attached.count j).sum

/-- The names in the table. -/
def tableIDs (terminals : List RetainedShell) : List String := (terminals.filter (·.home = .retained)).map (·.id)

def startsShell (s : SSHServer) (opened : Bool) : Bool :=
  opened && !s.shellsClosed && !s.shellsFailure.isSome && s.workLive && !s.expired

/-- `newTerminal` while outputs end: what its loop has found is a terminal that was finished when it looked, and still is,
or none that was. -/
def newTerminalScanned (s : SSHServer) (i : Nat) (name random : String) (opened : Bool) (found : Option Nat) : Stepped :=
  match s.session i with
  | none => none
  | some c =>
    let name := if name = "" then random else name
    if !sessionName name || !s.currentLocked c.access || (s.findRetained name).isSome then s.quiet
    else if s.terminals.countP (·.home = .retained) < 32 then s.openTerminal c.access name opened
    else
      match found with
      | none => s.quiet
      | some oldest =>
        if s.terminals[oldest]?.any eligible then
          (s.modifyTerminal oldest fun t => { t with home := .dropped }).openTerminal c.access name opened
        else none

end SSHServer

inductive TableEvent
  | call (e : SSHEvent)
  | scanned (i : Nat) (name random : String) (opened : Bool) (found : Option Nat)
  deriving DecidableEq

def SSHServer.actTable (bcryptCost : String → Option Int) (s : SSHServer) : TableEvent → Stepped
  | .call e => s.act bcryptCost e
  | .scanned i name random opened found => s.newTerminalScanned i name random opened found

def tableMachine (bcryptCost : String → Option Int) : Machine (SSHServer × Option ApplyReply) TableEvent where
  step s e := s.1.actTable bcryptCost e

/-! ## What is claimed of states and steps -/

structure TableSound (s : SSHServer) : Prop where
  single : ∀ j, s.holders j ≤ 1
  small : (SSHServer.tableIDs s.terminals).length ≤ 32
  distinct : (SSHServer.tableIDs s.terminals).Nodup

/-- The step takes the terminal out of the table to close it. -/
def Closes (s : SSHServer) (t : RetainedShell) : TableEvent → Prop
  | .call (.kill _ name) => t.id = name
  | .call .ownCleanup => ∃ call, s.update = .cleaning call .starting
  | .call (.oldCleanup i) => s.abandoned[i]? = some .starting
  | _ => False

def Starts : TableEvent → Prop
  | .call (.newTerminal ..) => True
  | .scanned .. => True
  | _ => False

structure TableStep (s : SSHServer) (e : TableEvent) (s' : SSHServer) : Prop where
  /-- Only a terminal that has ended and that nobody holds any more leaves the table otherwise, the last holder's detach
  included. -/
  kept : ∀ j t, s.terminals[j]? = some t → t.home = .retained → ∃ t', s'.terminals[j]? = some t' ∧
    (t'.home = .retained ∨ Closes s t e ∨
      t.ended = true ∧ t'.attached = false ∧ (t.attached = true → ∃ i, e = .call (.detach i j)))
  detach : ∀ i j, e = .call (.detach i j) → ∀ k ≠ j, s'.terminals[k]? = s.terminals[k]?
  /-- No terminal was added: the call returned an error. -/
  failed : Starts e → s'.terminals.length = s.terminals.length → s'.terminals = s.terminals

/-- The table is full, a finished terminal makes room for a new one, and the shell does not start. -/
def EvictsForNothing (s : SSHServer) (e : TableEvent) : Prop :=
  ∃ i name random opened oldest c,
    (e = .call (.newTerminal i name random opened oldest) ∧ s.isOldest oldest = true ∨
      e = .scanned i name random opened (some oldest) ∧ s.terminals[oldest]?.any SSHServer.eligible = true) ∧
    s.session i = some c ∧ sessionName (if name = "" then random else name) = true ∧ s.currentLocked c.access = true ∧
    s.findRetained (if name = "" then random else name) = none ∧ 32 ≤ s.terminals.countP (·.home = .retained) ∧
    s.startsShell opened = false

/-! ## The invariant -/

structure TableInv (s : SSHServer) : Prop where
  held : ∀ j, s.holders j = if s.terminals[j]?.any (·.attached) then 1 else 0
  small : (SSHServer.tableIDs s.terminals).length ≤ 32
  distinct : (SSHServer.tableIDs s.terminals).Nodup

theorem TableInv.sound {s : SSHServer} (h : TableInv s) : TableSound s where
  single j := by
    rw [h.held]
    split <;> omega
  small := h.small
  distinct := h.distinct

theorem length_tableIDs (terminals : List RetainedShell) :
    (SSHServer.tableIDs terminals).length = terminals.countP (·.home = .retained) := by
  rw [SSHServer.tableIDs, List.length_map, List.countP_eq_length_filter]

/-- Nobody enters the table, and no name changes. -/
def Leaves (t t' : RetainedShell) : Prop := t'.home = .retained → t.home = .retained ∧ t'.id = t.id

theorem tableIDs_sublist {ts ts' : List RetainedShell} (h : List.Forall₂ Leaves ts ts') :
    (SSHServer.tableIDs ts').Sublist (SSHServer.tableIDs ts) := by
  unfold SSHServer.tableIDs
  induction h with
  | nil => exact List.Sublist.refl _
  | @cons t t' ts ts' ht _ ih =>
    by_cases hhome' : t'.home = .retained
    · obtain ⟨hhome, hid⟩ := ht hhome'
      simpa [List.filter_cons, hhome, hhome', hid] using ih
    · by_cases hhome : t.home = .retained
      · simpa [List.filter_cons, hhome, hhome'] using ih.trans (List.sublist_cons_self _ _)
      · simpa [List.filter_cons, hhome, hhome'] using ih

theorem forall₂_modify {α : Type} {R : α → α → Prop} (hrefl : ∀ a, R a a) {f : α → α} :
    ∀ (l : List α) (i : Nat), (∀ a, l[i]? = some a → R a (f a)) → List.Forall₂ R l (l.modify i f)
  | [], _, _ => by simp
  | a :: l, 0, h => by
    rw [List.modify_zero_cons]
    exact .cons (h a rfl) (List.forall₂_same.mpr fun a _ => hrefl a)
  | a :: l, i + 1, h => by
    rw [List.modify_succ_cons]
    exact .cons (hrefl a) (forall₂_modify hrefl l i h)

theorem leaves_refl (t : RetainedShell) : Leaves t t := fun h => ⟨h, rfl⟩

theorem countP_modify {α : Type} {p : α → Bool} {f : α → α} : ∀ {l : List α} {i : Nat} {a : α}, l[i]? = some a → p a = true →
    p (f a) = false → (l.modify i f).countP p + 1 = l.countP p
  | [], _, _, h, _, _ => by cases h
  | a :: l, 0, _, h, hp, hf => by
    cases h
    rw [List.modify_zero_cons, List.countP_cons_of_neg (by simp [hf]), List.countP_cons_of_pos hp]
  | b :: l, i + 1, _, h, hp, hf => by
    rw [List.getElem?_cons_succ] at h
    rw [List.modify_succ_cons, List.countP_cons, List.countP_cons, ← countP_modify h hp hf]
    omega

theorem sum_modify {α : Type} {f : α → α} (g : α → Nat) : ∀ {l : List α} {i : Nat} {a : α}, l[i]? = some a →
    ((l.modify i f).map g).sum + g a = (l.map g).sum + g (f a)
  | [], _, _, h => by cases h
  | a :: l, 0, _, h => by
    cases h
    rw [List.modify_zero_cons]
    simp only [List.map_cons, List.sum_cons]
    omega
  | b :: l, i + 1, _, h => by
    rw [List.getElem?_cons_succ] at h
    rw [List.modify_succ_cons]
    simp only [List.map_cons, List.sum_cons]
    have := sum_modify g (f := f) h
    omega

/-! ## Steps that leave the table alone -/

/-- What the table is about, of a terminal. -/
def place (t : RetainedShell) : String × ShellHome × Bool := (t.id, t.home, t.attached)

structure TableUndisturbed (s s' : SSHServer) : Prop where
  places : s'.terminals.map place = s.terminals.map place
  holders : ∀ j, s'.holders j = s.holders j

theorem holders_congr {s s' : SSHServer} (h : s'.connections.map (·.attached) = s.connections.map (·.attached)) (j : Nat) :
    s'.holders j = s.holders j := by
  unfold SSHServer.holders
  have hmap := congrArg (List.map (List.count j)) h
  rw [List.map_map, List.map_map] at hmap
  exact congrArg List.sum hmap

theorem place_getElem? {ts ts' : List RetainedShell} (h : ts'.map place = ts.map place) (j : Nat) :
    ts'[j]?.map place = ts[j]?.map place := by
  rw [← List.getElem?_map, ← List.getElem?_map, h]

theorem TableUndisturbed.terminal {s s' : SSHServer} (h : TableUndisturbed s s') {j : Nat} {t : RetainedShell} (ht : s.terminals[j]? = some t) :
    ∃ t', s'.terminals[j]? = some t' ∧ place t' = place t := by
  have hplace := place_getElem? h.places j
  rw [ht, Option.map_some, Option.map_eq_some_iff] at hplace
  exact hplace

theorem tableIDs_places (ts : List RetainedShell) :
    SSHServer.tableIDs ts = ((ts.map place).filter fun p => p.2.1 = .retained).map (·.1) := by
  rw [List.filter_map, List.map_map]
  rfl

theorem TableInv.undisturbed {s s' : SSHServer} (hi : TableInv s) (h : TableUndisturbed s s') : TableInv s' := by
  have hids : SSHServer.tableIDs s'.terminals = SSHServer.tableIDs s.terminals := by
    rw [tableIDs_places, tableIDs_places, h.places]
  refine ⟨fun j => ?_, hids ▸ hi.small, hids ▸ hi.distinct⟩
  have hany : ∀ o : Option RetainedShell, o.any (·.attached) = (o.map place).any fun p => p.2.2 := by
    intro o
    cases o <;> rfl
  rw [h.holders, hi.held, hany, hany, place_getElem? h.places]

theorem TableStep.undisturbed {s s' : SSHServer} {e : TableEvent} (h : TableUndisturbed s s') (hstart : ¬Starts e)
    (hdetach : ∀ i j, e ≠ .call (.detach i j)) : TableStep s e s' where
  kept j t ht hhome := by
    obtain ⟨t', ht', hplace⟩ := h.terminal ht
    refine ⟨t', ht', .inl ?_⟩
    rw [← hhome]
    exact congrArg (·.2.1) hplace
  detach i j he := absurd he (hdetach i j)
  failed hs := absurd hs hstart

theorem places_modify {ts : List RetainedShell} {j : Nat} {f : RetainedShell → RetainedShell} (hf : ∀ t, place (f t) = place t) :
    (ts.modify j f).map place = ts.map place := by
  rw [← List.forall₂_eq_eq_eq, List.forall₂_map_left_iff, List.forall₂_map_right_iff]
  exact (forall₂_modify (R := fun t t' => place t' = place t) (fun _ => rfl) ts j fun t _ => hf t).flip

theorem attached_modify {cs : List SSHConnection} {i : Nat} {f : SSHConnection → SSHConnection} (hf : ∀ c, (f c).attached = c.attached) :
    (cs.modify i f).map (·.attached) = cs.map (·.attached) := by
  rw [← List.forall₂_eq_eq_eq, List.forall₂_map_left_iff, List.forall₂_map_right_iff]
  exact (forall₂_modify (R := fun c c' => c'.attached = c.attached) (fun _ => rfl) cs i fun c _ => hf c).flip

theorem TableUndisturbed.same {s s' : SSHServer} (ht : s'.terminals = s.terminals) (hc : s'.connections = s.connections) : TableUndisturbed s s' :=
  ⟨by rw [ht], fun j => by rw [SSHServer.holders, SSHServer.holders, hc]⟩

theorem TableUndisturbed.connection (s : SSHServer) (i : Nat) {f : SSHConnection → SSHConnection} (hf : ∀ c, (f c).attached = c.attached) :
    TableUndisturbed s (s.modifyConnection i f) :=
  ⟨rfl, holders_congr (attached_modify hf)⟩

theorem TableUndisturbed.shell (s : SSHServer) (j : Nat) {f : RetainedShell → RetainedShell} (hf : ∀ t, place (f t) = place t) :
    TableUndisturbed s (s.modifyTerminal j f) :=
  ⟨places_modify hf, fun _ => rfl⟩

section Act

variable {s s' : SSHServer} {r : Option ApplyReply}

/-- The steps of a call of `Apply` or `Close`. -/
theorem update_undisturbed {bcryptCost : String → Option Int} {e : SSHEvent}
    (he : (∃ next, e = .apply next) ∨ e = .close ∨ e = .timeout ∨ e = .finish ∨ e = .enable ∨ e = .expire)
    (h : s.act bcryptCost e = some (s', r)) : TableUndisturbed s s' := by
  rcases he with ⟨next, rfl⟩ | rfl | rfl | rfl | rfl | rfl
  all_goals
    simp only [SSHServer.act, SSHServer.Apply, SSHServer.Close, SSHServer.timeout, SSHServer.finish, SSHServer.enable,
      SSHServer.replies, SSHServer.quiet] at h
    repeat' split at h
    all_goals
      cases h
      try exact .same rfl rfl

theorem attached_cancel (items : List Nat) : ∀ cs : List SSHConnection,
    (items.foldl (fun cs i => cs.modify i fun c => { c with cancelled := true }) cs).map (·.attached) = cs.map (·.attached) := by
  induction items with
  | nil => exact fun _ => rfl
  | cons i items ih =>
    intro cs
    rw [List.foldl_cons, ih]
    exact attached_modify fun _ => rfl

/-- The steps of connections, and of terminals, that are not about the table. -/
theorem rest_undisturbed {bcryptCost : String → Option Int} {e : SSHEvent}
    (he : e = .cancelItems ∨ (∃ access live, e = .serve access live) ∨ (∃ i, e = .unlist i) ∨ (∃ i, e = .wgDone i) ∨
      (∃ i err, e = .commandFailed i err) ∨ (∃ i j, e = .killed i j) ∨ (∃ j time, e = .outputEnds j time) ∨
      (∃ j, e = .exits j) ∨ (∃ j, e = .beginClose j) ∨ ∃ j err, e = .endClose j err)
    (h : s.act bcryptCost e = some (s', r)) : TableUndisturbed s s' := by
  rcases he with rfl | ⟨access, live, rfl⟩ | ⟨i, rfl⟩ | ⟨i, rfl⟩ | ⟨i, err, rfl⟩ | ⟨i, j, rfl⟩ | ⟨j, time, rfl⟩ | ⟨j, rfl⟩ |
    ⟨j, rfl⟩ | ⟨j, err, rfl⟩
  · simp only [SSHServer.act, SSHServer.cancelItems, SSHServer.quiet] at h
    split at h
    · cases h
      exact ⟨rfl, holders_congr (attached_cancel _ _)⟩
    · cases h
  · simp only [SSHServer.act, SSHServer.ServeConn, SSHServer.quiet] at h
    split at h
    · cases h
      exact .same rfl rfl
    · cases h
      exact ⟨rfl, fun j => by simp [SSHServer.holders]⟩
  · simp only [SSHServer.act, SSHServer.unlist, SSHServer.quiet] at h
    split at h
    · split at h
      · cases h
        exact .connection s i fun _ => rfl
      · cases h
    · cases h
  · simp only [SSHServer.act, SSHServer.wgDone, SSHServer.quiet] at h
    split at h
    · split at h
      · cases h
        exact .connection s i fun _ => rfl
      · cases h
    · cases h
  · simp only [SSHServer.act, SSHServer.recordCommandCleanup, SSHServer.quiet] at h
    split at h
    · cases h
      exact .same rfl rfl
    · cases h
  · simp only [SSHServer.act, SSHServer.killed, SSHServer.quiet] at h
    split at h
    · cases h
    · split at h
      · cases h
        exact .connection s i fun _ => rfl
      · cases h
  · cases h
    exact .shell s j fun _ => rfl
  · cases h
    exact .shell s j fun _ => rfl
  · simp only [SSHServer.act, SSHServer.beginClose, SSHServer.quiet] at h
    split at h
    · split at h
      · cases h
        exact .shell s j fun _ => rfl
      · cases h
    · cases h
  · simp only [SSHServer.act, SSHServer.endClose, SSHServer.quiet] at h
    split at h
    · split at h
      · cases h
        exact ⟨places_modify fun _ => rfl, fun _ => rfl⟩
      · cases h
    · cases h

/-! ## Steps that take terminals out -/

theorem TableInv.leaves (hi : TableInv s) (h : List.Forall₂ Leaves s.terminals s'.terminals)
    (hheld : ∀ j, s'.holders j = if s'.terminals[j]?.any (·.attached) then 1 else 0) : TableInv s' :=
  ⟨hheld, (tableIDs_sublist h).length_le.trans hi.small, hi.distinct.sublist (tableIDs_sublist h)⟩

theorem cleanup_cases {k k' : Cleanup} (h : s.cleanup k = some (s', k')) :
    s' = s ∨ k = .starting ∧ s' = (s.closeRetained).1 := by
  unfold SSHServer.cleanup at h
  split at h
  · cases h
    exact .inr ⟨rfl, rfl⟩
  · cases h
    exact .inl rfl
  · split at h
    · cases h
      exact .inl rfl
    · cases h
  · split at h
    · cases h
      exact .inl rfl
    · cases h
  · cases h

theorem closeRetained_table (hi : TableInv s) {e : TableEvent} (hstart : ¬Starts e) (hdetach : ∀ i j, e ≠ .call (.detach i j))
    (hcloses : ∀ t, Closes s t e) (ht : s'.terminals = (s.closeRetained).1.terminals) (hc : s'.connections = s.connections) :
    TableInv s' ∧ TableStep s e s' := by
  have hterminals : s'.terminals = s.terminals.map fun t => if t.home = .retained then { t with home := .taken } else t := ht
  have hany : ∀ o : Option RetainedShell,
      (o.map fun t => if t.home = .retained then { t with home := .taken } else t).any (·.attached) = o.any (·.attached) := by
    intro o
    cases o with
    | none => rfl
    | some t =>
      simp only [Option.map_some, Option.any_some]
      split <;> rfl
  constructor
  · refine hi.leaves ?_ fun j => ?_
    · rw [hterminals, List.forall₂_map_right_iff, List.forall₂_same]
      intro t _ hhome
      split at hhome
      · cases hhome
      · rename_i hnot
        exact absurd hhome hnot
    · rw [hterminals, List.getElem?_map, hany, SSHServer.holders, hc]
      exact hi.held j
  · refine ⟨fun j t htj _ => ?_, fun i j he => absurd he (hdetach i j), fun hs => absurd hs hstart⟩
    refine ⟨if t.home = .retained then { t with home := .taken } else t, ?_, .inr (.inl (hcloses t))⟩
    rw [hterminals, List.getElem?_map, htj]
    rfl

theorem ownCleanup_table {bcryptCost : String → Option Int} (hi : TableInv s) (h : s.act bcryptCost .ownCleanup = some (s', r)) :
    TableInv s' ∧ TableStep s (.call .ownCleanup) s' := by
  simp only [SSHServer.act, SSHServer.ownCleanup, SSHServer.quiet] at h
  split at h
  · rename_i call own hupdate
    split at h
    · rename_i s₁ own' hcleanup
      cases h
      rcases cleanup_cases hcleanup with rfl | ⟨rfl, rfl⟩
      · exact ⟨hi.undisturbed (.same rfl rfl), .undisturbed (.same rfl rfl) id fun _ _ he => by cases he⟩
      · exact closeRetained_table hi id (fun _ _ he => by cases he) (fun _ => ⟨call, hupdate⟩) rfl rfl
    · cases h
  · cases h

theorem oldCleanup_table {bcryptCost : String → Option Int} (hi : TableInv s) {i : Nat}
    (h : s.act bcryptCost (.oldCleanup i) = some (s', r)) : TableInv s' ∧ TableStep s (.call (.oldCleanup i)) s' := by
  simp only [SSHServer.act, SSHServer.oldCleanup, SSHServer.quiet] at h
  split at h
  · rename_i k hk
    split at h
    · rename_i s₁ k' hcleanup
      cases h
      rcases cleanup_cases hcleanup with rfl | ⟨rfl, rfl⟩
      · exact ⟨hi.undisturbed (.same rfl rfl), .undisturbed (.same rfl rfl) id fun _ _ he => by cases he⟩
      · exact closeRetained_table hi id (fun _ _ he => by cases he) (fun _ => hk) rfl rfl
    · cases h
  · cases h

theorem any_attached_modify {ts : List RetainedShell} {f : RetainedShell → RetainedShell} (hf : ∀ t, (f t).attached = t.attached)
    (j k : Nat) : (ts.modify j f)[k]?.any (·.attached) = ts[k]?.any (·.attached) := by
  by_cases hk : k = j
  · subst hk
    rw [List.getElem?_modify_eq]
    cases ts[k]? with
    | none => rfl
    | some t => exact hf t
  · rw [List.getElem?_modify_ne _ _ (Ne.symm hk)]

/-- A terminal leaves the table. -/
theorem TableInv.gone (hi : TableInv s) (j : Nat) {home : ShellHome} (hne : home ≠ .retained) :
    TableInv (s.modifyTerminal j fun t => { t with home := home }) := by
  refine hi.leaves (forall₂_modify leaves_refl _ j fun t _ hhome => absurd hhome hne) fun k => ?_
  have hany : ((s.modifyTerminal j fun t => { t with home := home }).terminals[k]?).any (·.attached) = s.terminals[k]?.any (·.attached) :=
    any_attached_modify (f := fun t => { t with home := home }) (fun _ => rfl) j k
  rw [hany]
  exact hi.held k

theorem kill_table {bcryptCost : String → Option Int} (hi : TableInv s) {i : Nat} {name : String}
    (h : s.act bcryptCost (.kill i name) = some (s', r)) : TableInv s' ∧ TableStep s (.call (.kill i name)) s' := by
  have hsame : TableInv s ∧ TableStep s (.call (.kill i name)) s :=
    ⟨hi, .undisturbed (.same rfl rfl) id fun _ _ he => by cases he⟩
  simp only [SSHServer.act, SSHServer.killTerminal, SSHServer.quiet] at h
  split at h
  · cases h
  · split at h
    · cases h
      exact hsame
    · split at h
      · cases h
        exact hsame
      · rename_i j hj
        obtain ⟨t, ht, hhome, hid⟩ := findRetained_some hj
        cases h
        constructor
        · exact (hi.gone j (by decide : ShellHome.taken ≠ .retained)).undisturbed (.connection _ i fun _ => rfl)
        · refine ⟨fun k t' ht' hhome' => ?_, fun _ _ he => (by cases he), fun hs => hs.elim⟩
          by_cases hk : k = j
          · subst hk
            rw [ht] at ht'
            cases ht'
            exact ⟨_, by rw [SSHServer.modifyConnection, SSHServer.modifyTerminal, List.getElem?_modify_eq, ht]; rfl, .inr (.inl hid)⟩
          · exact ⟨t', by rw [SSHServer.modifyConnection, SSHServer.modifyTerminal, List.getElem?_modify_ne _ _ (Ne.symm hk), ht'], .inl hhome'⟩

/-! ## Holders -/

theorem holders_modify {i : Nat} {c : SSHConnection} (hc : s.connections[i]? = some c) (f : SSHConnection → SSHConnection) (k : Nat) :
    (s.modifyConnection i f).holders k + c.attached.count k = s.holders k + (f c).attached.count k :=
  sum_modify (fun c => c.attached.count k) hc

theorem attach_table {bcryptCost : String → Option Int} (hi : TableInv s) {i : Nat} {name : String}
    (h : s.act bcryptCost (.attach i name) = some (s', r)) : TableInv s' ∧ TableStep s (.call (.attach i name)) s' := by
  have hsame : TableInv s ∧ TableStep s (.call (.attach i name)) s :=
    ⟨hi, .undisturbed (.same rfl rfl) id fun _ _ he => by cases he⟩
  simp only [SSHServer.act, SSHServer.attachTerminal, SSHServer.quiet] at h
  split at h
  · cases h
  · rename_i c hc
    split at h
    · cases h
      exact hsame
    · split at h
      · cases h
        exact hsame
      · rename_i j hj
        obtain ⟨t, ht, hhome, -⟩ := findRetained_some hj
        split at h
        · rename_i hfree
          cases h
          rw [ht, Option.any_some, Bool.and_eq_true, Bool.not_eq_true'] at hfree
          constructor
          · refine hi.leaves (forall₂_modify leaves_refl _ j fun t _ h => ⟨h, rfl⟩) fun k => ?_
            have hcount := holders_modify (s := s) (session_some hc).1 (fun c => { c with attached := j :: c.attached }) k
            have hheld := hi.held k
            have hterminal : ((s.modifyTerminal j fun t => { t with attached := true }).terminals[k]?).any (·.attached) =
                if k = j then true else s.terminals[k]?.any (·.attached) := by
              by_cases hk : k = j
              · subst hk
                simp [SSHServer.modifyTerminal, ht]
              · rw [if_neg hk]
                exact congrArg _ (List.getElem?_modify_ne _ _ (Ne.symm hk))
            change ((s.modifyConnection i fun c => { c with attached := j :: c.attached }).holders k) =
              if ((s.modifyTerminal j fun t => { t with attached := true }).terminals[k]?).any (·.attached) then 1 else 0
            rw [hterminal]
            rw [List.count_cons] at hcount
            by_cases hk : k = j
            · subst hk
              rw [ht, Option.any_some, hfree.2] at hheld
              simp at hcount hheld ⊢
              omega
            · rw [if_neg hk, ← hheld]
              simp [Ne.symm hk] at hcount
              omega
          · refine ⟨fun k t' ht' hhome' => ?_, fun _ _ he => (by cases he), fun hs => hs.elim⟩
            by_cases hk : k = j
            · subst hk
              exact ⟨{ t' with attached := true }, by simp [SSHServer.modifyConnection, SSHServer.modifyTerminal, ht'], .inl hhome'⟩
            · exact ⟨t', by rw [← ht']; exact List.getElem?_modify_ne _ _ (Ne.symm hk), .inl hhome'⟩
        · cases h
          exact hsame

/-- What `detachTerminal` makes of a terminal. -/
def detached (t : RetainedShell) : RetainedShell :=
  { t with attached := false, home := if t.home = .retained ∧ t.ended then .dropped else t.home }

theorem detach_table {bcryptCost : String → Option Int} (hi : TableInv s) {i j : Nat}
    (h : s.act bcryptCost (.detach i j) = some (s', r)) : TableInv s' ∧ TableStep s (.call (.detach i j)) s' := by
  simp only [SSHServer.act, SSHServer.detachTerminal, SSHServer.quiet] at h
  split at h
  · cases h
  · rename_i c hc
    split at h
    · rename_i hj
      cases h
      constructor
      · refine hi.leaves (forall₂_modify leaves_refl _ j fun t _ h => ?_) fun k => ?_
        · simp only at h
          split at h
          · cases h
          · exact ⟨h, rfl⟩
        · have hcount := holders_modify (s := s) (session_some hc).1 (fun c => { c with attached := c.attached.erase j }) k
          have hheld := hi.held k
          change ((s.modifyConnection i fun c => { c with attached := c.attached.erase j }).holders k) =
            if ((s.terminals.modify j detached)[k]?).any (·.attached) then 1 else 0
          by_cases hk : k = j
          · subst hk
            have hpos := List.count_pos_iff.mpr hj
            rw [List.count_erase_self] at hcount
            have hle : s.holders k ≤ 1 := by
              rw [hheld]
              split <;> omega
            have hany : ∀ o : Option RetainedShell, (detached <$> o).any (·.attached) = false := by
              intro o
              cases o <;> rfl
            rw [List.getElem?_modify_eq, hany, if_neg (by decide)]
            omega
          · rw [List.getElem?_modify_ne _ _ (Ne.symm hk), ← hheld]
            rw [List.count_erase_of_ne hk] at hcount
            omega
      · refine ⟨fun k t' ht' hhome' => ?_, ?_, fun hs => hs.elim⟩
        · by_cases hk : k = j
          · subst hk
            by_cases hended : t'.ended = true
            · exact ⟨{ t' with attached := false, home := .dropped },
                by simp [SSHServer.modifyConnection, SSHServer.modifyTerminal, ht', hhome', hended], .inr (.inr ⟨hended, rfl, fun _ => ⟨i, rfl⟩⟩)⟩
            · exact ⟨{ t' with attached := false },
                by simp [SSHServer.modifyConnection, SSHServer.modifyTerminal, ht', hended], .inl hhome'⟩
          · exact ⟨t', by rw [← ht']; exact List.getElem?_modify_ne _ _ (Ne.symm hk), .inl hhome'⟩
        · rintro _ _ he k hk
          cases he
          exact List.getElem?_modify_ne _ _ (Ne.symm hk)
    · cases h

/-! ## New terminals -/

theorem newTerminal_scanned {i : Nat} {name random : String} {opened : Bool} {oldest : Nat}
    (h : s.newTerminal i name random opened oldest = some (s', r)) :
    ∃ found, s.newTerminalScanned i name random opened found = some (s', r) ∧ ∀ j ∈ found, j = oldest ∧ s.isOldest oldest = true := by
  unfold SSHServer.newTerminal at h
  unfold SSHServer.newTerminalScanned
  cases hc : s.session i with
  | none =>
    rw [hc] at h
    cases h
  | some c =>
    simp only [hc] at h ⊢
    generalize (if name = "" then random else name) = name at h ⊢
    split at h
    · rename_i hrefused
      exact ⟨none, by rw [if_pos hrefused]; exact h, by simp⟩
    · rename_i hrefused
      simp only [if_neg hrefused]
      split at h
      · rename_i hroom
        exact ⟨none, by rw [if_pos hroom]; exact h, by simp⟩
      · rename_i hroom
        simp only [if_neg hroom]
        split at h
        · exact ⟨none, h, by simp⟩
        · split at h
          · rename_i hold
            refine ⟨some oldest, ?_, fun j hj => ⟨(Option.some.inj hj).symm, hold⟩⟩
            have heligible : s.terminals[oldest]?.any SSHServer.eligible = true := by
              unfold SSHServer.isOldest at hold
              split at hold
              · rename_i t ht
                rw [Bool.and_eq_true] at hold
                rw [ht, Option.any_some]
                exact hold.1
              · cases hold
            simp only
            rw [if_pos heligible]
            exact h
          · cases h

/-- The call returns an error before it takes a terminal out, or it opens one in a table that has room. -/
theorem newTerminalScanned_cases {i : Nat} {name random : String} {opened : Bool} {found : Option Nat}
    (h : s.newTerminalScanned i name random opened found = some (s', r)) :
    s' = s ∨ ∃ c, s.session i = some c ∧ sessionName (if name = "" then random else name) = true ∧ s.currentLocked c.access = true ∧
      s.findRetained (if name = "" then random else name) = none ∧ ∃ s₁,
        (s₁ = s ∧ s.terminals.countP (·.home = .retained) < 32 ∨
          ∃ oldest ∈ found, 32 ≤ s.terminals.countP (·.home = .retained) ∧ s.terminals[oldest]?.any SSHServer.eligible = true ∧
            s₁ = s.modifyTerminal oldest fun t => { t with home := .dropped }) ∧
        s₁.openTerminal c.access (if name = "" then random else name) opened = some (s', r) := by
  unfold SSHServer.newTerminalScanned at h
  cases hc : s.session i with
  | none =>
    rw [hc] at h
    cases h
  | some c =>
    simp only [hc] at h
    generalize (if name = "" then random else name) = name at h ⊢
    split at h
    · cases h
      exact .inl rfl
    · rename_i hrefused
      simp only [Bool.or_eq_true, Bool.not_eq_true', not_or, Bool.not_eq_false, Option.isSome_iff_ne_none, ne_eq, not_not] at hrefused
      obtain ⟨⟨hname, hcurrent⟩, hfree⟩ := hrefused
      split at h
      · rename_i hroom
        exact .inr ⟨c, rfl, hname, hcurrent, hfree, s, .inl ⟨rfl, hroom⟩, h⟩
      · rename_i hroom
        split at h
        · cases h
          exact .inl rfl
        · rename_i oldest
          split at h
          · rename_i heligible
            exact .inr ⟨c, rfl, hname, hcurrent, hfree, _, .inr ⟨oldest, rfl, Nat.le_of_not_lt hroom, heligible, rfl⟩, h⟩
          · cases h

theorem openTerminal_cases {access : SSHAccess} {name : String} {opened : Bool} (h : s.openTerminal access name opened = some (s', r)) :
    s.startsShell opened = false ∧ s' = s ∨
      s.startsShell opened = true ∧ s'.connections = s.connections ∧
        s'.terminals = s.terminals ++ [{ id := name, revision := access.Revision, workCtx := s.workCtx }] := by
  unfold SSHServer.openTerminal SSHServer.quiet at h
  unfold SSHServer.startsShell
  split at h
  · rename_i hfails
    cases h
    refine .inl ⟨?_, rfl⟩
    simp only [Bool.or_eq_true, Bool.not_eq_true'] at hfails
    rcases hfails with (((hfails | hfails) | hfails) | hfails) | hfails <;> simp [hfails]
  · rename_i hstarts
    cases h
    refine .inr ⟨?_, rfl, rfl⟩
    simpa [and_assoc] using hstarts

theorem not_mem_tableIDs {name : String} (h : s.findRetained name = none) : name ∉ SSHServer.tableIDs s.terminals := by
  unfold SSHServer.findRetained at h
  rw [List.findIdx?_eq_none_iff] at h
  intro hmem
  obtain ⟨t, ht, hid⟩ := List.mem_map.mp hmem
  obtain ⟨ht, hhome⟩ := List.mem_filter.mp ht
  have hnone := h t ht
  rw [decide_eq_true_eq] at hhome
  simp [hhome, hid] at hnone

/-- A terminal is added to a table that has room and does not know its name. -/
theorem TableInv.added (hi : TableInv s) {t : RetainedShell} (ht : t.attached = false) (hid : t.id ∉ SSHServer.tableIDs s.terminals)
    (hroom : (SSHServer.tableIDs s.terminals).length < 32) (hc : s'.connections = s.connections)
    (hts : s'.terminals = s.terminals ++ [t]) : TableInv s' := by
  have hids : (SSHServer.tableIDs s'.terminals).Sublist (SSHServer.tableIDs s.terminals ++ [t.id]) := by
    rw [hts, SSHServer.tableIDs, SSHServer.tableIDs, List.filter_append, List.map_append]
    refine List.Sublist.append (List.Sublist.refl _) ?_
    cases hhome : t.home <;> simp [hhome]
  refine ⟨fun j => ?_, ?_, ?_⟩
  · have hheld := hi.held j
    have hany : s'.terminals[j]?.any (·.attached) = s.terminals[j]?.any (·.attached) := by
      rw [hts]
      rcases Nat.lt_trichotomy j s.terminals.length with hlt | rfl | hgt
      · rw [List.getElem?_append_left hlt]
      · simp [ht]
      · rw [List.getElem?_eq_none (by simp; omega), List.getElem?_eq_none (by omega)]
    rw [hany, ← hheld, SSHServer.holders, SSHServer.holders, hc]
  · have hlen := hids.length_le
    rw [List.length_append, List.length_singleton] at hlen
    omega
  · refine List.Nodup.sublist hids (List.nodup_append.mpr ⟨hi.distinct, by simp, fun a ha b hb he => ?_⟩)
    rw [List.mem_singleton] at hb
    exact hid (hb ▸ he ▸ ha)

/-- A call of `newTerminal`. It takes a terminal out for nothing only if the shell does not start. -/
theorem scanned_table (hi : TableInv s) {e : TableEvent} (hdetach : ∀ i j, e ≠ .call (.detach i j)) {i : Nat} {name random : String}
    {opened : Bool} {found : Option Nat} (h : s.newTerminalScanned i name random opened found = some (s', r))
    (hbad : ∀ oldest ∈ found, ∀ c, s.session i = some c → sessionName (if name = "" then random else name) = true →
      s.currentLocked c.access = true → s.findRetained (if name = "" then random else name) = none →
      32 ≤ s.terminals.countP (·.home = .retained) → s.terminals[oldest]?.any SSHServer.eligible = true →
      s.startsShell opened = true) : TableInv s' ∧ TableStep s e s' := by
  rcases newTerminalScanned_cases h with rfl | ⟨c, hc, hname, hcurrent, hfree, s₁, hs₁, hopen⟩
  · exact ⟨hi, fun j t ht hhome => ⟨t, ht, .inl hhome⟩, fun i j he => absurd he (hdetach i j), fun _ _ => rfl⟩
  · rcases hs₁ with ⟨rfl, hroom⟩ | ⟨oldest, hfound, hfull, heligible, rfl⟩
    · rw [← length_tableIDs] at hroom
      rcases openTerminal_cases hopen with ⟨-, rfl⟩ | ⟨-, hconnections, hterminals⟩
      · exact ⟨hi, fun j t ht hhome => ⟨t, ht, .inl hhome⟩, fun i j he => absurd he (hdetach i j), fun _ _ => rfl⟩
      · refine ⟨hi.added rfl (not_mem_tableIDs hfree) hroom hconnections hterminals, fun j t ht hhome => ⟨t, ?_, .inl hhome⟩,
          fun i j he => absurd he (hdetach i j), fun _ hlen => ?_⟩
        · rw [hterminals, List.getElem?_append_left (List.getElem?_eq_some_iff.mp ht).1, ht]
        · rw [hterminals, List.length_append, List.length_singleton] at hlen
          omega
    · have hstarts := hbad oldest hfound c hc hname hcurrent hfree hfull heligible
      have hgone := hi.gone oldest (by decide : ShellHome.dropped ≠ .retained)
      obtain ⟨t₀, ht₀, helig⟩ := (Option.any_eq_true _ _).mp heligible
      simp only [SSHServer.eligible, Bool.and_eq_true, decide_eq_true_eq, Bool.not_eq_true'] at helig
      obtain ⟨⟨hhome₀, hended₀⟩, hfree₀⟩ := helig
      have hroom : (SSHServer.tableIDs (s.modifyTerminal oldest fun t => { t with home := .dropped }).terminals).length < 32 := by
        have hcount := countP_modify (p := fun t : RetainedShell => decide (t.home = .retained)) (f := fun t => { t with home := .dropped })
          ht₀ (by simp [hhome₀]) (by simp)
        have hsmall := hi.small
        rw [length_tableIDs] at hsmall ⊢
        simp only [SSHServer.modifyTerminal]
        omega
      have hname' : (if name = "" then random else name) ∉
          SSHServer.tableIDs (s.modifyTerminal oldest fun t => { t with home := .dropped }).terminals := by
        intro hmem
        refine not_mem_tableIDs hfree ((tableIDs_sublist ?_).subset hmem)
        exact forall₂_modify leaves_refl _ oldest fun t _ hhome => by cases hhome
      rcases openTerminal_cases hopen with ⟨hfails, -⟩ | ⟨-, hconnections, hterminals⟩
      · rw [show SSHServer.startsShell (s.modifyTerminal oldest fun t => { t with home := .dropped }) opened = s.startsShell opened
          from rfl, hstarts] at hfails
        cases hfails
      · refine ⟨hgone.added rfl hname' hroom hconnections hterminals, fun j t ht hhome => ?_,
          fun i j he => absurd he (hdetach i j), fun _ hlen => ?_⟩
        · have hlt : j < (s.modifyTerminal oldest fun t => { t with home := .dropped }).terminals.length := by
            simpa [SSHServer.modifyTerminal] using (List.getElem?_eq_some_iff.mp ht).1
          rw [hterminals, List.getElem?_append_left hlt]
          by_cases hj : j = oldest
          · subst hj
            rw [ht] at ht₀
            cases ht₀
            refine ⟨{ t₀ with home := .dropped }, by simp [SSHServer.modifyTerminal, ht], .inr (.inr ⟨hended₀, hfree₀, fun hattached => ?_⟩)⟩
            rw [hfree₀] at hattached
            cases hattached
          · exact ⟨t, by rw [← ht]; exact List.getElem?_modify_ne _ _ (Ne.symm hj), .inl hhome⟩
        · rw [hterminals, List.length_append, List.length_singleton] at hlen
          simp [SSHServer.modifyTerminal] at hlen

theorem actTable_table {bcryptCost : String → Option Int} (hi : TableInv s) {e : TableEvent} (hbad : ¬EvictsForNothing s e)
    (h : s.actTable bcryptCost e = some (s', r)) : TableInv s' ∧ TableStep s e s' := by
  have hquiet (hu : TableUndisturbed s s') (hstart : ¬Starts e) (hdetach : ∀ i j, e ≠ .call (.detach i j)) : TableInv s' ∧ TableStep s e s' :=
    ⟨hi.undisturbed hu, .undisturbed hu hstart hdetach⟩
  cases e with
  | scanned i name random opened found =>
    refine scanned_table hi (fun _ _ he => by cases he) h fun oldest hfound c hc hname hcurrent hfree hfull heligible => ?_
    cases hfound
    by_contra hfails
    exact hbad ⟨i, name, random, opened, oldest, c, .inr ⟨rfl, heligible⟩, hc, hname, hcurrent, hfree, hfull, by simpa using hfails⟩
  | call e =>
    change s.act bcryptCost e = some (s', r) at h
    cases e with
    | newTerminal i name random opened oldest =>
      obtain ⟨found, hscanned, hold⟩ := newTerminal_scanned h
      refine scanned_table hi (fun _ _ he => by cases he) hscanned fun j hfound c hc hname hcurrent hfree hfull _ => ?_
      obtain ⟨rfl, hold⟩ := hold j hfound
      by_contra hfails
      exact hbad ⟨i, name, random, opened, j, c, .inl ⟨rfl, hold⟩, hc, hname, hcurrent, hfree, hfull, by simpa using hfails⟩
    | attach i name => exact attach_table hi h
    | detach i j => exact detach_table hi h
    | kill i name => exact kill_table hi h
    | ownCleanup => exact ownCleanup_table hi h
    | oldCleanup i => exact oldCleanup_table hi h
    | apply next => exact hquiet (update_undisturbed (.inl ⟨next, rfl⟩) h) id fun _ _ he => by cases he
    | close => exact hquiet (update_undisturbed (by simp) h) id fun _ _ he => by cases he
    | timeout => exact hquiet (update_undisturbed (by simp) h) id fun _ _ he => by cases he
    | finish => exact hquiet (update_undisturbed (by simp) h) id fun _ _ he => by cases he
    | enable => exact hquiet (update_undisturbed (by simp) h) id fun _ _ he => by cases he
    | expire => exact hquiet (update_undisturbed (by simp) h) id fun _ _ he => by cases he
    | cancelItems => exact hquiet (rest_undisturbed (by simp) h) id fun _ _ he => by cases he
    | serve access live => exact hquiet (rest_undisturbed (by simp) h) id fun _ _ he => by cases he
    | unlist i => exact hquiet (rest_undisturbed (by simp) h) id fun _ _ he => by cases he
    | wgDone i => exact hquiet (rest_undisturbed (by simp) h) id fun _ _ he => by cases he
    | commandFailed i err => exact hquiet (rest_undisturbed (by simp) h) id fun _ _ he => by cases he
    | killed i j => exact hquiet (rest_undisturbed (by simp) h) id fun _ _ he => by cases he
    | outputEnds j time => exact hquiet (rest_undisturbed (by simp) h) id fun _ _ he => by cases he
    | exits j => exact hquiet (rest_undisturbed (by simp) h) id fun _ _ he => by cases he
    | beginClose j => exact hquiet (rest_undisturbed (by simp) h) id fun _ _ he => by cases he
    | endClose j err => exact hquiet (rest_undisturbed (by simp) h) id fun _ _ he => by cases he

/-- The finished terminal is lost, and the call returns an error. -/
theorem evicts_not_sound {bcryptCost : String → Option Int} {e : TableEvent} (hbad : EvictsForNothing s e) :
    ∃ s', s.actTable bcryptCost e = some (s', none) ∧ ¬TableStep s e s' := by
  obtain ⟨i, name, random, opened, oldest, c, he, hc, hname, hcurrent, hfree, hfull, hfails⟩ := hbad
  have helig : s.terminals[oldest]?.any SSHServer.eligible = true := by
    rcases he with ⟨-, hold⟩ | ⟨-, helig⟩
    · unfold SSHServer.isOldest at hold
      split at hold
      · rename_i t ht
        rw [Bool.and_eq_true] at hold
        rw [ht]
        exact hold.1
      · cases hold
    · exact helig
  have hopen : (s.modifyTerminal oldest fun t => { t with home := .dropped }).openTerminal c.access (if name = "" then random else name) opened =
      some (s.modifyTerminal oldest fun t => { t with home := .dropped }, none) := by
    unfold SSHServer.openTerminal
    rw [if_pos]
    · rfl
    · change (!opened || s.shellsClosed || s.shellsFailure.isSome || !s.workLive || s.expired) = true
      unfold SSHServer.startsShell at hfails
      revert hfails
      cases opened <;> cases s.shellsClosed <;> cases s.shellsFailure.isSome <;> cases s.workLive <;> cases s.expired <;> decide
  have hlost : ¬TableStep s e (s.modifyTerminal oldest fun t => { t with home := .dropped }) := by
    intro hstep
    obtain ⟨t, ht, heligible⟩ := (Option.any_eq_true _ _).mp helig
    have hstarts : Starts e := by
      rcases he with ⟨rfl, -⟩ | ⟨rfl, -⟩ <;> trivial
    have hsame := hstep.failed hstarts (by simp [SSHServer.modifyTerminal])
    have hget : (s.modifyTerminal oldest fun t => { t with home := .dropped }).terminals[oldest]? = some { t with home := .dropped } := by
      simp [SSHServer.modifyTerminal, ht]
    rw [hsame, ht, Option.some.injEq] at hget
    rw [SSHServer.eligible, hget] at heligible
    simp at heligible
  refine ⟨_, ?_, hlost⟩
  have hrefused : ¬(!sessionName (if name = "" then random else name) || !s.currentLocked c.access ||
      (s.findRetained (if name = "" then random else name)).isSome) = true := by
    simp [hname, hcurrent, hfree]
  rcases he with ⟨rfl, hold⟩ | ⟨rfl, -⟩
  · change s.newTerminal i name random opened oldest = _
    have hsome : ¬(s.terminals.all (!SSHServer.eligible ·)) = true := by
      obtain ⟨t, ht, heligible⟩ := (Option.any_eq_true _ _).mp helig
      intro hall
      have hnot := List.all_eq_true.mp hall t (List.mem_of_getElem? ht)
      rw [heligible] at hnot
      cases hnot
    unfold SSHServer.newTerminal
    simp only [hc]
    rw [if_neg hrefused, if_neg (Nat.not_lt.mpr hfull), if_neg hsome, if_pos hold, hopen]
  · change s.newTerminalScanned i name random opened (some oldest) = _
    unfold SSHServer.newTerminalScanned
    simp only [hc]
    rw [if_neg hrefused, if_neg (Nat.not_lt.mpr hfull), if_pos helig, hopen]

end Act

theorem TableInv.new (binding : SSHBinding) : TableInv (newServer binding).1 where
  held j := by simp [SSHServer.holders, newServer]
  small := by simp [SSHServer.tableIDs, newServer]
  distinct := by simp [SSHServer.tableIDs, newServer]

/-- Every step of the run is sound, and so is every state it reaches. -/
def TableKept (bcryptCost : String → Option Int) (binding : SSHBinding) (es : List TableEvent) : Prop :=
  (tableMachine bcryptCost).Along
    (fun s e => TableSound s.1 ∧ ∀ s', (tableMachine bcryptCost).step s e = some s' → TableSound s'.1 ∧ TableStep s.1 e s'.1)
    (newServer binding) es

/-- A sound step loses nothing, and the invariant holds after it. -/
theorem step_kept {bcryptCost : String → Option Int} {s : SSHServer × Option ApplyReply} {e : TableEvent} (hi : TableInv s.1) :
    (TableSound s.1 ∧ ∀ s', (tableMachine bcryptCost).step s e = some s' → TableSound s'.1 ∧ TableStep s.1 e s'.1) ↔
      ¬EvictsForNothing s.1 e := by
  constructor
  · rintro ⟨-, hsteps⟩ hbad
    obtain ⟨s', hs', hlost⟩ := evicts_not_sound hbad
    exact hlost (hsteps (s', none) hs').2
  · intro hbad
    refine ⟨hi.sound, fun s' hs' => ?_⟩
    obtain ⟨hi', hstep⟩ := actTable_table (r := s'.2) hi hbad hs'
    exact ⟨hi'.sound, hstep⟩

/-- The table is kept exactly along the runs in which no terminal makes room for a shell that does not start. -/
theorem table_kept (bcryptCost : String → Option Int) (binding : SSHBinding) (es : List TableEvent) :
    TableKept bcryptCost binding es ↔
      (tableMachine bcryptCost).Along (fun s e => ¬EvictsForNothing s.1 e) (newServer binding) es := by
  refine Machine.along_iff _ (I := fun s => TableInv s.1) (R := fun _ _ => True) (fun s e hi _ => step_kept hi) ?_
    (TableInv.new binding) (Machine.along_true _ _ _)
  intro s e s' hi _ hkept hs'
  exact (actTable_table (r := s'.2) hi ((step_kept hi).mp hkept) hs').1

def tableBinding : SSHBinding := { BoxID := "box", AccountID := "account", DeviceID := "device", Epoch := "epoch" }

/-- A connection fills the table, and the first shell's output ends. -/
def fullTable : List TableEvent :=
  [.call (.apply { Revision := 1, Enabled := true, PasswordHash := "$2a$12$R9h/cIPz0gi.URNNX3kh2OPST9/PgBkqquzi.Ss7KIUgO2t0jWMUW" }),
    .call .cancelItems, .call .ownCleanup, .call .ownCleanup, .call .ownCleanup, .call .finish, .call .enable,
    .call (.serve { Binding := tableBinding, Revision := 1 } true)] ++
  (List.range 32).map (fun n => .call (.newTerminal 0 ("work-" ++ n.repr) "" true 0)) ++ [.call (.outputEnds 0 7)]

/-- The platform does not start the shell of the thirty-third terminal. -/
def failingStart : TableEvent := .call (.newTerminal 0 "more" "" false 0)

def tableAfter (es : List TableEvent) : SSHServer × Option ApplyReply :=
  ((tableMachine fun _ => some 12).run (newServer tableBinding) es).getD (newServer tableBinding)

theorem finished_terminal_lost : ¬∀ bcryptCost binding es, TableKept bcryptCost binding es := by
  intro h
  have hrun : (tableMachine fun _ => some 12).run (newServer tableBinding) fullTable = some (tableAfter fullTable) := by decide +kernel
  have hstep : (tableMachine fun _ => some 12).step (tableAfter fullTable) failingStart = some (tableAfter (fullTable ++ [failingStart])) := by
    decide +kernel
  have hkept := (Machine.along_at _ (h (fun _ => some 12) tableBinding (fullTable ++ [failingStart])) hrun).2 _ hstep
  exact absurd (hkept.2.failed trivial (by decide +kernel)) (by decide +kernel)

end Webshell
