import Webshell.LayoutSound
import Webshell.Workspace
import Mathlib.Data.List.Nodup
import Mathlib.Data.List.Perm.Basic

/-!
# The structural invariant of a workspace

Tabs, pane map, layouts, active and recent tabs agree. `CoreInv` is the part
about tabs and panes; it does not depend on the order of the tabs, so each
operation is followed on a list whose first tab is the one it edits.
-/

namespace Webshell

open GoText

abbrev PaneMap := AList (fun _ : String => WorkspacePane)

def tabIDsOf (tabs : List TerminalTab) : List String := tabs.map (·.ID)

def paneIDsOf (tabs : List TerminalTab) : List String := tabs.flatMap (·.PaneIDs)

@[simp] theorem tabIDsOf_cons (t : TerminalTab) (ts : List TerminalTab) : tabIDsOf (t :: ts) = t.ID :: tabIDsOf ts := rfl

@[simp] theorem paneIDsOf_cons (t : TerminalTab) (ts : List TerminalTab) :
    paneIDsOf (t :: ts) = t.PaneIDs ++ paneIDsOf ts := rfl

theorem tabIDsOf_perm {ts ts' : List TerminalTab} (h : ts.Perm ts') : (tabIDsOf ts).Perm (tabIDsOf ts') := h.map _

/-- A tab's layout shows its panes, each once, and its active pane is one of them. -/
structure TabInv (t : TerminalTab) : Prop where
  nonempty : t.PaneIDs ≠ []
  wellFormed : WellFormedLayout t.Layout
  leaves : t.Layout.leaves.Perm t.PaneIDs
  active : t.ActivePaneID ∈ t.PaneIDs

structure CoreInv (tabs : List TerminalTab) (panes : PaneMap) (nextTab nextPane : Int) : Prop where
  tabIDs : (tabIDsOf tabs).Nodup
  paneIDs : (paneIDsOf tabs).Nodup
  keySet : ∀ id, id ∈ panes ↔ id ∈ paneIDsOf tabs
  each : ∀ t ∈ tabs, TabInv t
  trimmed : ∀ id ∈ tabIDsOf tabs, Trimmed id
  freshTab : ∀ n, nextTab ≤ n → taggedID "tab-" n ∉ tabIDsOf tabs
  freshPane : ∀ n, nextPane ≤ n → taggedID "pane-" n ∉ paneIDsOf tabs

theorem trimmed_tabID (n : Int) : Trimmed (taggedID "tab-" n) :=
  taggedID_trimmed (show "tab-".toList = 't' :: ['a', 'b', '-'] by decide) (by decide) n

namespace CoreInv

variable {t t' : TerminalTab} {ts ts' : List TerminalTab} {panes panes' : PaneMap} {a b : Int}

theorem perm (h : CoreInv ts panes a b) (hp : ts'.Perm ts) : CoreInv ts' panes a b := by
  have hi : (tabIDsOf ts').Perm (tabIDsOf ts) := hp.map _
  have hq : (paneIDsOf ts').Perm (paneIDsOf ts) := hp.flatMap_right _
  exact {
    tabIDs := hi.nodup_iff.mpr h.tabIDs
    paneIDs := hq.nodup_iff.mpr h.paneIDs
    keySet := fun id => (h.keySet id).trans hq.mem_iff.symm
    each := fun t ht => h.each t (hp.mem_iff.mp ht)
    trimmed := fun id hid => h.trimmed id (hi.mem_iff.mp hid)
    freshTab := fun n hn hm => h.freshTab n hn (hi.mem_iff.mp hm)
    freshPane := fun n hn hm => h.freshPane n hn (hq.mem_iff.mp hm) }

theorem mono {a' b' : Int} (h : CoreInv ts panes a b) (ha : a ≤ a') (hb : b ≤ b') : CoreInv ts panes a' b' :=
  { h with
    freshTab := fun n hn => h.freshTab n (Int.le_trans ha hn)
    freshPane := fun n hn => h.freshPane n (Int.le_trans hb hn) }

/-- The pane map is used for its keys only. -/
theorem keys (h : CoreInv ts panes a b) (hk : ∀ id, id ∈ panes' ↔ id ∈ panes) : CoreInv ts panes' a b :=
  { h with keySet := fun id => (hk id).trans (h.keySet id) }

/-- Editing a tab without changing its panes. -/
theorem edit (h : CoreInv (t :: ts) panes a b) (hid : t'.ID = t.ID) (hp : t'.PaneIDs = t.PaneIDs) (ht : TabInv t') :
    CoreInv (t' :: ts) panes a b where
  tabIDs := by have := h.tabIDs; rwa [tabIDsOf_cons, hid]
  paneIDs := by have := h.paneIDs; rwa [paneIDsOf_cons, hp]
  keySet := by have := h.keySet; rwa [paneIDsOf_cons, hp]
  each := by
    intro x hx
    rcases List.mem_cons.mp hx with rfl | hx
    · exact ht
    · exact h.each x (List.mem_cons_of_mem _ hx)
  trimmed := by have := h.trimmed; rwa [tabIDsOf_cons, hid]
  freshTab := by have := h.freshTab; rwa [tabIDsOf_cons, hid]
  freshPane := by have := h.freshPane; rwa [paneIDsOf_cons, hp]

/-- Closing a tab with all its panes. -/
theorem drop (h : CoreInv (t :: ts) panes a b) (hp : ∀ id, id ∈ panes' ↔ id ∈ panes ∧ id ∉ t.PaneIDs) :
    CoreInv ts panes' a b where
  tabIDs := (List.nodup_cons.mp h.tabIDs).2
  paneIDs := (List.nodup_append.mp h.paneIDs).2.1
  keySet := by
    intro id
    have hdisj := List.disjoint_of_nodup_append h.paneIDs
    rw [hp, h.keySet, paneIDsOf_cons, List.mem_append]
    constructor
    · rintro ⟨hm | hm, hn⟩
      · exact absurd hm hn
      · exact hm
    · intro hm; exact ⟨Or.inr hm, fun ht => hdisj ht hm⟩
  each := fun x hx => h.each x (List.mem_cons_of_mem _ hx)
  trimmed := fun id hid => h.trimmed id (List.mem_cons_of_mem _ hid)
  freshTab := fun n hn hm => h.freshTab n hn (List.mem_cons_of_mem _ hm)
  freshPane := fun n hn hm => h.freshPane n hn (List.mem_append_right _ hm)

/-- Taking one pane out of a tab and out of the map. -/
theorem remove {p : String} (h : CoreInv (t :: ts) panes a b) (hid : t'.ID = t.ID)
    (hp : t'.PaneIDs = t.PaneIDs.filter (· ≠ p)) (hm : p ∈ t.PaneIDs) (ht : TabInv t') :
    CoreInv (t' :: ts) (panes.erase p) a b := by
  have hsub : (paneIDsOf (t' :: ts)).Sublist (paneIDsOf (t :: ts)) := by
    rw [paneIDsOf_cons, paneIDsOf_cons, hp]
    exact (List.filter_sublist).append_right _
  have hnot : p ∉ paneIDsOf ts := List.disjoint_of_nodup_append h.paneIDs hm
  exact {
    tabIDs := by have := h.tabIDs; rwa [tabIDsOf_cons, hid]
    paneIDs := h.paneIDs.sublist hsub
    keySet := by
      intro id
      rw [AList.mem_erase, h.keySet, paneIDsOf_cons, paneIDsOf_cons, hp, List.mem_append, List.mem_append,
        List.mem_filter]
      by_cases he : id = p
      · subst he; simp [hnot]
      · simp [he]
    each := by
      intro x hx
      rcases List.mem_cons.mp hx with rfl | hx
      · exact ht
      · exact h.each x (List.mem_cons_of_mem _ hx)
    trimmed := by have := h.trimmed; rwa [tabIDsOf_cons, hid]
    freshTab := by have := h.freshTab; rwa [tabIDsOf_cons, hid]
    freshPane := fun n hn hx => h.freshPane n hn (hsub.subset hx) }

theorem freshTab_succ (h : CoreInv ts panes a b) : ∀ n, a + 1 ≤ n → taggedID "tab-" n ∉ taggedID "tab-" a :: tabIDsOf ts := by
  intro n hn hm
  rcases List.mem_cons.mp hm with he | hm
  · rw [taggedID_inj] at he; omega
  · exact h.freshTab n (by omega) hm

/-- A new tab with a pane that no tab has. -/
theorem add {p : String} (h : CoreInv ts panes a b) (hid : t.ID = taggedID "tab-" a) (hp : t.PaneIDs = [p])
    (hk : ∀ id, id ∈ panes' ↔ id = p ∨ id ∈ panes) (hnew : p ∉ paneIDsOf ts) {b' : Int} (hb : b ≤ b')
    (hfresh : ∀ n, b' ≤ n → taggedID "pane-" n ≠ p) (ht : TabInv t) : CoreInv (t :: ts) panes' (a + 1) b' where
  tabIDs := by
    rw [tabIDsOf_cons, hid]
    exact List.nodup_cons.mpr ⟨h.freshTab a (Int.le_refl a), h.tabIDs⟩
  paneIDs := by
    rw [paneIDsOf_cons, hp]
    exact List.nodup_cons.mpr ⟨hnew, h.paneIDs⟩
  keySet := by intro id; rw [hk, h.keySet, paneIDsOf_cons, hp]; simp
  each := by
    intro x hx
    rcases List.mem_cons.mp hx with rfl | hx
    · exact ht
    · exact h.each x hx
  trimmed := by
    intro id hx
    rcases List.mem_cons.mp hx with he | hx
    · have he : id = t.ID := he
      rw [he, hid]; exact trimmed_tabID a
    · exact h.trimmed id hx
  freshTab := by rw [tabIDsOf_cons, hid]; exact h.freshTab_succ
  freshPane := by
    intro n hn hm
    rw [paneIDsOf_cons, hp] at hm
    rcases List.mem_cons.mp hm with he | hm
    · exact hfresh n hn he
    · exact h.freshPane n (by omega) hm

/-- A tab's panes replaced by `ps`, which must be panes of the tab or the next new pane. -/
theorem grow {ps : List String} (h : CoreInv (t :: ts) panes a b) (hid : t'.ID = t.ID) (hp : t'.PaneIDs = ps)
    (hps : ∀ p ∈ ps, p ∈ t.PaneIDs ∨ p = taggedID "pane-" b) (hn : ps.Nodup)
    (hk : ∀ id, id ∈ panes' ↔ id ∈ ps ∨ id ∈ panes ∧ id ∉ t.PaneIDs) (ht : TabInv t') :
    CoreInv (t' :: ts) panes' a (b + 1) := by
  have hfresh := h.freshPane b (Int.le_refl b)
  rw [paneIDsOf_cons, List.mem_append, not_or] at hfresh
  have hdisj := List.disjoint_of_nodup_append h.paneIDs
  exact {
    tabIDs := by have := h.tabIDs; rwa [tabIDsOf_cons, hid]
    paneIDs := by
      rw [paneIDsOf_cons, hp]
      refine List.nodup_append.mpr ⟨hn, (List.nodup_append.mp h.paneIDs).2.1, ?_⟩
      rintro x hx y hy rfl
      rcases hps x hx with hx | rfl
      · exact hdisj hx hy
      · exact hfresh.2 hy
    keySet := by
      intro id
      rw [hk, h.keySet, paneIDsOf_cons, paneIDsOf_cons, hp, List.mem_append, List.mem_append]
      constructor
      · rintro (hm | ⟨hm | hm, hnot⟩)
        · exact Or.inl hm
        · exact absurd hm hnot
        · exact Or.inr hm
      · rintro (hm | hm)
        · exact Or.inl hm
        · exact Or.inr ⟨Or.inr hm, fun hx => hdisj hx hm⟩
    each := by
      intro x hx
      rcases List.mem_cons.mp hx with rfl | hx
      · exact ht
      · exact h.each x (List.mem_cons_of_mem _ hx)
    trimmed := by have := h.trimmed; rwa [tabIDsOf_cons, hid]
    freshTab := by have := h.freshTab; rwa [tabIDsOf_cons, hid]
    freshPane := by
      intro n hn' hm
      rw [paneIDsOf_cons, hp, List.mem_append] at hm
      have hold := h.freshPane n (by omega)
      rw [paneIDsOf_cons, List.mem_append, not_or] at hold
      rcases hm with hm | hm
      · rcases hps _ hm with hm | he
        · exact hold.1 hm
        · rw [taggedID_inj] at he; omega
      · exact hold.2 hm }

/-- A pane moved out of its tab into a new one. -/
theorem moveOut {p : String} {new : TerminalTab} (h : CoreInv (t :: ts) panes a b) (hid : t'.ID = t.ID)
    (hp : t'.PaneIDs = t.PaneIDs.filter (· ≠ p)) (hm : p ∈ t.PaneIDs) (ht : TabInv t')
    (hnid : new.ID = taggedID "tab-" a) (hnp : new.PaneIDs = [p]) (hn : TabInv new) :
    CoreInv (new :: t' :: ts) panes (a + 1) b := by
  have hr := h.remove hid hp hm ht
  have hpk : p ∈ panes := (h.keySet p).mpr (List.mem_append_left _ hm)
  refine hr.add hnid hnp ?_ ?_ (Int.le_refl b) ?_ hn
  · intro id
    rw [AList.mem_erase]
    by_cases he : id = p
    · simp [he, hpk]
    · simp [he]
  · rw [← hr.keySet, AList.mem_erase]
    exact fun hx => hx.1 rfl
  · rintro n hn' rfl
    exact h.freshPane n hn' (List.mem_append_left _ hm)

end CoreInv

/-! ## Finding a tab -/

namespace Workspace

theorem findTabIn_some {tabID : String} : ∀ {ts : List TerminalTab} {i : Nat} {t : TerminalTab},
    findTabIn tabID ts = some (i, t) → ∃ pre post, ts = pre ++ t :: post ∧ pre.length = i ∧ t.ID = tabID
  | [], i, t, h => by cases h
  | s :: ts, i, t, h => by
    rw [findTabIn] at h
    split at h
    · rename_i hs
      cases h; exact ⟨[], ts, rfl, rfl, hs⟩
    · cases hf : findTabIn tabID ts with
      | none => rw [hf] at h; cases h
      | some r =>
        rw [hf] at h; cases h
        obtain ⟨pre, post, rfl, hl, hid⟩ := findTabIn_some hf
        exact ⟨s :: pre, post, rfl, by simp [hl], hid⟩

theorem findTabIn_none {tabID : String} {ts : List TerminalTab} : findTabIn tabID ts = none ↔ tabID ∉ tabIDsOf ts := by
  induction ts with
  | nil => simp [findTabIn, tabIDsOf]
  | cons t ts ih =>
    rw [findTabIn, tabIDsOf_cons, List.mem_cons, not_or, ← ih]
    by_cases h : t.ID = tabID
    · simp [h]
    · simp [h, Ne.symm h]

/-- With distinct ids, a tab's id finds that tab. -/
theorem findTabIn_append {t : TerminalTab} {pre post : List TerminalTab} (h : t.ID ∉ tabIDsOf pre) :
    findTabIn t.ID (pre ++ t :: post) = some (pre.length, t) := by
  induction pre with
  | nil => simp [findTabIn]
  | cons s pre ih =>
    rw [tabIDsOf_cons, List.mem_cons, not_or] at h
    rw [List.cons_append, findTabIn, if_neg (Ne.symm h.1), ih h.2]
    rfl

theorem findTabLocked_none {w : Workspace} {tabID : String} :
    w.findTabLocked tabID = none ↔ tabID ∉ tabIDsOf w.tabs := by
  unfold findTabLocked findTabIndexLocked
  rw [Option.map_eq_none_iff, findTabIn_none]

theorem findTabLocked_some {w : Workspace} {tabID : String} {t : TerminalTab} (h : w.findTabLocked tabID = some t) :
    t ∈ w.tabs ∧ t.ID = tabID := by
  unfold findTabLocked at h
  obtain ⟨⟨i, s⟩, hf, rfl⟩ := Option.map_eq_some_iff.mp h
  obtain ⟨pre, post, he, -, hid⟩ := findTabIn_some hf
  exact ⟨by rw [he]; simp, hid⟩

theorem findPaneTab_some {paneID : String} : ∀ {ts : List TerminalTab} {i : Nat} {t : TerminalTab},
    findPaneTab paneID ts = some (i, t) → ∃ pre post, ts = pre ++ t :: post ∧ pre.length = i ∧ t.hasPane paneID = true
  | [], i, t, h => by cases h
  | s :: ts, i, t, h => by
    rw [findPaneTab] at h
    split at h
    · rename_i hs
      cases h; exact ⟨[], ts, rfl, rfl, hs⟩
    · cases hf : findPaneTab paneID ts with
      | none => rw [hf] at h; cases h
      | some r =>
        rw [hf] at h; cases h
        obtain ⟨pre, post, rfl, hl, hid⟩ := findPaneTab_some hf
        exact ⟨s :: pre, post, rfl, by simp [hl], hid⟩

/-! ## Edits at a found index -/

theorem set_at {α : Type} (pre : List α) (x y : α) (post : List α) :
    (pre ++ x :: post).set pre.length y = pre ++ y :: post := by
  induction pre with
  | nil => rfl
  | cons z pre ih => rw [List.cons_append, List.length_cons, List.set_cons_succ, ih, List.cons_append]

theorem eraseIdx_at {α : Type} (pre : List α) (x : α) (post : List α) :
    (pre ++ x :: post).eraseIdx pre.length = pre ++ post := by
  induction pre with
  | nil => rfl
  | cons z pre ih => rw [List.cons_append, List.length_cons, List.eraseIdx_cons_succ, ih, List.cons_append]

/-- `t` stands at index `i` among `tabs`, `rest` being the others. -/
structure TabAt (tabs : List TerminalTab) (i : Nat) (t : TerminalTab) (rest : List TerminalTab) : Prop where
  whole : tabs.Perm (t :: rest)
  set : ∀ t', (tabs.set i t').Perm (t' :: rest)
  erase : (tabs.eraseIdx i).Perm rest
  lt : i < tabs.length
  find : (tabIDsOf tabs).Nodup → ∀ t' : TerminalTab, t'.ID = t.ID → findTabIn t.ID (tabs.set i t') = some (i, t')

theorem tabAt_append (pre : List TerminalTab) (t : TerminalTab) (post : List TerminalTab) :
    TabAt (pre ++ t :: post) pre.length t (pre ++ post) where
  whole := List.perm_middle
  set := fun t' => by rw [set_at]; exact List.perm_middle
  erase := by rw [eraseIdx_at]
  lt := by simp
  find := by
    intro hn t' hid
    rw [set_at, ← hid]
    apply findTabIn_append
    rw [hid]
    unfold tabIDsOf at hn ⊢
    rw [List.map_append, List.map_cons] at hn
    exact fun hm => (List.disjoint_of_nodup_append hn) hm (List.mem_cons_self ..)

theorem found {w : Workspace} {tabID : String} {i : Nat} {t : TerminalTab}
    (h : w.findTabIndexLocked tabID = some (i, t)) : t.ID = tabID ∧ ∃ rest, TabAt w.tabs i t rest := by
  obtain ⟨pre, post, he, rfl, hid⟩ := findTabIn_some h
  exact ⟨hid, pre ++ post, he ▸ tabAt_append pre t post⟩

theorem foundPane {w : Workspace} {paneID : String} {i : Nat} {t : TerminalTab}
    (h : findPaneTab paneID w.tabs = some (i, t)) : t.hasPane paneID = true ∧ ∃ rest, TabAt w.tabs i t rest := by
  obtain ⟨pre, post, he, rfl, hid⟩ := findPaneTab_some h
  exact ⟨hid, pre ++ post, he ▸ tabAt_append pre t post⟩

theorem TabAt.mem_set_iff {tabs rest : List TerminalTab} {i : Nat} {t t' : TerminalTab} (h : TabAt tabs i t rest)
    (hid : t'.ID = t.ID) (id : String) : id ∈ tabIDsOf (tabs.set i t') ↔ id ∈ tabIDsOf tabs := by
  rw [(tabIDsOf_perm (h.set t')).mem_iff, (tabIDsOf_perm h.whole).mem_iff, tabIDsOf_cons, tabIDsOf_cons, hid]

theorem TabAt.mem_self {tabs rest : List TerminalTab} {i : Nat} {t : TerminalTab} (h : TabAt tabs i t rest) :
    t.ID ∈ tabIDsOf tabs := (tabIDsOf_perm h.whole).mem_iff.mpr (List.mem_cons_self ..)

theorem hasPane_iff {t : TerminalTab} {p : String} : t.hasPane p = true ↔ p ∈ t.PaneIDs := by
  simp [TerminalTab.hasPane]

theorem mem_dropPane {w : Workspace} {p id : String} : id ∈ (w.dropPane p).panes ↔ id ∈ w.panes ∧ id ≠ p := by
  unfold dropPane
  cases h : w.panes.lookup p with
  | none =>
    rw [AList.lookup_eq_none] at h
    constructor
    · intro hm; exact ⟨hm, fun he => h (he ▸ hm)⟩
    · exact fun hm => hm.1
  | some _ => simp only [AList.mem_erase]; exact and_comm

theorem dropPane_frame (w : Workspace) (p : String) :
    ∃ panes running, w.dropPane p = { w with panes := panes, running := running } := by
  unfold dropPane
  split <;> exact ⟨_, _, rfl⟩

theorem dropPanes_frame (ps : List String) : ∀ w : Workspace,
    ∃ panes running, w.dropPanes ps = { w with panes := panes, running := running } := by
  induction ps with
  | nil => intro w; exact ⟨_, _, rfl⟩
  | cons p ps ih =>
    intro w
    obtain ⟨panes, running, h⟩ := dropPane_frame w p
    obtain ⟨panes', running', h'⟩ := ih (w.dropPane p)
    refine ⟨panes', running', ?_⟩
    unfold dropPanes at h' ⊢
    rw [List.foldl_cons, h', h]

theorem mem_dropPanes {ps : List String} : ∀ {w : Workspace} {id : String},
    id ∈ (w.dropPanes ps).panes ↔ id ∈ w.panes ∧ id ∉ ps := by
  induction ps with
  | nil => intro w id; simp [dropPanes]
  | cons p ps ih =>
    intro w id
    have : id ∈ ((w.dropPane p).dropPanes ps).panes ↔ id ∈ (w.dropPane p).panes ∧ id ∉ ps := ih
    unfold dropPanes at this ⊢
    rw [List.foldl_cons, this, mem_dropPane, List.mem_cons, not_or]
    exact and_assoc

end Workspace

end Webshell
