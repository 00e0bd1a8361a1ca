import Webshell.LayoutSound
import Webshell.WorkspaceSound

/-!
# The neighbour of a removed pane

Two recursions over the same tree: one takes a leaf out and folds up splits
with one child, the other picks, before that, the pane to activate instead.
-/

namespace Webshell

/-- A tree whose leaves show distinct panes; a split may have any direction. -/
structure PaneTree (t : LayoutNode) : Prop where
  tree : LayoutTree (fun _ => True) t
  nodup : t.leaves.Nodup
  named : "" ∉ t.leaves

def Follows (p q : String) (ids : List String) : Prop := ∃ l r, ids = l ++ p :: q :: r

/-- The leaf `p` is the last child of its split. -/
inductive EndsSplit (p : String) : LayoutNode → Prop
  | last {d : Direction} {q : String} {z : ℚ} (cs : List LayoutNode) (d' : Direction) (cs' : List LayoutNode) (z' : ℚ) :
      EndsSplit p (.node .split d q (cs ++ [.node .leaf d' p cs' z']) z)
  | inside {d : Direction} {q : String} {z : ℚ} {cs : List LayoutNode} {c : LayoutNode} :
      c ∈ cs → EndsSplit p c → EndsSplit p (.node .split d q cs z)

def Neighbour (p q : String) (t : LayoutNode) : Prop :=
  (¬ EndsSplit p t ∧ Follows p q t.leaves) ∨ (EndsSplit p t ∧ Follows q p t.leaves)

section
variable {legal : Direction → Prop} {p q : String}

theorem resizable_layoutTree : Resizable (LayoutTree legal) where
  setSize h z := by
    cases h with
    | leaf d p cs => exact .leaf d p cs z
    | split hd hl hc => exact .split hd hl hc
  child ht h := by
    cases h with
    | leaf => exact absurd rfl ht
    | split _ _ hc => exact hc
  split ht h cs' hl hc := by
    cases h with
    | leaf => exact absurd rfl ht
    | split hd => exact .split hd hl hc

theorem LayoutTree.leaves_ne_nil {t : LayoutNode} (h : LayoutTree legal t) : t.leaves ≠ [] := by
  induction h with
  | leaf => simp
  | @split d p cs z hd hl hc ih =>
    rw [leaves_split]
    match cs, hl with
    | c :: rest, _ =>
      rw [leavesOf_cons]
      simp [ih c (List.mem_cons_self ..)]

/-! ## One child among its siblings -/

theorem leavesOf_append (l r : List LayoutNode) : leavesOf (l ++ r) = leavesOf l ++ leavesOf r := by
  induction l with
  | nil => rfl
  | cons c l ih => rw [List.cons_append, leavesOf_cons, leavesOf_cons, ih, List.append_assoc]

theorem mem_leavesOf {cs : List LayoutNode} : p ∈ leavesOf cs ↔ ∃ c ∈ cs, p ∈ c.leaves := by
  induction cs with
  | nil => simp
  | cons c cs ih => simp [leavesOf_cons, ih]

/-- Distinct leaves belong to one child each. -/
theorem child_unique {cs : List LayoutNode} (hn : (leavesOf cs).Nodup) {c x : LayoutNode} (hc : c ∈ cs) (hx : x ∈ cs)
    (hpc : p ∈ c.leaves) (hpx : p ∈ x.leaves) : x = c := by
  induction cs with
  | nil => cases hc
  | cons y cs ih =>
    rw [leavesOf_cons] at hn
    have hdisj := List.disjoint_of_nodup_append hn
    rcases List.mem_cons.mp hc with rfl | hc'
    · rcases List.mem_cons.mp hx with hx | hx
      · exact hx
      · exact (hdisj hpc (mem_leavesOf.mpr ⟨x, hx, hpx⟩)).elim
    · rcases List.mem_cons.mp hx with rfl | hx
      · exact (hdisj hpx (mem_leavesOf.mpr ⟨c, hc', hpc⟩)).elim
      · exact ih (List.nodup_append.mp hn).2.1 hc' hx

theorem EndsSplit.mem {t : LayoutNode} (h : EndsSplit p t) : p ∈ t.leaves := by
  induction h with
  | last cs d' cs' z' => simp [leavesOf_append]
  | inside hc _ ih => rw [leaves_split]; exact mem_leavesOf.mpr ⟨_, hc, ih⟩

theorem not_endsSplit_leaf {d : Direction} {x : String} {cs : List LayoutNode} {z : ℚ} :
    ¬ EndsSplit p (.node .leaf d x cs z) := nofun

theorem endsSplit_leaf {d d' : Direction} {x : String} {l r cs' : List LayoutNode} {z z' : ℚ}
    (hn : (leavesOf (l ++ .node .leaf d' p cs' z' :: r)).Nodup) :
    EndsSplit p (.node .split d x (l ++ .node .leaf d' p cs' z' :: r) z) ↔ r = [] := by
  refine ⟨fun h => ?_, fun h => h ▸ .last l d' cs' z'⟩
  have hmem : LayoutNode.node .leaf d' p cs' z' ∈ l ++ .node .leaf d' p cs' z' :: r := by simp
  generalize hcs : l ++ .node .leaf d' p cs' z' :: r = cs at h hn hmem
  cases h with
  | last cs₁ d₁ cs₂ z₁ =>
    rcases List.eq_nil_or_concat r with hr | ⟨r', y, rfl⟩
    · exact hr
    · rw [List.concat_eq_append, ← List.cons_append, ← List.append_assoc] at hcs
      obtain ⟨hl, hy⟩ := List.append_inj' hcs rfl
      rw [← hl, leavesOf_append, List.nodup_append] at hn
      exact absurd rfl (hn.2.2 p (by simp [leavesOf_append]) p (by simp))
  | inside hc he =>
    rw [child_unique hn hmem hc (by simp) he.mem] at he
    cases he

theorem endsSplit_child {d : Direction} {x : String} {cs : List LayoutNode} {c : LayoutNode} {z : ℚ}
    (hn : (leavesOf cs).Nodup) (hc : c ∈ cs) (hp : p ∈ c.leaves) (hleaf : ∀ d' cs' z', c ≠ .node .leaf d' p cs' z') :
    EndsSplit p (.node .split d x cs z) ↔ EndsSplit p c := by
  refine ⟨fun h => ?_, fun h => .inside hc h⟩
  cases h with
  | last cs₁ d₁ cs₂ z₁ => exact absurd (child_unique hn hc (by simp) hp (by simp)).symm (hleaf d₁ cs₂ z₁)
  | inside hc' he => rw [← child_unique hn hc hc' hp he.mem]; exact he

/-! ## The neighbour -/

theorem adjacentAmong_next {c : LayoutNode} (h : adjacentPaneID p c = ("", false)) (before : Option LayoutNode)
    (cs : List LayoutNode) : adjacentAmong p before (c :: cs) = adjacentAmong p (some c) cs := by
  cases cs <;> simp [adjacentAmong, h]

mutual
theorem adjacent_notMem : ∀ {t : LayoutNode}, LayoutTree legal t → p ∉ t.leaves → adjacentPaneID p t = ("", false)
  | .nil, _, _ => rfl
  | .node t d x cs z, h, hp => by
    rw [adjacentPaneID]
    cases h with
    | leaf => rw [leaves_leaf, List.mem_singleton] at hp; simp [Ne.symm hp]
    | split hd hl hc =>
      rw [leaves_split] at hp
      exact adjacentAmong_notMem none hc hp
theorem adjacentAmong_notMem : ∀ {cs : List LayoutNode} (before : Option LayoutNode), (∀ c ∈ cs, LayoutTree legal c) →
    p ∉ leavesOf cs → adjacentAmong p before cs = ("", false)
  | [], _, _, _ => rfl
  | c :: cs, before, h, hp => by
    rw [leavesOf_cons, List.mem_append, not_or] at hp
    rw [adjacentAmong_next (adjacent_notMem (h c (List.mem_cons_self ..)) hp.1)]
    exact adjacentAmong_notMem (some c) (fun x hx => h x (List.mem_cons_of_mem _ hx)) hp.2
end

/-- The loop passes over the children that do not show the pane. -/
theorem adjacentAmong_skip {l r : List LayoutNode} {c : LayoutNode} (hl : ∀ x ∈ l, LayoutTree legal x)
    (hp : p ∉ leavesOf l) : ∀ before : Option LayoutNode,
      adjacentAmong p before (l ++ c :: r) = adjacentAmong p (l.getLast?.or before) (c :: r) := by
  induction l with
  | nil => intro before; rfl
  | cons y l ih =>
    intro before
    rw [leavesOf_cons, List.mem_append, not_or] at hp
    rw [List.cons_append, adjacentAmong_next (adjacent_notMem (hl y (List.mem_cons_self ..)) hp.1)]
    rw [ih (fun x hx => hl x (List.mem_cons_of_mem _ hx)) hp.2]
    cases l with
    | nil => rfl
    | cons y' l => simp [List.getLast?_eq_some_getLast]

mutual
theorem firstLayoutPaneID_spec : ∀ {t : LayoutNode}, LayoutTree legal t → "" ∉ t.leaves →
    ∃ r, t.leaves = firstLayoutPaneID t :: r
  | .nil, h, _ => nomatch h
  | .node t d x cs z, h, he => by
    rw [firstLayoutPaneID]
    cases h with
    | leaf => exact ⟨[], by simp⟩
    | split hd hl hc =>
      rw [leaves_split] at he ⊢
      exact firstLayoutsPaneID_spec (by intro e; simp [e] at hl) hc he
theorem firstLayoutsPaneID_spec : ∀ {cs : List LayoutNode}, cs ≠ [] → (∀ c ∈ cs, LayoutTree legal c) →
    "" ∉ leavesOf cs → ∃ r, leavesOf cs = firstLayoutsPaneID cs :: r
  | [], h, _, _ => absurd rfl h
  | c :: cs, _, h, he => by
    rw [leavesOf_cons] at he ⊢
    obtain ⟨r, hr⟩ := firstLayoutPaneID_spec (h c (List.mem_cons_self ..)) fun hm => he (List.mem_append_left _ hm)
    have hne : firstLayoutPaneID c ≠ "" := fun e => he (by rw [hr, e]; simp)
    rw [firstLayoutsPaneID, if_pos hne, hr]
    exact ⟨r ++ leavesOf cs, rfl⟩
end

mutual
theorem lastLayoutPaneID_spec : ∀ {t : LayoutNode}, LayoutTree legal t → "" ∉ t.leaves →
    ∃ l, t.leaves = l ++ [lastLayoutPaneID t]
  | .nil, h, _ => nomatch h
  | .node t d x cs z, h, he => by
    rw [lastLayoutPaneID]
    cases h with
    | leaf => exact ⟨[], by simp⟩
    | split hd hl hc =>
      rw [leaves_split] at he ⊢
      exact lastLayoutsPaneID_spec (by intro e; simp [e] at hl) hc he
theorem lastLayoutsPaneID_spec : ∀ {cs : List LayoutNode}, cs ≠ [] → (∀ c ∈ cs, LayoutTree legal c) →
    "" ∉ leavesOf cs → ∃ l, leavesOf cs = l ++ [lastLayoutsPaneID cs]
  | [], h, _, _ => absurd rfl h
  | [c], _, h, he => by
    rw [leavesOf_cons, leavesOf_nil, List.append_nil] at he ⊢
    obtain ⟨l, hl⟩ := lastLayoutPaneID_spec (h c (List.mem_cons_self ..)) he
    exact ⟨l, by simpa [lastLayoutsPaneID] using hl⟩
  | c :: c' :: cs, _, h, he => by
    rw [leavesOf_cons] at he ⊢
    obtain ⟨l, hl⟩ := lastLayoutsPaneID_spec (show c' :: cs ≠ [] by simp)
      (fun x hx => h x (List.mem_cons_of_mem _ hx)) fun hm => he (List.mem_append_right _ hm)
    have hne : lastLayoutsPaneID (c' :: cs) ≠ "" := fun e => he (by rw [hl, e]; simp)
    rw [lastLayoutsPaneID, if_pos hne, hl]
    exact ⟨c.leaves ++ l, by simp⟩
end

theorem Follows.within {ids : List String} (h : Follows p q ids) (l r : List String) : Follows p q (l ++ ids ++ r) := by
  obtain ⟨l', r', rfl⟩ := h
  exact ⟨l ++ l', r' ++ r, by simp⟩

theorem Neighbour.mem {t : LayoutNode} (h : Neighbour p q t) : q ∈ t.leaves := by
  rcases h with ⟨-, l, r, h⟩ | ⟨-, l, r, h⟩ <;> simp [h]

theorem Neighbour.ne {t : LayoutNode} (h : Neighbour p q t) (hn : t.leaves.Nodup) : q ≠ p := by
  rintro rfl
  rcases h with ⟨-, l, r, h⟩ | ⟨-, l, r, h⟩ <;> simp [h, List.nodup_append] at hn

theorem PaneTree.child {d : Direction} {x : String} {l r : List LayoutNode} {c : LayoutNode} {z : ℚ}
    (h : PaneTree (.node .split d x (l ++ c :: r) z)) : PaneTree c where
  tree := resizable_layoutTree.child (t := .split) nofun h.tree c (by simp)
  nodup := by
    have hn := h.nodup
    rw [leaves_split, leavesOf_append, leavesOf_cons] at hn
    exact (List.nodup_append.mp (List.nodup_append.mp hn).2.1).1
  named hm := h.named (by rw [leaves_split]; exact mem_leavesOf.mpr ⟨c, by simp, hm⟩)

/-- A leaf takes the first pane of the next sibling, or the last one of the one before. -/
theorem adjacentAmong_leaf {d d' : Direction} {x : String} {l r cs' : List LayoutNode} {z z' : ℚ}
    (h : PaneTree (.node .split d x (l ++ .node .leaf d' p cs' z' :: r) z)) :
    ∃ q, adjacentAmong p l.getLast? (.node .leaf d' p cs' z' :: r) = (q, true) ∧
      Neighbour p q (.node .split d x (l ++ .node .leaf d' p cs' z' :: r) z) := by
  have hends := endsSplit_leaf (d := d) (x := x) (z := z) h.nodup
  cases h.tree with
  | split hd hl hc =>
    cases r with
    | cons next r =>
      obtain ⟨ids, hids⟩ := firstLayoutPaneID_spec (hc next (by simp)) fun hm =>
        h.named (by rw [leaves_split]; exact mem_leavesOf.mpr ⟨next, by simp, hm⟩)
      refine ⟨firstLayoutPaneID next, by simp [adjacentAmong, adjacentPaneID], Or.inl ⟨?_, leavesOf l, ?_⟩⟩
      · rw [hends]; simp
      · exact ⟨ids ++ leavesOf r, by simp [leavesOf_append, hids]⟩
    | nil =>
      rcases List.eq_nil_or_concat l with rfl | ⟨l', prev, rfl⟩
      · simp at hl
      · simp only [List.concat_eq_append] at h hc hends ⊢
        obtain ⟨ids, hids⟩ := lastLayoutPaneID_spec (hc prev (by simp)) fun hm =>
          h.named (by rw [leaves_split]; exact mem_leavesOf.mpr ⟨prev, by simp, hm⟩)
        refine ⟨lastLayoutPaneID prev, by simp [adjacentAmong, adjacentPaneID], Or.inr ⟨hends.mpr trivial, ?_⟩⟩
        exact ⟨leavesOf l' ++ ids, [], by simp [leavesOf_append, hids]⟩

/-- A leaf of a split has a neighbour, found inside the child that shows it or beside that child. -/
theorem adjacentPaneID_neighbour {t : LayoutNode} (h : PaneTree t) (hp : p ∈ t.leaves) :
    (∃ d cs z, t = .node .leaf d p cs z) ∨ ∃ q, adjacentPaneID p t = (q, true) ∧ Neighbour p q t := by
  have ht := h.tree
  induction ht with
  | leaf d x cs z =>
    rw [leaves_leaf, List.mem_singleton] at hp
    subst hp
    exact Or.inl ⟨d, cs, z, rfl⟩
  | @split d x cs z hd hl hc ih =>
    right
    rw [leaves_split] at hp
    obtain ⟨c, hmem, hpc⟩ := mem_leavesOf.mp hp
    obtain ⟨l, r, rfl⟩ := List.append_of_mem hmem
    have hn : (leavesOf (l ++ c :: r)).Nodup := h.nodup
    have hpl : p ∉ leavesOf l := fun hm => by
      rw [leavesOf_append, leavesOf_cons] at hn
      exact (List.nodup_append.mp hn).2.2 p hm p (List.mem_append_left _ hpc) rfl
    have hskip := adjacentAmong_skip (c := c) (r := r) (fun y hy => hc y (List.mem_append_left _ hy)) hpl none
    rw [adjacentPaneID, if_neg nofun, hskip, Option.or_none]
    rcases ih c hmem h.child hpc with ⟨d', cs', z', rfl⟩ | ⟨q, hq, hnb⟩
    · exact adjacentAmong_leaf h
    · have hne : q ≠ "" := fun e => h.child.named (e ▸ hnb.mem)
      have hleaf : ∀ d' cs' z', c ≠ .node .leaf d' p cs' z' := fun d' cs' z' e => hne (by simp_all [adjacentPaneID])
      have hends := endsSplit_child (d := d) (x := x) (z := z) hn hmem hpc hleaf
      refine ⟨q, by cases r <;> simp [adjacentAmong, hq, hne], ?_⟩
      unfold Neighbour
      rw [hends, leaves_split, leavesOf_append, leavesOf_cons, ← List.append_assoc]
      exact hnb.imp (.imp_right fun hf => hf.within ..) (.imp_right fun hf => hf.within ..)

theorem PaneTree.remove {t : LayoutNode} (h : PaneTree t) (hnil : removePaneFromLayoutNode p t ≠ .nil) :
    PaneTree (removePaneFromLayoutNode p t) where
  tree := by
    refine (removePane_keeps resizable_layoutTree p t h.tree).resolve_left fun hn => hnil ?_
    cases hr : removePaneFromLayoutNode p t with
    | nil => rfl
    | node => rw [hr] at hn; cases hn
  nodup := by rw [removePane_leaves]; exact h.nodup.filter _
  named := by rw [removePane_leaves]; exact fun hm => h.named (List.mem_filter.mp hm).1

/-- Only the single leaf leaves nothing behind. -/
theorem removePane_nil {t : LayoutNode} (h : PaneTree t) (hp : p ∈ t.leaves) :
    removePaneFromLayoutNode p t = .nil ↔ ∃ d cs z, t = .node .leaf d p cs z := by
  constructor
  · intro hnil
    rcases adjacentPaneID_neighbour h hp with hleaf | ⟨q, -, hnb⟩
    · exact hleaf
    · have hq : q ∈ (removePaneFromLayoutNode p t).leaves := by
        rw [removePane_leaves]
        exact List.mem_filter.mpr ⟨hnb.mem, by simpa using hnb.ne h.nodup⟩
      rw [hnil] at hq
      simp at hq
  · rintro ⟨d, cs, z, rfl⟩
    simp [removePaneFromLayoutNode]

/-! ## Closing and moving the active pane -/

open Workspace GoText

/-- The operation succeeds and the tab is left without the pane, with `q` active. -/
def Activates (q p : String) (tab : TerminalTab) (o : Outcome) : Prop :=
  o.2 = none ∧ ∃ tab' ∈ o.1.tabs,
    tab'.ID = tab.ID ∧ tab'.Layout = removePaneFromLayoutNode p tab.Layout ∧ tab'.ActivePaneID = q

theorem takePane_active {tab : TerminalTab} (hactive : tab.ActivePaneID = p)
    (hq : (adjacentPaneID p tab.Layout).1 = q) (hne : q ≠ "")
    (hmem : q ∈ (removePaneFromLayoutNode p tab.Layout).leaves) : (takePane tab p).ActivePaneID = q := by
  have hexists : firstExistingPaneID q (collectLayoutPaneIDs (removePaneFromLayoutNode p tab.Layout) []) = q := by
    unfold firstExistingPaneID
    rw [if_pos (by rw [collectLayoutPaneIDs_eq]; simpa using hmem)]
  unfold takePane
  simp only [if_pos hactive, hq, hexists, hne, false_and, ite_false]

section
variable {w : Workspace} {tabID : String} {i : Nat} {tab : TerminalTab} (hf : w.findTabIndexLocked tabID = some (i, tab))
include hf

theorem Workspace.closePane_activates (hp : p ∈ tab.PaneIDs) (hleft : (takePane tab p).PaneIDs ≠ [])
    (hlayout : (takePane tab p).Layout.isNil = false) (hq : (takePane tab p).ActivePaneID = q) :
    Activates q p tab (w.closePaneLocked tabID p) := by
  obtain ⟨-, rest, hi⟩ := found hf
  obtain ⟨panes, running, hd⟩ := dropPane_frame w p
  unfold closePaneLocked closePaneInTabLocked
  rw [hf]
  simp only [hasPane_iff.mpr hp, Bool.not_true, Bool.false_eq_true, ite_false, hd]
  rw [if_neg (by rw [hlayout]; simp [hleft])]
  exact ⟨rfl, takePane tab p, (hi.set _).mem_iff.mpr (List.mem_cons_self ..), rfl, rfl, hq⟩

theorem Workspace.movePane_activates (hp : p ∈ tab.PaneIDs) (hlen : 2 ≤ tab.PaneIDs.length)
    (hq : (takePane tab p).ActivePaneID = q) : Activates q p tab (w.movePaneToTabLocked tabID p) := by
  obtain ⟨-, rest, hi⟩ := found hf
  unfold movePaneToTabLocked
  rw [hf]
  simp only [hasPane_iff.mpr hp, Bool.not_true, Bool.false_eq_true, ite_false, nextTabIDStringLocked]
  rw [if_neg (by omega)]
  obtain ⟨tabs', he, hperm⟩ := insertTab_perm
    { w with tabs := w.tabs.set i (takePane tab p), nextTabID := w.nextTabID + 1 }
    { ID := taggedID "tab-" w.nextTabID
      Label := taggedID ((takePane tab p).Label ++ " ") ((w.tabs.set i (takePane tab p)).length + 1)
      CustomLabel := false, ActivePaneID := p, Layout := leafNode p 0, PaneIDs := [p] } (takePane tab p).ID
  rw [he]
  refine ⟨rfl, takePane tab p, ?_, rfl, rfl, hq⟩
  rw [setActiveTab_tabs]
  exact hperm.mem_iff.mpr (List.mem_cons_of_mem _ ((hi.set _).mem_iff.mpr (List.mem_cons_self ..)))

end

/-- Taking a pane out of a tree of panes: what is left, and which pane is active instead. -/
theorem removePane_neighbour {t : LayoutNode} (h : PaneTree t) (hp : p ∈ t.leaves) :
    (removePaneFromLayoutNode p t = .nil ↔ ∃ d cs z, t = .node .leaf d p cs z) ∧
      (removePaneFromLayoutNode p t ≠ .nil → PaneTree (removePaneFromLayoutNode p t) ∧
        (removePaneFromLayoutNode p t).leaves = t.leaves.filter (· ≠ p)) ∧
      (2 ≤ t.leaves.length → ∃ q, adjacentPaneID p t = (q, true) ∧ Neighbour p q t ∧ q ≠ p ∧
        q ∈ (removePaneFromLayoutNode p t).leaves ∧
        ∀ (w : Workspace) (tabID : String) (i : Nat) (tab : TerminalTab), w.findTabIndexLocked tabID = some (i, tab) →
          tab.Layout = t → tab.PaneIDs.Perm t.leaves → tab.ActivePaneID = p →
            Activates q p tab (w.closePaneLocked tabID p) ∧ Activates q p tab (w.movePaneToTabLocked tabID p)) := by
  refine ⟨removePane_nil h hp, fun hnil => ⟨h.remove hnil, removePane_leaves p t⟩, fun hlen => ?_⟩
  rcases adjacentPaneID_neighbour h hp with ⟨d, cs, z, rfl⟩ | ⟨q, hq, hnb⟩
  · simp at hlen
  have hqp := hnb.ne h.nodup
  have hmem : q ∈ t.leaves.filter (· ≠ p) := List.mem_filter.mpr ⟨hnb.mem, by simpa using hqp⟩
  refine ⟨q, hq, hnb, hqp, by rw [removePane_leaves]; exact hmem, ?_⟩
  rintro w tabID i tab hf rfl hperm hactive
  have hne : q ≠ "" := fun e => h.named (e ▸ hnb.mem)
  have htake := takePane_active hactive (by rw [hq]) hne (by rw [removePane_leaves]; exact hmem)
  have hin : p ∈ tab.PaneIDs := hperm.mem_iff.mpr hp
  have hleft : (takePane tab p).PaneIDs ≠ [] := by
    have : q ∈ tab.PaneIDs.filter (· ≠ p) := List.mem_filter.mpr ⟨hperm.mem_iff.mpr hnb.mem, by simpa using hqp⟩
    exact List.ne_nil_of_mem this
  have hlayout : (takePane tab p).Layout.isNil = false := by
    change (removePaneFromLayoutNode p tab.Layout).isNil = false
    rw [← removePane_leaves] at hmem
    cases hr : removePaneFromLayoutNode p tab.Layout with
    | nil => rw [hr] at hmem; simp at hmem
    | node => rfl
  exact ⟨Workspace.closePane_activates hf hin hleft hlayout htake,
    Workspace.movePane_activates hf hin (by rw [hperm.length_eq]; exact hlen) htake⟩

end

/-- One pane beside two stacked ones. -/
def threePanes : LayoutNode :=
  .node .split .vertical "" [leafNode "pane-1" 50, .node .split .horizontal ""
    [leafNode "pane-2" 50, leafNode "pane-3" 50] 50] 0

theorem paneTree_threePanes : PaneTree threePanes where
  tree := by
    refine .split trivial (by simp) fun c hc => ?_
    rcases List.mem_pair.mp hc with rfl | rfl
    · exact .leaf ..
    · refine .split trivial (by simp) fun c hc => ?_
      rcases List.mem_pair.mp hc with rfl | rfl <;> exact .leaf ..
  nodup := by simp [threePanes]
  named := by simp [threePanes]

theorem removePane_neighbour_threePanes :
    removePaneFromLayoutNode "pane-3" threePanes ≠ .nil ∧
      ∃ q, adjacentPaneID "pane-3" threePanes = (q, true) ∧ q ∈ (removePaneFromLayoutNode "pane-3" threePanes).leaves := by
  obtain ⟨hnil, -, hnb⟩ := removePane_neighbour (p := "pane-3") paneTree_threePanes (by simp [threePanes])
  obtain ⟨q, hq, -, -, hmem, -⟩ := hnb (by simp [threePanes])
  refine ⟨fun e => ?_, q, hq, hmem⟩
  obtain ⟨d, cs, z, he⟩ := hnil.mp e
  simp [threePanes] at he

end Webshell
