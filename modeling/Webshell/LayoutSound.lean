import Webshell.Layout
import Mathlib.Data.List.Perm.Subperm

/-!
# Layout surgery keeps the panes

A well-formed layout is a tree of leaves without children and of splits with a
legal direction and at least two children. Splitting, removing, renaming and
validating are described by what they do to the list of leaves.
-/

namespace Webshell

mutual
/-- The panes shown, from first to last. -/
def LayoutNode.leaves : LayoutNode → List String
  | .nil => []
  | .node t _ p cs _ => if t = .leaf then [p] else leavesOf cs
def leavesOf : List LayoutNode → List String
  | [] => []
  | c :: cs => c.leaves ++ leavesOf cs
end

def LegalDirection (d : Direction) : Prop := d = .vertical ∨ d = .horizontal

inductive WellFormedLayout : LayoutNode → Prop
  | leaf (d : Direction) (p : String) (z : ℚ) : WellFormedLayout (.node .leaf d p [] z)
  | split {d : Direction} {p : String} {cs : List LayoutNode} {z : ℚ} :
      LegalDirection d → 2 ≤ cs.length → (∀ c ∈ cs, WellFormedLayout c) → WellFormedLayout (.node .split d p cs z)

/-- Trees whose leaves may carry children and any direction: nothing reads them. -/
inductive LayoutTree (legal : Direction → Prop) : LayoutNode → Prop
  | leaf (d : Direction) (p : String) (cs : List LayoutNode) (z : ℚ) : LayoutTree legal (.node .leaf d p cs z)
  | split {d : Direction} {p : String} {cs : List LayoutNode} {z : ℚ} :
      legal d → 2 ≤ cs.length → (∀ c ∈ cs, LayoutTree legal c) → LayoutTree legal (.node .split d p cs z)

theorem WellFormedLayout.tree {n : LayoutNode} (h : WellFormedLayout n) : LayoutTree LegalDirection n := by
  induction h with
  | leaf d p z => exact .leaf d p [] z
  | split hd hl _ ih => exact .split hd hl ih

@[simp] theorem leaves_nil : LayoutNode.nil.leaves = [] := by simp [LayoutNode.leaves]

@[simp] theorem leaves_leaf (d : Direction) (p : String) (cs : List LayoutNode) (z : ℚ) :
    (LayoutNode.node .leaf d p cs z).leaves = [p] := by simp [LayoutNode.leaves]

@[simp] theorem leaves_split (d : Direction) (p : String) (cs : List LayoutNode) (z : ℚ) :
    (LayoutNode.node .split d p cs z).leaves = leavesOf cs := by simp [LayoutNode.leaves]

@[simp] theorem leavesOf_nil : leavesOf [] = [] := by simp [leavesOf]

@[simp] theorem leavesOf_cons (c : LayoutNode) (cs : List LayoutNode) :
    leavesOf (c :: cs) = c.leaves ++ leavesOf cs := by simp [leavesOf]

@[simp] theorem leaves_leafNode (p : String) (z : ℚ) : (leafNode p z).leaves = [p] := leaves_leaf ..

theorem wellFormed_leafNode (p : String) (z : ℚ) : WellFormedLayout (leafNode p z) := .leaf ..

@[simp] theorem leaves_setSize (z : ℚ) : ∀ n : LayoutNode, (n.setSize z).leaves = n.leaves
  | .nil => rfl
  | .node .. => by simp [LayoutNode.setSize, LayoutNode.leaves]

theorem WellFormedLayout.setSize {n : LayoutNode} (h : WellFormedLayout n) (z : ℚ) : WellFormedLayout (n.setSize z) := by
  cases h with
  | leaf d p => exact .leaf d p z
  | split hd hl hc => exact .split hd hl hc

theorem WellFormedLayout.leaves_ne_nil {n : LayoutNode} (h : WellFormedLayout n) : n.leaves ≠ [] := by
  induction h with
  | leaf d p z => simp
  | @split d p cs z hd hl hc ih =>
    rw [leaves_split]
    match cs, hl with
    | c :: rest, _ =>
      rw [leavesOf_cons]
      simp [ih c (List.mem_cons_self ..)]

theorem WellFormedLayout.not_nil {n : LayoutNode} (h : WellFormedLayout n) : n.isNil = false := by
  cases h <;> rfl

/-- Resizing children changes no leaf. -/
theorem leavesOf_map {f : LayoutNode → LayoutNode} (hf : ∀ c, (f c).leaves = c.leaves) :
    ∀ cs : List LayoutNode, leavesOf (cs.map f) = leavesOf cs
  | [] => rfl
  | c :: cs => by rw [List.map_cons, leavesOf_cons, leavesOf_cons, hf, leavesOf_map hf cs]

mutual
theorem collectLayoutPaneIDs_append : ∀ (n : LayoutNode) (r : List String), collectLayoutPaneIDs n r = r ++ n.leaves
  | .nil, r => by simp [collectLayoutPaneIDs]
  | .node t d p cs z, r => by
    rw [collectLayoutPaneIDs, LayoutNode.leaves]
    split
    · rfl
    · exact collectLayoutsPaneIDs_append cs r
theorem collectLayoutsPaneIDs_append : ∀ (cs : List LayoutNode) (r : List String),
    collectLayoutsPaneIDs cs r = r ++ leavesOf cs
  | [], r => by simp [collectLayoutsPaneIDs]
  | c :: cs, r => by
    rw [collectLayoutsPaneIDs, collectLayoutPaneIDs_append c, collectLayoutsPaneIDs_append cs, leavesOf_cons,
      List.append_assoc]
end

theorem collectLayoutPaneIDs_eq (n : LayoutNode) : collectLayoutPaneIDs n [] = n.leaves := by
  rw [collectLayoutPaneIDs_append]; rfl

/-! ## Splitting -/

section
variable {target new : String} {d : Direction}

theorem splitLayoutNodes_of_notMem {cs : List LayoutNode}
    (h : ∀ c ∈ cs, splitLayoutNode target d new c = none) : splitLayoutNodes target d new cs = none := by
  induction cs with
  | nil => rfl
  | cons c cs ih =>
    rw [splitLayoutNodes, h c (List.mem_cons_self ..)]
    simp [ih fun c' hc' => h c' (List.mem_cons_of_mem _ hc')]

theorem splitLayoutNode_none {n : LayoutNode} (hn : WellFormedLayout n) (ht : target ∉ n.leaves) :
    splitLayoutNode target d new n = none := by
  induction hn with
  | leaf d' p z =>
    have hp : p ≠ target := fun e => ht (by simp [e])
    simp [splitLayoutNode, splitLayoutNodes, hp]
  | @split d' p cs z hd hl hc ih =>
    rw [leaves_split] at ht
    have hcs : ∀ c ∈ cs, target ∉ c.leaves := by
      intro c hc' hm
      apply ht
      clear ih hl hc
      induction cs with
      | nil => cases hc'
      | cons c₀ cs ih =>
        rw [leavesOf_cons]
        rcases List.mem_cons.mp hc' with rfl | hc'
        · exact List.mem_append_left _ hm
        · exact List.mem_append_right _ (ih (fun hm' => ht (by simp [hm'])) hc')
    rw [splitLayoutNode, splitLayoutNodes_of_notMem fun c hc' => ih c hc' (hcs c hc')]
    simp

/-- The new leaf goes right after the target. -/
def SplitLeaves (target new : String) (before after : List String) : Prop :=
  ∃ l r, before = l ++ target :: r ∧ after = l ++ target :: new :: r

theorem splitLayoutNode_some (hd : LegalDirection d) {n : LayoutNode} (hn : WellFormedLayout n)
    (ht : target ∈ n.leaves) :
    ∃ n', splitLayoutNode target d new n = some n' ∧ WellFormedLayout n' ∧ SplitLeaves target new n.leaves n'.leaves := by
  induction hn with
  | leaf d' p z =>
    have hp : target = p := by simpa using ht
    subst hp
    refine ⟨.node .split d "" [leafNode target 50, leafNode new 50] z, by simp [splitLayoutNode], ?_, ?_⟩
    · refine .split hd (by simp) ?_
      intro c hc
      rcases List.mem_pair.mp hc with rfl | rfl <;> exact wellFormed_leafNode ..
    · exact ⟨[], [], by simp, by simp⟩
  | @split d' p cs z hd' hl hc ih =>
    rw [leaves_split] at ht
    have key : ∀ cs : List LayoutNode, (∀ c ∈ cs, WellFormedLayout c) →
        (∀ c ∈ cs, target ∈ c.leaves → ∃ n', splitLayoutNode target d new c = some n' ∧ WellFormedLayout n' ∧
          SplitLeaves target new c.leaves n'.leaves) → target ∈ leavesOf cs →
        ∃ cs', splitLayoutNodes target d new cs = some cs' ∧ cs'.length = cs.length ∧
          (∀ c ∈ cs', WellFormedLayout c) ∧ SplitLeaves target new (leavesOf cs) (leavesOf cs') := by
      intro cs
      induction cs with
      | nil => intro _ _ h; simp at h
      | cons c cs ihcs =>
        intro hw hi ht
        have hwcs : ∀ c' ∈ cs, WellFormedLayout c' := fun c' h => hw c' (List.mem_cons_of_mem _ h)
        by_cases hmem : target ∈ c.leaves
        · obtain ⟨c', hs, hwc', l, r, hb, ha⟩ := hi c (List.mem_cons_self ..) hmem
          refine ⟨c' :: cs, by rw [splitLayoutNodes, hs], by simp, ?_, l, r ++ leavesOf cs, ?_, ?_⟩
          · intro x hx
            rcases List.mem_cons.mp hx with rfl | hx
            · exact hwc'
            · exact hwcs x hx
          · rw [leavesOf_cons, hb]; simp
          · rw [leavesOf_cons, ha]; simp
        · have hnone : splitLayoutNode target d new c = none := splitLayoutNode_none (hw c (List.mem_cons_self ..)) hmem
          have ht' : target ∈ leavesOf cs := by
            rw [leavesOf_cons, List.mem_append] at ht
            exact ht.resolve_left hmem
          obtain ⟨cs', hs, hlen, hw', l, r, hb, ha⟩ :=
            ihcs hwcs (fun c' h => hi c' (List.mem_cons_of_mem _ h)) ht'
          refine ⟨c :: cs', by rw [splitLayoutNodes, hnone, hs]; rfl, by simp [hlen], ?_, c.leaves ++ l, r, ?_, ?_⟩
          · intro x hx
            rcases List.mem_cons.mp hx with rfl | hx
            · exact hw x (List.mem_cons_self ..)
            · exact hw' x hx
          · rw [leavesOf_cons, hb, List.append_assoc]
          · rw [leavesOf_cons, ha, List.append_assoc]
    obtain ⟨cs', hs, hlen, hw', hsl⟩ := key cs hc ih ht
    refine ⟨.node .split d' p cs' z, by simp [splitLayoutNode, hs], .split hd' (hlen ▸ hl) hw', ?_⟩
    rw [leaves_split, leaves_split]; exact hsl

theorem SplitLeaves.perm {before after : List String} (h : SplitLeaves target new before after) :
    after.Perm (before ++ [new]) := by
  obtain ⟨l, r, rfl, rfl⟩ := h
  rw [List.append_assoc]
  refine List.Perm.append_left l ?_
  rw [List.cons_append]
  exact (List.perm_append_singleton new r).symm.cons target

end

/-! ## Removing -/

/-- What a removal keeps: a property of nodes that does not look at the size
and that a split has with any two children that have it. -/
structure Resizable (Q : LayoutNode → Prop) : Prop where
  setSize : ∀ {n}, Q n → ∀ z, Q (n.setSize z)
  child : ∀ {t d p cs z}, t ≠ .leaf → Q (.node t d p cs z) → ∀ c ∈ cs, Q c
  split : ∀ {t d p cs z}, t ≠ .leaf → Q (.node t d p cs z) → ∀ cs', 2 ≤ cs'.length → (∀ c ∈ cs', Q c) →
    Q (.node t d p cs' z)

theorem Resizable.collapse {Q : LayoutNode → Prop} (hQ : Resizable Q) {t : NodeType} {d : Direction} {p : String}
    {cs₀ : List LayoutNode} {z : ℚ} (ht : t ≠ .leaf) (hn : Q (.node t d p cs₀ z)) {cs : List LayoutNode}
    (hc : ∀ c ∈ cs, Q c) : (collapseSplit t d p z cs).isNil = true ∨ Q (collapseSplit t d p z cs) := by
  match cs with
  | [] => exact Or.inl rfl
  | [c] =>
    have hw := hc c (List.mem_cons_self ..)
    refine Or.inr ?_
    simp only [collapseSplit]
    split
    · exact hQ.setSize hw z
    · exact hw
  | c₁ :: c₂ :: rest =>
    refine Or.inr (hQ.split ht hn _ (by simp) fun c hm => ?_)
    obtain ⟨c', hc', rfl⟩ := List.mem_map.mp hm
    split
    · exact hQ.setSize (hc c' hc') _
    · exact hc c' hc'

mutual
theorem removePane_keeps {Q : LayoutNode → Prop} (hQ : Resizable Q) (p : String) : ∀ n : LayoutNode, Q n →
    (removePaneFromLayoutNode p n).isNil = true ∨ Q (removePaneFromLayoutNode p n)
  | .nil, h => Or.inl rfl
  | .node t d q cs z, h => by
    rw [removePaneFromLayoutNode]
    by_cases ht : t = .leaf
    · rw [if_pos ht]
      split
      · exact Or.inl rfl
      · exact Or.inr h
    · rw [if_neg ht]
      exact hQ.collapse ht h (removePanes_keep hQ p cs (hQ.child ht h))
theorem removePanes_keep {Q : LayoutNode → Prop} (hQ : Resizable Q) (p : String) : ∀ cs : List LayoutNode,
    (∀ c ∈ cs, Q c) → ∀ c ∈ removePaneFromLayoutNodes p cs, Q c
  | [], _ => by simp [removePaneFromLayoutNodes]
  | c :: cs, h => by
    have hrest := removePanes_keep hQ p cs fun c' hc' => h c' (List.mem_cons_of_mem _ hc')
    rw [removePaneFromLayoutNodes]
    split
    · exact hrest
    · rename_i hnil
      intro x hx
      rcases List.mem_cons.mp hx with rfl | hx
      · exact (removePane_keeps hQ p c (h c (List.mem_cons_self ..))).resolve_left hnil
      · exact hrest x hx
end

theorem leaves_collapseSplit {t : NodeType} (ht : t ≠ .leaf) (d : Direction) (p : String) (z : ℚ) (cs : List LayoutNode) :
    (collapseSplit t d p z cs).leaves = leavesOf cs := by
  match cs with
  | [] => simp [collapseSplit]
  | [c] =>
    simp only [collapseSplit]
    split <;> simp
  | c₁ :: c₂ :: rest =>
    simp only [collapseSplit, LayoutNode.leaves, if_neg ht]
    apply leavesOf_map
    intro c; split <;> simp

mutual
theorem removePane_leaves (p : String) : ∀ n : LayoutNode,
    (removePaneFromLayoutNode p n).leaves = n.leaves.filter (· ≠ p)
  | .nil => by simp [removePaneFromLayoutNode]
  | .node t d q cs z => by
    rw [removePaneFromLayoutNode]
    by_cases ht : t = .leaf
    · subst ht
      by_cases h : q = p
      · simp [h]
      · simp [h, cloneLayout]
    · rw [if_neg ht, leaves_collapseSplit ht, removePanes_leaves p cs, LayoutNode.leaves, if_neg ht]
theorem removePanes_leaves (p : String) : ∀ cs : List LayoutNode,
    leavesOf (removePaneFromLayoutNodes p cs) = (leavesOf cs).filter (· ≠ p)
  | [] => by simp [removePaneFromLayoutNodes]
  | c :: cs => by
    have hc := removePane_leaves p c
    rw [removePaneFromLayoutNodes, leavesOf_cons, List.filter_append, ← hc, ← removePanes_leaves p cs]
    cases hr : removePaneFromLayoutNode p c with
    | nil => simp [LayoutNode.isNil]
    | node => simp [LayoutNode.isNil]
end

theorem resizable_wellFormed : Resizable WellFormedLayout where
  setSize h z := h.setSize z
  child ht h := by
    cases h with
    | leaf => exact absurd rfl ht
    | split _ _ hc => exact hc
  split ht h cs' hl hc := by
    cases h with
    | leaf => exact absurd rfl ht
    | split hd => exact .split hd hl hc

theorem removePaneFromLayoutNode_spec (p : String) {n : LayoutNode} (hn : WellFormedLayout n) :
    ((removePaneFromLayoutNode p n).isNil = true ∨ WellFormedLayout (removePaneFromLayoutNode p n)) ∧
      (removePaneFromLayoutNode p n).leaves = n.leaves.filter (· ≠ p) :=
  ⟨removePane_keeps resizable_wellFormed p n hn, removePane_leaves p n⟩

/-- A removal that leaves a pane leaves a well-formed layout. -/
theorem removePane_wellFormed {p : String} {n : LayoutNode} (hn : WellFormedLayout n)
    (h : n.leaves.filter (· ≠ p) ≠ []) : WellFormedLayout (removePaneFromLayoutNode p n) := by
  obtain ⟨hw, hl⟩ := removePaneFromLayoutNode_spec p hn
  refine hw.resolve_left fun hnil => h ?_
  rw [← hl]
  cases hr : removePaneFromLayoutNode p n with
  | nil => simp
  | node => rw [hr] at hnil; cases hnil

/-! ## Renaming -/

theorem replaceLayoutPane_spec (p q : String) {n : LayoutNode} (hn : WellFormedLayout n) :
    WellFormedLayout (replaceLayoutPane p q n) ∧
      (replaceLayoutPane p q n).leaves = n.leaves.map fun x => if x = p then q else x := by
  induction hn with
  | leaf d x z => simp [replaceLayoutPane, replaceLayoutPanes, WellFormedLayout.leaf]
  | @split d x cs z hd hl hc ih =>
    have key : ∀ cs : List LayoutNode,
        (∀ c ∈ cs, WellFormedLayout (replaceLayoutPane p q c) ∧
          (replaceLayoutPane p q c).leaves = c.leaves.map fun x => if x = p then q else x) →
        (replaceLayoutPanes p q cs).length = cs.length ∧ (∀ c ∈ replaceLayoutPanes p q cs, WellFormedLayout c) ∧
          leavesOf (replaceLayoutPanes p q cs) = (leavesOf cs).map fun x => if x = p then q else x := by
      intro cs
      induction cs with
      | nil => intro _; simp [replaceLayoutPanes]
      | cons c cs ihcs =>
        intro h
        obtain ⟨hw, hleaves⟩ := h c (List.mem_cons_self ..)
        obtain ⟨hlen, hws, hls⟩ := ihcs fun c' hc' => h c' (List.mem_cons_of_mem _ hc')
        rw [replaceLayoutPanes, leavesOf_cons, leavesOf_cons, List.map_append, hleaves, hls]
        exact ⟨by simp [hlen], by simpa using ⟨hw, hws⟩, rfl⟩
    obtain ⟨hlen, hws, hls⟩ := key cs ih
    simp only [replaceLayoutPane, reduceCtorEq, false_and, ite_false, leaves_split]
    exact ⟨.split hd (hlen ▸ hl) hws, hls⟩

/-! ## Validating -/

theorem clampChildSize_keeps {Q : LayoutNode → Prop} (hQ : ∀ {n}, Q n → ∀ z, Q (n.setSize z)) {n : LayoutNode}
    (h : Q n) : Q (clampChildSize n) := by
  unfold clampChildSize
  simp only
  split <;> split
  · exact hQ (hQ h _) _
  · exact hQ h _
  · exact hQ h _
  · exact h

theorem leaves_clampChildSize (n : LayoutNode) : (clampChildSize n).leaves = n.leaves :=
  clampChildSize_keeps (Q := fun m => m.leaves = n.leaves) (fun h z => (leaves_setSize z _).trans h) rfl

theorem WellFormedLayout.clampChildSize {n : LayoutNode} (h : WellFormedLayout n) :
    WellFormedLayout (clampChildSize n) := clampChildSize_keeps WellFormedLayout.setSize h

/-- What an accepted node leaves behind: a well-formed tree with the same
leaves, each a pane of the tab not seen before. -/
def Validated (tab : TerminalTab) (before after : List String) (leaves : List String) : Prop :=
  after = leaves.reverse ++ before ∧ (∀ p ∈ leaves, p ∈ tab.PaneIDs) ∧ (before.Nodup → after.Nodup)

theorem Validated.append {tab : TerminalTab} {s₀ s₁ s₂ l₁ l₂ : List String} (h₁ : Validated tab s₀ s₁ l₁)
    (h₂ : Validated tab s₁ s₂ l₂) : Validated tab s₀ s₂ (l₁ ++ l₂) := by
  obtain ⟨rfl, hm₁, hn₁⟩ := h₁
  obtain ⟨rfl, hm₂, hn₂⟩ := h₂
  refine ⟨by simp, ?_, fun h => hn₂ (hn₁ h)⟩
  intro p hp
  rcases List.mem_append.mp hp with hp | hp
  · exact hm₁ p hp
  · exact hm₂ p hp

mutual
theorem validateLayoutNode_ok {tab : TerminalTab} : ∀ {n n' : LayoutNode} {seen seen' : List String},
    validateLayoutNode tab n seen = .ok (n', seen') →
      WellFormedLayout n' ∧ n'.leaves = n.leaves ∧ Validated tab seen seen' n'.leaves
  | .nil, n', seen, seen', h => by simp [validateLayoutNode] at h
  | .node t d p cs z, n', seen, seen', h => by
    cases t with
    | leaf =>
      rw [validateLayoutNode] at h
      split at h
      · cases h
      · split at h
        · cases h
        · rename_i hp hs
          cases h
          simp only [TerminalTab.hasPane, Bool.not_eq_true', Bool.not_eq_false, List.contains_iff_mem] at hp
          simp only [Bool.not_eq_true, List.contains_eq_mem, decide_eq_false_iff_not] at hs
          refine ⟨.leaf .., by simp, by simp, by simpa using hp, fun hn => ?_⟩
          exact List.nodup_cons.mpr ⟨hs, hn⟩
    | split =>
      rw [validateLayoutNode] at h
      split at h
      · cases h
      · split at h
        · cases h
        · rename_i hd hlen
          cases hv : validateLayoutNodes tab cs seen with
          | error err => rw [hv] at h; cases h
          | ok r =>
            obtain ⟨cs', seen''⟩ := r
            rw [hv] at h
            simp only [Except.ok.injEq, Prod.mk.injEq] at h
            obtain ⟨rfl, rfl⟩ := h
            obtain ⟨hlen', hws, hls, hval⟩ := validateLayoutNodes_ok hv
            have hd' : LegalDirection d := by
              unfold LegalDirection
              by_contra hno
              exact hd ⟨fun e => hno (Or.inl e), fun e => hno (Or.inr e)⟩
            have hl : leavesOf (if (cs'.map LayoutNode.size).sum ≤ 0 then
                cs'.map (LayoutNode.setSize (100 / cs'.length)) else cs') = leavesOf cs' := by
              split
              · exact leavesOf_map (leaves_setSize _) cs'
              · rfl
            refine ⟨.split hd' ?_ ?_, ?_, ?_⟩
            · split
              · rw [List.length_map]; omega
              · omega
            · intro c hc
              split at hc
              · obtain ⟨c', hc', rfl⟩ := List.mem_map.mp hc
                exact (hws c' hc').setSize _
              · exact hws c hc
            · rw [leaves_split, leaves_split, hl, hls]
            · rw [leaves_split, hl]; exact hval
    | other name => simp [validateLayoutNode] at h

theorem validateLayoutNodes_ok {tab : TerminalTab} : ∀ {cs cs' : List LayoutNode} {seen seen' : List String},
    validateLayoutNodes tab cs seen = .ok (cs', seen') →
      cs'.length = cs.length ∧ (∀ c ∈ cs', WellFormedLayout c) ∧ leavesOf cs' = leavesOf cs ∧
        Validated tab seen seen' (leavesOf cs')
  | [], cs', seen, seen', h => by
    simp only [validateLayoutNodes, Except.ok.injEq, Prod.mk.injEq] at h
    obtain ⟨rfl, rfl⟩ := h
    exact ⟨rfl, by simp, rfl, by simp [Validated]⟩
  | c :: cs, cs', seen, seen', h => by
    rw [validateLayoutNodes] at h
    cases hc : validateLayoutNode tab c seen with
    | error err => rw [hc] at h; cases h
    | ok r =>
      obtain ⟨c', seen₁⟩ := r
      rw [hc] at h
      simp only at h
      cases hcs : validateLayoutNodes tab cs seen₁ with
      | error err => rw [hcs] at h; cases h
      | ok r' =>
        obtain ⟨cs'', seen₂⟩ := r'
        rw [hcs] at h
        simp only [Except.ok.injEq, Prod.mk.injEq] at h
        obtain ⟨rfl, rfl⟩ := h
        obtain ⟨hw, hl, hval⟩ := validateLayoutNode_ok hc
        obtain ⟨hlen, hws, hls, hvals⟩ := validateLayoutNodes_ok hcs
        refine ⟨by simp [hlen], ?_, ?_, ?_⟩
        · intro x hx
          rcases List.mem_cons.mp hx with rfl | hx
          · exact hw.clampChildSize
          · exact hws x hx
        · rw [leavesOf_cons, leavesOf_cons, leaves_clampChildSize, hl, hls]
        · rw [leavesOf_cons, leaves_clampChildSize]
          exact hval.append hvals
end

theorem validateLayoutForTab_ok {tab : TerminalTab} {n n' : LayoutNode} (h : validateLayoutForTab n tab = .ok n') :
    WellFormedLayout n' ∧ n'.leaves = n.leaves ∧ n'.leaves.Nodup ∧ n'.leaves.Perm tab.PaneIDs := by
  unfold validateLayoutForTab at h
  cases hv : validateLayoutNode tab n [] with
  | error err => rw [hv] at h; cases h
  | ok r =>
    obtain ⟨m, seen⟩ := r
    rw [hv] at h
    simp only at h
    split at h
    · cases h
    · split at h
      · cases h
      · rename_i hlen hcount
        cases h
        obtain ⟨hw, hl, hseen, hmem, hnodup⟩ := validateLayoutNode_ok hv
        rw [List.append_nil] at hseen
        have hn : n'.leaves.Nodup := by
          have := hnodup List.nodup_nil
          rwa [hseen, List.nodup_reverse] at this
        refine ⟨hw, hl, hn, (List.subperm_of_subset hn hmem).perm_of_length_le ?_⟩
        rw [hseen, List.length_reverse] at hlen
        omega

mutual
/-- A tree is accepted when its leaves are panes of the tab not seen before. -/
theorem validateLayoutNode_accepts {tab : TerminalTab} : ∀ {n : LayoutNode} {seen : List String},
    LayoutTree LegalDirection n → (∀ p ∈ n.leaves, p ∈ tab.PaneIDs ∧ p ∉ seen) → n.leaves.Nodup →
      ∃ n', validateLayoutNode tab n seen = .ok (n', n.leaves.reverse ++ seen)
  | .nil, seen, h, _, _ => nomatch h
  | .node t d p cs z, seen, h, hp, hn => by
    cases h with
    | leaf =>
      have hp := hp p (by simp)
      rw [validateLayoutNode, if_neg (by simpa [TerminalTab.hasPane] using hp.1), if_neg (by simpa using hp.2)]
      exact ⟨_, rfl⟩
    | split hd hl hw =>
      rw [leaves_split] at hp hn ⊢
      obtain ⟨cs', hcs⟩ := validateLayoutNodes_accepts hw hp hn
      rw [validateLayoutNode, if_neg, if_neg (by omega), hcs]
      · exact ⟨_, rfl⟩
      · rcases hd with rfl | rfl <;> simp

theorem validateLayoutNodes_accepts {tab : TerminalTab} : ∀ {cs : List LayoutNode} {seen : List String},
    (∀ c ∈ cs, LayoutTree LegalDirection c) → (∀ p ∈ leavesOf cs, p ∈ tab.PaneIDs ∧ p ∉ seen) → (leavesOf cs).Nodup →
      ∃ cs', validateLayoutNodes tab cs seen = .ok (cs', (leavesOf cs).reverse ++ seen)
  | [], seen, _, _, _ => ⟨[], by simp [validateLayoutNodes]⟩
  | c :: cs, seen, hw, hp, hn => by
    rw [leavesOf_cons] at hp hn ⊢
    have hdisj := List.disjoint_of_nodup_append hn
    obtain ⟨c', hc⟩ := validateLayoutNode_accepts (hw c (List.mem_cons_self ..))
      (fun p h => hp p (List.mem_append_left _ h)) (List.nodup_append.mp hn).1
    have hrest : ∀ p ∈ leavesOf cs, p ∈ tab.PaneIDs ∧ p ∉ c.leaves.reverse ++ seen := by
      intro p h
      obtain ⟨hin, hseen⟩ := hp p (List.mem_append_right _ h)
      refine ⟨hin, fun hm => ?_⟩
      rcases List.mem_append.mp hm with hm | hm
      · exact hdisj (List.mem_reverse.mp hm) h
      · exact hseen hm
    obtain ⟨cs', hcs⟩ := validateLayoutNodes_accepts (fun x h => hw x (List.mem_cons_of_mem _ h)) hrest
      (List.nodup_append.mp hn).2.1
    rw [validateLayoutNodes, hc]
    simp only
    rw [hcs]
    exact ⟨clampChildSize c' :: cs', by simp⟩
end

/-- A tree that shows a tab's panes, each once, is a layout for it. -/
theorem validateLayoutForTab_accepts {tab : TerminalTab} {n : LayoutNode} (hw : LayoutTree LegalDirection n)
    (hn : n.leaves.Nodup) (hl : n.leaves.Perm tab.PaneIDs) : ∃ n', validateLayoutForTab n tab = .ok n' := by
  obtain ⟨n', hv⟩ := validateLayoutNode_accepts hw (fun p h => ⟨hl.mem_iff.mp h, List.not_mem_nil⟩) hn
  refine ⟨n', ?_⟩
  unfold validateLayoutForTab
  rw [hv, List.append_nil]
  simp only
  rw [if_neg (by simp [hl.length_eq]), if_neg]
  simp only [List.any_eq_true, decide_eq_true_eq, not_exists, not_and, not_not]
  intro p h
  rw [List.count_reverse]
  exact List.count_eq_one_of_mem hn (hl.mem_iff.mpr h)

end Webshell
