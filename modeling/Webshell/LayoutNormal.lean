import Webshell.LayoutSound
import Mathlib.Data.List.Forall2
import Mathlib.Tactic.Linarith
import Mathlib.Tactic.NormNum

/-!
# The normal form of a layout

An accepted layout comes back with the same shape and the fields nobody reads
cleared. Children end between 5 and 95, so the total is positive and equal
shares are never dealt out.
-/

namespace Webshell

/-- The same tree up to sizes and the fields that a leaf or a split does not use. -/
inductive SameShape : LayoutNode → LayoutNode → Prop
  | leaf (d d' : Direction) (p : String) (cs cs' : List LayoutNode) (z z' : ℚ) :
      SameShape (.node .leaf d p cs z) (.node .leaf d' p cs' z')
  | split (d : Direction) (p p' : String) {cs cs' : List LayoutNode} (z z' : ℚ) :
      List.Forall₂ SameShape cs cs' → SameShape (.node .split d p cs z) (.node .split d p' cs' z')

inductive CleanLayout : LayoutNode → Prop
  | leaf (p : String) (z : ℚ) : CleanLayout (.node .leaf .none p [] z)
  | split {d : Direction} {cs : List LayoutNode} (z : ℚ) : LegalDirection d → 2 ≤ cs.length →
      (∀ c ∈ cs, CleanLayout c) → (∀ c ∈ cs, 5 ≤ c.size ∧ c.size ≤ 95) → CleanLayout (.node .split d "" cs z)

theorem SameShape.setSize {n n' : LayoutNode} (h : SameShape n n') (z : ℚ) : SameShape n (n'.setSize z) := by
  cases h with
  | leaf => exact .leaf ..
  | split d p p' z z' hcs => exact .split d p p' _ _ hcs

theorem SameShape.clamp {n n' : LayoutNode} (h : SameShape n n') : SameShape n (clampChildSize n') :=
  clampChildSize_keeps SameShape.setSize h

theorem CleanLayout.setSize {n : LayoutNode} (h : CleanLayout n) (z : ℚ) : CleanLayout (n.setSize z) := by
  cases h with
  | leaf p => exact .leaf p z
  | split z' hd hl hc hz => exact .split z hd hl hc hz

theorem CleanLayout.clamp {n : LayoutNode} (h : CleanLayout n) : CleanLayout (clampChildSize n) :=
  clampChildSize_keeps CleanLayout.setSize h

theorem CleanLayout.ne_nil {n : LayoutNode} (h : CleanLayout n) : n ≠ .nil := by
  rintro rfl
  cases h

theorem CleanLayout.tree {n : LayoutNode} (h : CleanLayout n) : LayoutTree LegalDirection n := by
  induction h with
  | leaf p z => exact .leaf ..
  | split z hd hl _ _ ih => exact .split hd hl ih

theorem setSize_size {n : LayoutNode} (h : n ≠ .nil) (z : ℚ) : (n.setSize z).size = z := by
  cases n with
  | nil => exact absurd rfl h
  | node => rfl

/-- The bounds, and what is changed to meet them. -/
theorem clampChildSize_spec {n : LayoutNode} (h : n ≠ .nil) :
    5 ≤ (clampChildSize n).size ∧ (clampChildSize n).size ≤ 95 ∧
      (5 ≤ n.size ∧ n.size ≤ 95 → clampChildSize n = n) := by
  have hne : ∀ z, n.setSize z ≠ .nil := by
    intro z
    cases n with
    | nil => exact absurd rfl h
    | node => simp [LayoutNode.setSize]
  unfold clampChildSize
  simp only
  by_cases hlow : n.size < 5
  · rw [if_pos hlow, setSize_size h, if_neg (by norm_num)]
    rw [setSize_size h]
    exact ⟨le_refl _, by norm_num, fun hb => absurd hlow (not_lt.mpr hb.1)⟩
  · rw [if_neg hlow]
    by_cases hhigh : n.size > 95
    · rw [if_pos hhigh, setSize_size h]
      exact ⟨by norm_num, le_refl _, fun hb => absurd hhigh (not_lt.mpr hb.2)⟩
    · rw [if_neg hhigh]
      exact ⟨not_lt.mp hlow, not_lt.mp hhigh, fun _ => rfl⟩

theorem sum_sizes_pos {cs : List LayoutNode} (hne : cs ≠ []) (h : ∀ c ∈ cs, 5 ≤ c.size) :
    0 < (cs.map LayoutNode.size).sum := by
  induction cs with
  | nil => exact absurd rfl hne
  | cons c cs ih =>
    have hc := h c (List.mem_cons_self ..)
    rw [List.map_cons, List.sum_cons]
    by_cases he : cs = []
    · rw [he]
      simp only [List.map_nil, List.sum_nil]
      linarith
    · have := ih he fun x hx => h x (List.mem_cons_of_mem _ hx)
      linarith

section
variable {tab : TerminalTab}

mutual
theorem validateLayoutNode_clean : ∀ {n n' : LayoutNode} {seen seen' : List String},
    validateLayoutNode tab n seen = .ok (n', seen') → LayoutTree LegalDirection n ∧ SameShape n n' ∧ CleanLayout n'
  | .nil, n', seen, seen', h => by simp [validateLayoutNode] at h
  | .node t d p cs z, n', seen, seen', h => by
    cases t with
    | leaf =>
      rw [validateLayoutNode] at h
      split at h
      · cases h
      · split at h
        · cases h
        · cases h
          exact ⟨.leaf .., .leaf .., .leaf ..⟩
    | split =>
      rw [validateLayoutNode] at h
      split at h
      · cases h
      · rename_i hd
        have hd' : LegalDirection d := by
          unfold LegalDirection
          by_contra hno
          exact hd ⟨fun e => hno (Or.inl e), fun e => hno (Or.inr e)⟩
        split at h
        · cases h
        · rename_i hlen
          cases hv : validateLayoutNodes tab cs seen with
          | error err => rw [hv] at h; cases h
          | ok r =>
            obtain ⟨cs', seen''⟩ := r
            rw [hv] at h
            obtain ⟨htree, hshape, hnormal, hsize⟩ := validateLayoutNodes_clean hv
            have hlen' : 2 ≤ cs'.length := by rw [← hshape.length_eq]; omega
            have hpos := sum_sizes_pos (List.ne_nil_of_length_pos (by omega)) fun c hc => (hsize c hc).1
            simp only [if_neg (not_le.mpr hpos), Except.ok.injEq, Prod.mk.injEq] at h
            obtain ⟨rfl, rfl⟩ := h
            exact ⟨.split hd' (by omega) htree, .split d p "" z z hshape, .split z hd' hlen' hnormal hsize⟩
    | other name => simp [validateLayoutNode] at h

theorem validateLayoutNodes_clean : ∀ {cs cs' : List LayoutNode} {seen seen' : List String},
    validateLayoutNodes tab cs seen = .ok (cs', seen') → (∀ c ∈ cs, LayoutTree LegalDirection c) ∧
      List.Forall₂ SameShape cs cs' ∧ (∀ c ∈ cs', CleanLayout c) ∧ ∀ c ∈ cs', 5 ≤ c.size ∧ c.size ≤ 95
  | [], cs', seen, seen', h => by
    simp only [validateLayoutNodes, Except.ok.injEq, Prod.mk.injEq] at h
    obtain ⟨rfl, rfl⟩ := h
    simp
  | c :: cs, cs', seen, seen', h => by
    rw [validateLayoutNodes] at h
    cases hc : validateLayoutNode tab c seen with
    | error err => rw [hc] at h; cases h
    | ok r =>
      obtain ⟨c', seen₁⟩ := r
      rw [hc] at h
      simp only at h
      cases hcs : validateLayoutNodes tab cs seen₁ with
      | error err => rw [hcs] at h; cases h
      | ok r' =>
        obtain ⟨cs'', seen₂⟩ := r'
        rw [hcs] at h
        simp only [Except.ok.injEq, Prod.mk.injEq] at h
        obtain ⟨rfl, rfl⟩ := h
        obtain ⟨htree, hshape, hnormal⟩ := validateLayoutNode_clean hc
        obtain ⟨htrees, hshapes, hnormals, hsizes⟩ := validateLayoutNodes_clean hcs
        simp only [List.forall_mem_cons]
        exact ⟨⟨htree, htrees⟩, .cons hshape.clamp hshapes, ⟨hnormal.clamp, hnormals⟩,
          (fun h => ⟨h.1, h.2.1⟩) (clampChildSize_spec hnormal.ne_nil), hsizes⟩
end

mutual
/-- Validating a normal layout that is accepted changes nothing. -/
theorem validateLayoutNode_fixed : ∀ {n n' : LayoutNode} {seen seen' : List String}, CleanLayout n →
    validateLayoutNode tab n seen = .ok (n', seen') → n' = n
  | .nil, n', seen, seen', hn, _ => nomatch hn
  | .node t d p cs z, n', seen, seen', hn, h => by
    cases hn with
    | leaf =>
      rw [validateLayoutNode] at h
      split at h
      · cases h
      · split at h
        · cases h
        · cases h; rfl
    | split z' hd hl hc hz =>
      rw [validateLayoutNode] at h
      split at h
      · cases h
      · split at h
        · cases h
        · cases hv : validateLayoutNodes tab cs seen with
          | error err => rw [hv] at h; cases h
          | ok r =>
            obtain ⟨cs', seen''⟩ := r
            rw [hv] at h
            obtain rfl := validateLayoutNodes_fixed hc hz hv
            have hpos := sum_sizes_pos (List.ne_nil_of_length_pos (by omega)) fun c hc => (hz c hc).1
            simp only [if_neg (not_le.mpr hpos), Except.ok.injEq, Prod.mk.injEq] at h
            exact h.1.symm

theorem validateLayoutNodes_fixed : ∀ {cs cs' : List LayoutNode} {seen seen' : List String},
    (∀ c ∈ cs, CleanLayout c) → (∀ c ∈ cs, 5 ≤ c.size ∧ c.size ≤ 95) →
      validateLayoutNodes tab cs seen = .ok (cs', seen') → cs' = cs
  | [], cs', seen, seen', _, _, h => by
    simp only [validateLayoutNodes, Except.ok.injEq, Prod.mk.injEq] at h
    exact h.1.symm
  | c :: cs, cs', seen, seen', hn, hz, h => by
    rw [validateLayoutNodes] at h
    cases hc : validateLayoutNode tab c seen with
    | error err => rw [hc] at h; cases h
    | ok r =>
      obtain ⟨c', seen₁⟩ := r
      rw [hc] at h
      simp only at h
      cases hcs : validateLayoutNodes tab cs seen₁ with
      | error err => rw [hcs] at h; cases h
      | ok r' =>
        obtain ⟨cs'', seen₂⟩ := r'
        rw [hcs] at h
        simp only [Except.ok.injEq, Prod.mk.injEq] at h
        obtain ⟨rfl, rfl⟩ := h
        obtain rfl := validateLayoutNode_fixed (hn c (List.mem_cons_self ..)) hc
        obtain rfl := validateLayoutNodes_fixed (fun x hx => hn x (List.mem_cons_of_mem _ hx))
          (fun x hx => hz x (List.mem_cons_of_mem _ hx)) hcs
        have hc' := hz c' (List.mem_cons_self ..)
        rw [(clampChildSize_spec (hn c' (List.mem_cons_self ..)).ne_nil).2.2 hc']
end

theorem validateLayoutForTab_node {n n' : LayoutNode} (h : validateLayoutForTab n tab = .ok n') :
    ∃ seen, validateLayoutNode tab n [] = .ok (n', seen) := by
  unfold validateLayoutForTab at h
  cases hv : validateLayoutNode tab n [] with
  | error err => rw [hv] at h; cases h
  | ok r =>
    obtain ⟨m, seen⟩ := r
    rw [hv] at h
    simp only at h
    split at h
    · cases h
    · split at h
      · cases h
      · cases h; exact ⟨seen, rfl⟩

end

/-- Which layouts a tab accepts, what it makes of them, and that once is enough. -/
theorem validateLayoutForTab_normal (n : LayoutNode) (tab : TerminalTab) :
    ((∃ n', validateLayoutForTab n tab = .ok n') ↔
        LayoutTree LegalDirection n ∧ n.leaves.Nodup ∧ n.leaves.Perm tab.PaneIDs) ∧
      ∀ n', validateLayoutForTab n tab = .ok n' → SameShape n n' ∧ CleanLayout n' ∧ n'.leaves = n.leaves ∧
        validateLayoutForTab n' tab = .ok n' := by
  refine ⟨⟨?_, fun ⟨hw, hn, hl⟩ => validateLayoutForTab_accepts hw hn hl⟩, fun n' h => ?_⟩
  · rintro ⟨n', h⟩
    obtain ⟨-, hl, hn, hp⟩ := validateLayoutForTab_ok h
    obtain ⟨seen, hv⟩ := validateLayoutForTab_node h
    rw [← hl]
    exact ⟨(validateLayoutNode_clean hv).1, hn, hp⟩
  · obtain ⟨-, hl, hn, hp⟩ := validateLayoutForTab_ok h
    obtain ⟨seen, hv⟩ := validateLayoutForTab_node h
    obtain ⟨-, hshape, hnormal⟩ := validateLayoutNode_clean hv
    refine ⟨hshape, hnormal, hl, ?_⟩
    obtain ⟨m, hm⟩ := validateLayoutForTab_accepts hnormal.tree hn hp
    obtain ⟨seen', hv'⟩ := validateLayoutForTab_node hm
    rw [hm, validateLayoutNode_fixed hnormal hv']

/-- A size out of bounds and a leaf with a child of its own are both accepted. -/
theorem validateLayoutForTab_normal_pair :
    ∃ n', validateLayoutForTab
        (.node .split .vertical "pane-9" [leafNode "pane-2" 120, .node .leaf .vertical "pane-1" [.nil] 0] 7)
        { ID := "tab-1", Label := "", CustomLabel := false, ActivePaneID := "", Layout := .nil,
          PaneIDs := ["pane-1", "pane-2"] } = .ok n' ∧ CleanLayout n' ∧ n'.leaves = ["pane-2", "pane-1"] := by
  obtain ⟨haccepts, hnormal⟩ := validateLayoutForTab_normal
    (.node .split .vertical "pane-9" [leafNode "pane-2" 120, .node .leaf .vertical "pane-1" [.nil] 0] 7)
    { ID := "tab-1", Label := "", CustomLabel := false, ActivePaneID := "", Layout := .nil, PaneIDs := ["pane-1", "pane-2"] }
  obtain ⟨n', hn'⟩ := haccepts.mpr ⟨.split (Or.inl rfl) (by simp) (by
    intro c hc
    rcases List.mem_pair.mp hc with rfl | rfl <;> exact .leaf ..), by simp, by simp [List.Perm.swap]⟩
  obtain ⟨-, hclean, hl, -⟩ := hnormal n' hn'
  exact ⟨n', hn', hclean, by simpa using hl⟩

end Webshell
