import Webshell.LayoutNeighbour
import Mathlib.Tactic.NormNum

/-!
# Layouts in the browser

The browser edits the layouts it was sent with functions of its own. It splits
as the server does. Where removing a pane folds up a split of two, the server
hands the split's size on to the child that is left, the browser does not.
-/

namespace Webshell

/-- A node of the browser's. An empty list stands for absent children. -/
inductive BrowserNode
  | null
  | node (type : NodeType) (direction : Direction) (paneId : Option String) (children : List BrowserNode)
      (size : Option ℚ)

namespace BrowserNode

def isNull : BrowserNode → Bool
  | .null => true
  | .node .. => false

def size : BrowserNode → Option ℚ
  | .null => none
  | .node _ _ _ _ z => z

def setSize (size : ℚ) : BrowserNode → BrowserNode
  | .null => .null
  | .node t d p cs _ => .node t d p cs (some size)

end BrowserNode

/-- A size that is there and not zero. -/
def truthy (size : Option ℚ) : Bool := size.getD 0 ≠ 0

mutual
/-- The edited tree, or `none` when the answer is false. -/
def splitLayout (targetPaneId : String) (direction : Direction) (newPaneId : String) : BrowserNode → Option BrowserNode
  | .null => none
  | .node t d p cs z =>
    if t = .leaf ∧ p = some targetPaneId then
      some (.node .split direction none
        [.node .leaf .none (some targetPaneId) [] (some 50), .node .leaf .none (some newPaneId) [] (some 50)]
        (if truthy z then z else none))
    else if t = .split then (splitLayouts targetPaneId direction newPaneId cs).map fun cs' => .node t d p cs' z
    else none
def splitLayouts (targetPaneId : String) (direction : Direction) (newPaneId : String) :
    List BrowserNode → Option (List BrowserNode)
  | [] => none
  | c :: cs =>
    match splitLayout targetPaneId direction newPaneId c with
    | some c' => some (c' :: cs)
    | none => (splitLayouts targetPaneId direction newPaneId cs).map (c :: ·)
end

/-- What is left of a split whose remaining children are `children`. -/
def foldSplit (type : NodeType) (direction : Direction) (paneId : Option String) (size : Option ℚ) :
    List BrowserNode → BrowserNode
  | [] => .null
  | [c] => c
  | children =>
    let share : ℚ := 100 / children.length
    .node type direction paneId (children.map fun c => if truthy c.size then c else c.setSize share) size

mutual
def removePaneFromLayout (paneId : String) : BrowserNode → BrowserNode
  | .null => .null
  | .node t d p cs z =>
    if t = .leaf then if p = some paneId then .null else .node t d p cs z
    else if t = .split then foldSplit t d p z (removePaneFromLayouts paneId cs)
    else .node t d p cs z
def removePaneFromLayouts (paneId : String) : List BrowserNode → List BrowserNode
  | [] => []
  | c :: cs =>
    let next := removePaneFromLayout paneId c
    if next.isNull then removePaneFromLayouts paneId cs else next :: removePaneFromLayouts paneId cs
end

/-! ## Between the two -/

mutual
/-- The node the browser reads from a layout's JSON, where what is empty is left out. -/
def ofLayout : LayoutNode → BrowserNode
  | .nil => .null
  | .node t d p cs z =>
    .node t d (if p = "" then none else some p) (ofLayouts cs) (if z = 0 then none else some z)
def ofLayouts : List LayoutNode → List BrowserNode
  | [] => []
  | c :: cs => ofLayout c :: ofLayouts cs
end

mutual
def toLayout : BrowserNode → LayoutNode
  | .null => .nil
  | .node t d p cs z => .node t d (p.getD "") (toLayouts cs) (z.getD 0)
def toLayouts : List BrowserNode → List LayoutNode
  | [] => []
  | c :: cs => toLayout c :: toLayouts cs
end

theorem size_getD (z : ℚ) : (if z = 0 then none else some z).getD 0 = z := by
  split
  · rename_i h
    exact h.symm
  · rfl

theorem truthy_getD (z : Option ℚ) : (if truthy z then z else none).getD 0 = z.getD 0 := by
  unfold truthy
  by_cases h : z.getD 0 = 0
  · simp [h]
  · simp [h]

theorem paneId_getD (p : String) : (if p = "" then none else some p).getD "" = p := by
  split
  · rename_i h
    exact h.symm
  · rfl

mutual
theorem toLayout_ofLayout : ∀ n : LayoutNode, toLayout (ofLayout n) = n
  | .nil => rfl
  | .node t d p cs z => by
    rw [ofLayout, toLayout, toLayouts_ofLayouts cs, size_getD, paneId_getD]
theorem toLayouts_ofLayouts : ∀ cs : List LayoutNode, toLayouts (ofLayouts cs) = cs
  | [] => rfl
  | c :: cs => by rw [ofLayouts, toLayouts, toLayout_ofLayout c, toLayouts_ofLayouts cs]
end

theorem toLayouts_map (cs : List BrowserNode) : toLayouts cs = cs.map toLayout := by
  induction cs with
  | nil => rfl
  | cons c cs ih => rw [toLayouts, ih, List.map_cons]

theorem ofLayouts_map (cs : List LayoutNode) : ofLayouts cs = cs.map ofLayout := by
  induction cs with
  | nil => rfl
  | cons c cs ih => rw [ofLayouts, ih, List.map_cons]

theorem toLayout_size (n : BrowserNode) : (toLayout n).size = n.size.getD 0 := by cases n <;> rfl

theorem toLayout_setSize (n : BrowserNode) (z : ℚ) : toLayout (n.setSize z) = (toLayout n).setSize z := by
  cases n <;> rfl

theorem toLayout_isNil (n : BrowserNode) : (toLayout n).isNil = n.isNull := by cases n <;> rfl

/-! ## Splitting -/

mutual
theorem splitLayout_agrees {target : String} (direction : Direction) (new : String) : ∀ {n : LayoutNode},
    WellFormedLayout n → "" ∉ n.leaves →
    (splitLayout target direction new (ofLayout n)).map toLayout = splitLayoutNode target direction new n
  | .nil, h, _ => nomatch h
  | .node t d p cs z, h, hnamed => by
    rw [ofLayout, splitLayout, splitLayoutNode]
    cases h with
    | leaf =>
      rw [leaves_leaf, List.mem_singleton] at hnamed
      simp only [Ne.symm hnamed, if_false, Option.some.injEq, true_and, reduceCtorEq, splitLayoutNodes, Option.map_none]
      split
      · simp only [Option.map_some, toLayout, toLayouts, leafNode, Option.getD_some, Option.getD_none, truthy_getD, size_getD]
      · rfl
    | split hd hl hc =>
      rw [leaves_split] at hnamed
      simp only [reduceCtorEq, false_and, if_false, if_true]
      rw [← splitLayouts_agree direction new hc hnamed]
      cases splitLayouts target direction new (ofLayouts cs) with
      | none => rfl
      | some cs' => simp only [Option.map_some, toLayout, size_getD, paneId_getD]
theorem splitLayouts_agree {target : String} (direction : Direction) (new : String) : ∀ {cs : List LayoutNode},
    (∀ c ∈ cs, WellFormedLayout c) → "" ∉ leavesOf cs →
    (splitLayouts target direction new (ofLayouts cs)).map toLayouts = splitLayoutNodes target direction new cs
  | [], _, _ => rfl
  | c :: cs, h, hnamed => by
    rw [leavesOf_cons, List.mem_append, not_or] at hnamed
    rw [ofLayouts, splitLayouts, splitLayoutNodes, ← splitLayout_agrees direction new (h c (List.mem_cons_self ..)) hnamed.1,
      ← splitLayouts_agree direction new (fun c hc => h c (List.mem_cons_of_mem _ hc)) hnamed.2]
    cases splitLayout target direction new (ofLayout c) with
    | some c' => simp only [Option.map_some, toLayouts, toLayouts_ofLayouts]
    | none =>
      cases splitLayouts target direction new (ofLayouts cs) with
      | none => rfl
      | some cs' => simp only [Option.map_none, Option.map_some, toLayouts, toLayout_ofLayout]
end

/-! ## Removing -/

/-- The size of a node whose parent gives it `share` if it has none. -/
def settled (share size : ℚ) : ℚ := if size = 0 then share else size

def settle (share : ℚ) (n : LayoutNode) : LayoutNode := n.setSize (settled share n.size)

/-- What the browser leaves of a layout. -/
def browserRemove (p : String) (n : LayoutNode) : LayoutNode := toLayout (removePaneFromLayout p (ofLayout n))

def browserRemoves (p : String) (cs : List LayoutNode) : List LayoutNode :=
  toLayouts (removePaneFromLayouts p (ofLayouts cs))

def foldLayout (d : Direction) (q : String) (z : ℚ) : List LayoutNode → LayoutNode
  | [] => .nil
  | [c] => c
  | cs => .node .split d q (cs.map (settle (100 / cs.length))) z

theorem setSize_self (n : LayoutNode) : n.setSize n.size = n := by cases n <;> rfl

theorem setSize_setSize (n : LayoutNode) (y z : ℚ) : (n.setSize y).setSize z = n.setSize z := by cases n <;> rfl

theorem settle_truthy (share : ℚ) (n : BrowserNode) :
    toLayout (if truthy n.size then n else n.setSize share) = settle share (toLayout n) := by
  unfold settle settled truthy
  rw [toLayout_size]
  by_cases h : n.size.getD 0 = 0
  · simp [h, toLayout_setSize]
  · simp only [h, ne_eq, not_false_eq_true, decide_true, if_true, if_false]
    rw [← toLayout_size, setSize_self]

theorem browserRemove_leaf {p q : String} (hq : q ≠ "") (d : Direction) (cs : List LayoutNode) (z : ℚ) :
    browserRemove p (.node .leaf d q cs z) = if q = p then .nil else .node .leaf d q cs z := by
  unfold browserRemove
  rw [ofLayout, removePaneFromLayout]
  simp only [if_true, if_neg hq, Option.some.injEq]
  split
  · rfl
  · rw [toLayout, toLayouts_ofLayouts, size_getD]
    rfl

theorem browserRemove_split (p q : String) (d : Direction) (cs : List LayoutNode) (z : ℚ) :
    browserRemove p (.node .split d q cs z) = foldLayout d q z (browserRemoves p cs) := by
  unfold browserRemove browserRemoves
  rw [ofLayout, removePaneFromLayout]
  simp only [reduceCtorEq, if_false, if_true]
  rcases removePaneFromLayouts p (ofLayouts cs) with _ | ⟨a, _ | ⟨b, rest⟩⟩
  · rfl
  · rfl
  · simp only [foldSplit, foldLayout, toLayout, toLayouts_map, paneId_getD, size_getD, List.map_cons, List.map_map,
      settle_truthy, List.length_cons, List.length_map]
    congr 3
    exact List.map_congr_left fun c _ => settle_truthy _ c

theorem browserRemoves_cons (p : String) (c : LayoutNode) (cs : List LayoutNode) :
    browserRemoves p (c :: cs) =
      if (browserRemove p c).isNil then browserRemoves p cs else browserRemove p c :: browserRemoves p cs := by
  unfold browserRemoves browserRemove
  rw [ofLayouts, removePaneFromLayouts, toLayout_isNil]
  split <;> rfl

theorem removes_append (p : String) (l r : List LayoutNode) :
    browserRemoves p (l ++ r) = browserRemoves p l ++ browserRemoves p r ∧
      removePaneFromLayoutNodes p (l ++ r) = removePaneFromLayoutNodes p l ++ removePaneFromLayoutNodes p r := by
  induction l with
  | nil => exact ⟨rfl, rfl⟩
  | cons c l ih =>
    simp only [List.cons_append, browserRemoves_cons, removePaneFromLayoutNodes, ih.1, ih.2]
    constructor <;> split <;> rfl

mutual
/-- All nodes below have a size, or none. -/
def ChildrenSized : LayoutNode → Prop
  | .nil => True
  | .node _ _ _ cs _ => AllSized cs
def AllSized : List LayoutNode → Prop
  | [] => True
  | c :: cs => 0 ≤ c.size ∧ ChildrenSized c ∧ AllSized cs
end

theorem allSized_iff {cs : List LayoutNode} : AllSized cs ↔ ∀ c ∈ cs, 0 ≤ c.size ∧ ChildrenSized c := by
  induction cs with
  | nil => simp [AllSized]
  | cons c cs ih => simp [AllSized, ih, and_assoc]

/-- A layout as a tab has it: panes with names, each once. -/
structure PaneLayout (n : LayoutNode) : Prop where
  wellFormed : WellFormedLayout n
  named : "" ∉ n.leaves
  sized : ChildrenSized n

theorem PaneLayout.child {d : Direction} {q : String} {cs : List LayoutNode} {z : ℚ}
    (h : PaneLayout (.node .split d q cs z)) {c : LayoutNode} (hc : c ∈ cs) : PaneLayout c ∧ 0 ≤ c.size := by
  have hnamed := h.named
  rw [leaves_split] at hnamed
  have hsized := allSized_iff.mp h.sized c hc
  cases h.wellFormed with
  | split hd hl hcs => exact ⟨⟨hcs c hc, fun hm => hnamed (mem_leavesOf.mpr ⟨c, hc, hm⟩), hsized.2⟩, hsized.1⟩

theorem settle_nonneg {share : ℚ} {c : LayoutNode} (h : 0 ≤ c.size) :
    (if c.size ≤ 0 then c.setSize share else c) = settle share c := by
  unfold settle settled
  by_cases hz : c.size = 0
  · rw [if_pos (le_of_eq hz), if_pos hz]
  · rw [if_neg (fun hle => hz (le_antisymm hle h)), if_neg hz, setSize_self]

theorem collapse_many {d : Direction} {q : String} {z : ℚ} {cs : List LayoutNode} (hl : 2 ≤ cs.length)
    (hs : ∀ c ∈ cs, 0 ≤ c.size) : collapseSplit .split d q z cs = .node .split d q (cs.map (settle (100 / cs.length))) z := by
  match cs, hl with
  | a :: b :: rest, _ =>
    simp only [collapseSplit]
    congr 1
    exact List.map_congr_left fun c hc => settle_nonneg (hs c hc)

theorem fold_many {d : Direction} {q : String} {z : ℚ} {cs : List LayoutNode} (hl : 2 ≤ cs.length) :
    foldLayout d q z cs = .node .split d q (cs.map (settle (100 / cs.length))) z := by
  match cs, hl with
  | a :: b :: rest, _ => rfl

/-! ## A pane that is not there -/

section
variable {p : String}

/-- Without the pane both leave a tree of the same size. -/
structure Untouched (p : String) (n : LayoutNode) : Prop where
  same : browserRemove p n = removePaneFromLayoutNode p n
  there : (removePaneFromLayoutNode p n).isNil = false
  size : (removePaneFromLayoutNode p n).size = n.size

theorem removes_untouched {cs : List LayoutNode} (h : ∀ c ∈ cs, Untouched p c) :
    browserRemoves p cs = removePaneFromLayoutNodes p cs ∧
      removePaneFromLayoutNodes p cs = cs.map (removePaneFromLayoutNode p) := by
  induction cs with
  | nil => exact ⟨rfl, rfl⟩
  | cons c cs ih =>
    have hc := h c (List.mem_cons_self ..)
    obtain ⟨hb, hg⟩ := ih fun x hx => h x (List.mem_cons_of_mem _ hx)
    rw [browserRemoves_cons, removePaneFromLayoutNodes, hc.same, hc.there, hb, hg]
    exact ⟨rfl, rfl⟩

theorem untouched {n : LayoutNode} (h : PaneLayout n) (hp : p ∉ n.leaves) : Untouched p n := by
  have hw := h.wellFormed
  induction hw with
  | leaf d q z =>
    have hq : q ≠ "" := fun he => h.named (by rw [leaves_leaf, he]; exact List.mem_singleton_self _)
    have hne : q ≠ p := fun he => hp (by rw [leaves_leaf, he]; exact List.mem_singleton_self _)
    have hgo : removePaneFromLayoutNode p (.node .leaf d q [] z) = .node .leaf d q [] z := by
      rw [removePaneFromLayoutNode, if_pos rfl, if_neg hne]
      rfl
    refine ⟨?_, ?_, ?_⟩
    · rw [browserRemove_leaf hq, if_neg hne, hgo]
    · rw [hgo]
      rfl
    · rw [hgo]
  | @split d q cs z hd hl hcs ih =>
    rw [leaves_split] at hp
    have hall : ∀ c ∈ cs, Untouched p c := fun c hc =>
      ih c hc (h.child hc).1 fun hm => hp (mem_leavesOf.mpr ⟨c, hc, hm⟩)
    obtain ⟨hb, hg⟩ := removes_untouched hall
    have hlen : 2 ≤ (removePaneFromLayoutNodes p cs).length := by rwa [hg, List.length_map]
    have hsizes : ∀ c ∈ removePaneFromLayoutNodes p cs, 0 ≤ c.size := by
      rw [hg]
      intro c hc
      obtain ⟨x, hx, rfl⟩ := List.mem_map.mp hc
      rw [(hall x hx).size]
      exact (h.child hx).2
    have hgo : removePaneFromLayoutNode p (.node .split d q cs z) =
        collapseSplit .split d q z (removePaneFromLayoutNodes p cs) := by
      rw [removePaneFromLayoutNode, if_neg (by simp)]
    rw [collapse_many hlen hsizes] at hgo
    refine ⟨?_, ?_, ?_⟩
    · rw [browserRemove_split, hb, fold_many hlen, hgo]
    · rw [hgo]
      rfl
    · rw [hgo]
      rfl

/-! ## Where sizes agree -/

def LayoutNode.shows (paneID : String) : LayoutNode → Bool
  | .node .leaf _ q _ _ => q = paneID
  | _ => false

/-- Of a split of two, the child that is left has the split's size already, or the split has none. -/
def PairAgrees (paneID : String) (share z : ℚ) : List LayoutNode → Prop
  | [a, b] =>
    (a.shows paneID = true → z ≤ 0 ∨ settled share b.size = z) ∧
    (b.shows paneID = true → z ≤ 0 ∨ settled share a.size = z)
  | _ => True

mutual
/-- `share` is what the node gets from its parent if it has no size. -/
def FoldsAgree (paneID : String) (share : ℚ) : LayoutNode → Prop
  | .nil => True
  | .node t _ _ cs z => t = .leaf ∨ (PairAgrees paneID share z cs ∧ FoldsAgreeAll paneID (100 / cs.length) cs)
def FoldsAgreeAll (paneID : String) (share : ℚ) : List LayoutNode → Prop
  | [] => True
  | c :: cs => FoldsAgree paneID share c ∧ FoldsAgreeAll paneID share cs
end

theorem foldsAgreeAll_iff {share : ℚ} {cs : List LayoutNode} :
    FoldsAgreeAll p share cs ↔ ∀ c ∈ cs, FoldsAgree p share c := by
  induction cs with
  | nil => simp [FoldsAgreeAll]
  | cons c cs ih => simp [FoldsAgreeAll, ih]

theorem shows_iff {n : LayoutNode} (h : WellFormedLayout n) : n.shows p = true → p ∈ n.leaves := by
  cases h with
  | leaf d q z => simp [LayoutNode.shows, eq_comm]
  | split => simp [LayoutNode.shows]

theorem pairAgrees_of_not_shows {share z : ℚ} {cs : List LayoutNode} (h : ∀ c ∈ cs, c.shows p = false) :
    PairAgrees p share z cs := by
  unfold PairAgrees
  split
  · rename_i a b
    rw [h a (by simp), h b (by simp)]
    simp
  · trivial

theorem foldsAgree_notMem {n : LayoutNode} (h : WellFormedLayout n) (hp : p ∉ n.leaves) (share : ℚ) :
    FoldsAgree p share n := by
  induction h generalizing share with
  | leaf d q z => exact .inl rfl
  | @split d q cs z hd hl hcs ih =>
    rw [leaves_split] at hp
    have hno : ∀ c ∈ cs, p ∉ c.leaves := fun c hc hm => hp (mem_leavesOf.mpr ⟨c, hc, hm⟩)
    refine .inr ⟨pairAgrees_of_not_shows fun c hc => ?_, foldsAgreeAll_iff.mpr fun c hc => ih c hc (hno c hc) _⟩
    cases hs : c.shows p with
    | false => rfl
    | true => exact absurd (shows_iff (hcs c hc) hs) (hno c hc)

theorem pairAgrees_of_length {share z : ℚ} {cs : List LayoutNode} (h : cs.length ≠ 2) : PairAgrees p share z cs := by
  unfold PairAgrees
  split
  · exact absurd rfl h
  · trivial

/-! ## The pane that is removed -/

theorem mem_removes {cs : List LayoutNode} {x : LayoutNode} (h : x ∈ removePaneFromLayoutNodes p cs) :
    ∃ c ∈ cs, x = removePaneFromLayoutNode p c := by
  induction cs with
  | nil => cases h
  | cons c cs ih =>
    rw [removePaneFromLayoutNodes] at h
    split at h
    · obtain ⟨y, hy, he⟩ := ih h
      exact ⟨y, List.mem_cons_of_mem _ hy, he⟩
    · rcases List.mem_cons.mp h with he | h
      · exact ⟨c, List.mem_cons_self .., he⟩
      · obtain ⟨y, hy, he⟩ := ih h
        exact ⟨y, List.mem_cons_of_mem _ hy, he⟩

theorem remove_size_nonneg {n : LayoutNode} (h : PaneLayout n) (hz : 0 ≤ n.size) :
    0 ≤ (removePaneFromLayoutNode p n).size := by
  have hw := h.wellFormed
  induction hw with
  | leaf d q z =>
    rw [removePaneFromLayoutNode, if_pos rfl]
    split
    · exact le_refl _
    · exact hz
  | @split d q cs z hd hl hcs ih =>
    have hall : ∀ x ∈ removePaneFromLayoutNodes p cs, 0 ≤ x.size := by
      intro x hx
      obtain ⟨c, hc, rfl⟩ := mem_removes hx
      exact ih c hc (h.child hc).1 (h.child hc).2
    rw [removePaneFromLayoutNode, if_neg (by simp)]
    rcases hr : removePaneFromLayoutNodes p cs with _ | ⟨a, _ | ⟨b, rest⟩⟩
    · exact le_refl _
    · rw [hr] at hall
      have ha := hall a (List.mem_singleton_self _)
      simp only [collapseSplit]
      split
      · cases a with
        | nil => exact le_refl _
        | node t d q cs y => exact hz
      · exact ha
    · exact hz

theorem settle_setSize {x : LayoutNode} (hx : x.isNil = false) (share z : ℚ) :
    settle share x = settle share (if 0 < z then x.setSize z else x) ↔ z ≤ 0 ∨ settled share x.size = z := by
  have hsize (y : ℚ) : (x.setSize y).size = y := by
    cases x with
    | nil => cases hx
    | node => rfl
  by_cases hz : 0 < z
  · have hkept : settled share z = z := if_neg (ne_of_gt hz)
    rw [if_pos hz]
    unfold settle
    rw [hsize, setSize_setSize, hkept]
    constructor
    · intro he
      have he := congrArg LayoutNode.size he
      rw [hsize, hsize] at he
      exact .inr he
    · rintro (hle | he)
      · exact absurd hz (not_lt.mpr hle)
      · rw [he]
  · rw [if_neg hz]
    exact iff_of_true rfl (.inl (not_lt.mp hz))

theorem settle_node (share : ℚ) (d : Direction) (q : String) (cs : List LayoutNode) (z : ℚ) :
    settle share (.node .split d q cs z) = .node .split d q cs (settled share z) := rfl

/-- The split `cs`, of which only `c` has the pane. -/
theorem removes_middle {l r : List LayoutNode} {c : LayoutNode} (hl : ∀ x ∈ l ++ r, Untouched p x) :
    browserRemoves p (l ++ c :: r) = l.map (removePaneFromLayoutNode p) ++
        ((if (browserRemove p c).isNil then [] else [browserRemove p c]) ++ r.map (removePaneFromLayoutNode p)) ∧
      removePaneFromLayoutNodes p (l ++ c :: r) = l.map (removePaneFromLayoutNode p) ++
        ((if (removePaneFromLayoutNode p c).isNil then [] else [removePaneFromLayoutNode p c]) ++
          r.map (removePaneFromLayoutNode p)) := by
  obtain ⟨hbl, hgl⟩ := removes_untouched fun x hx => hl x (List.mem_append_left _ hx)
  obtain ⟨hbr, hgr⟩ := removes_untouched fun x hx => hl x (List.mem_append_right _ hx)
  obtain ⟨hb, hg⟩ := removes_append p l (c :: r)
  rw [hb, hg, hbl, hgl, browserRemoves_cons, removePaneFromLayoutNodes, hbr, hgr]
  constructor <;> split <;> rfl

theorem remove_split (d : Direction) (q : String) (cs : List LayoutNode) (z : ℚ) :
    removePaneFromLayoutNode p (.node .split d q cs z) = collapseSplit .split d q z (removePaneFromLayoutNodes p cs) := by
  rw [removePaneFromLayoutNode, if_neg (by simp)]

/-- The pane is a child of the split. -/
theorem removeChild_agrees {d d' : Direction} {q : String} {l r : List LayoutNode} {z y : ℚ}
    (h : PaneLayout (.node .split d q (l ++ .node .leaf d' p [] y :: r) z)) (hno : ∀ x ∈ l ++ r, p ∉ x.leaves)
    (share : ℚ) :
    settle share (browserRemove p (.node .split d q (l ++ .node .leaf d' p [] y :: r) z)) =
        settle share (removePaneFromLayoutNode p (.node .split d q (l ++ .node .leaf d' p [] y :: r) z)) ↔
      FoldsAgree p share (.node .split d q (l ++ .node .leaf d' p [] y :: r) z) := by
  have hmem {x : LayoutNode} (hx : x ∈ l ++ r) : x ∈ l ++ .node .leaf d' p [] y :: r := by
    rcases List.mem_append.mp hx with hx | hx
    · exact List.mem_append_left _ hx
    · exact List.mem_append_right _ (List.mem_cons_of_mem _ hx)
  have hall : ∀ x ∈ l ++ r, Untouched p x := fun x hx => untouched (h.child (hmem hx)).1 (hno x hx)
  have hname := (h.child (List.mem_append_right l (List.mem_cons_self ..))).1.named
  rw [leaves_leaf, List.mem_singleton] at hname
  have hleaf : (browserRemove p (.node .leaf d' p [] y)).isNil = true ∧
      (removePaneFromLayoutNode p (.node .leaf d' p [] y)).isNil = true := by
    rw [browserRemove_leaf (Ne.symm hname), if_pos rfl, removePaneFromLayoutNode, if_pos rfl, if_pos rfl]
    exact ⟨rfl, rfl⟩
  obtain ⟨hb, hg⟩ := removes_middle hall
  rw [hleaf.1, if_pos rfl, List.nil_append, ← List.map_append] at hb
  rw [hleaf.2, if_pos rfl, List.nil_append, ← List.map_append] at hg
  rw [browserRemove_split, remove_split, hb, hg]
  have hothers : FoldsAgreeAll p (100 / (l ++ .node .leaf d' p [] y :: r).length) (l ++ .node .leaf d' p [] y :: r) := by
    refine foldsAgreeAll_iff.mpr fun x hx => ?_
    by_cases hx' : x ∈ l ++ r
    · exact foldsAgree_notMem (h.child hx).1.wellFormed (hno x hx') _
    · have he : x = .node .leaf d' p [] y := by
        rcases List.mem_append.mp hx with hx | hx
        · exact absurd (List.mem_append_left _ hx) hx'
        · exact (List.mem_cons.mp hx).resolve_right fun hr => hx' (List.mem_append_right _ hr)
      rw [he]
      exact .inl rfl
  have hagree : FoldsAgree p share (.node .split d q (l ++ .node .leaf d' p [] y :: r) z) ↔
      PairAgrees p share z (l ++ .node .leaf d' p [] y :: r) := by
    rw [FoldsAgree]
    simp only [reduceCtorEq, false_or]
    exact and_iff_left hothers
  rw [hagree]
  have hcount : 2 ≤ (l ++ .node .leaf d' p [] y :: r).length := by
    cases h.wellFormed with
    | split hd hl hcs => exact hl
  rw [List.length_append, List.length_cons] at hcount
  by_cases hmany : 2 ≤ (l ++ r).length
  · have hsizes : ∀ x ∈ (l ++ r).map (removePaneFromLayoutNode p), 0 ≤ x.size := by
      intro x hx
      obtain ⟨c, hc, rfl⟩ := List.mem_map.mp hx
      rw [(hall c hc).size]
      exact (h.child (hmem hc)).2
    have hlen : 2 ≤ ((l ++ r).map (removePaneFromLayoutNode p)).length := by rwa [List.length_map]
    rw [collapse_many hlen hsizes, fold_many hlen]
    refine iff_of_true rfl (pairAgrees_of_length ?_)
    rw [List.length_append] at hmany
    rw [List.length_append, List.length_cons]
    omega
  · rw [List.length_append] at hmany
    obtain ⟨s, hs⟩ : ∃ s, l ++ r = [s] := List.length_eq_one_iff.mp (by rw [List.length_append]; omega)
    have hsm : s ∈ l ++ r := by rw [hs]; exact List.mem_singleton_self _
    have hshows : s.shows p = false := by
      cases hsh : s.shows p with
      | false => rfl
      | true => exact absurd (shows_iff (h.child (hmem hsm)).1.wellFormed hsh) (hno s hsm)
    have hpshows : (LayoutNode.node .leaf d' p [] y).shows p = true := decide_eq_true rfl
    have hpair : PairAgrees p share z (l ++ .node .leaf d' p [] y :: r) ↔ z ≤ 0 ∨ settled share s.size = z := by
      rcases List.append_eq_singleton_iff.mp hs with ⟨rfl, rfl⟩ | ⟨rfl, rfl⟩
      · simp [PairAgrees, hshows, hpshows]
      · simp [PairAgrees, hshows, hpshows]
    have hu := hall s hsm
    rw [hs, hpair, ← hu.size]
    exact settle_setSize hu.there share z

theorem fold_there {d : Direction} {q : String} {z : ℚ} {cs : List LayoutNode} (hne : cs ≠ [])
    (h : ∀ x ∈ cs, x.isNil = false) :
    (foldLayout d q z cs).isNil = false ∧ (collapseSplit .split d q z cs).isNil = false := by
  match cs, hne with
  | [a], _ =>
    have ha := h a (List.mem_singleton_self _)
    refine ⟨ha, ?_⟩
    simp only [collapseSplit]
    split
    · cases a with
      | nil => cases ha
      | node => rfl
    · exact ha
  | a :: b :: rest, _ => exact ⟨rfl, rfl⟩

theorem there_of_list {c : LayoutNode} : ∀ x ∈ (if c.isNil then [] else [c]), x.isNil = false := by
  intro x hx
  split at hx
  · cases hx
  · rename_i h
    rw [List.mem_singleton.mp hx]
    simpa using h

/-- Both leave something of a tree that is not just the pane, and the same up to the size exactly if
the sizes agree. -/
theorem remove_agrees {n : LayoutNode} (h : PaneLayout n) (hn : n.leaves.Nodup) (hp : p ∈ n.leaves)
    (hs : n.shows p = false) (share : ℚ) :
    (browserRemove p n).isNil = false ∧ (removePaneFromLayoutNode p n).isNil = false ∧
      (settle share (browserRemove p n) = settle share (removePaneFromLayoutNode p n) ↔ FoldsAgree p share n) := by
  have hw := h.wellFormed
  induction hw generalizing share with
  | leaf d q z =>
    rw [leaves_leaf, List.mem_singleton] at hp
    simp [LayoutNode.shows, hp] at hs
  | @split d q cs z hd hl hcs ih =>
    rw [leaves_split] at hn hp
    obtain ⟨c, hc, hpc⟩ := mem_leavesOf.mp hp
    obtain ⟨l, r, rfl⟩ := List.append_of_mem hc
    have hno : ∀ x ∈ l ++ r, p ∉ x.leaves := by
      intro x hx hpx
      rw [leavesOf_append, leavesOf_cons] at hn
      obtain ⟨-, hcr, hdisj⟩ := List.nodup_append.mp hn
      rcases List.mem_append.mp hx with hx | hx
      · exact hdisj p (mem_leavesOf.mpr ⟨x, hx, hpx⟩) p (List.mem_append_left _ hpc) rfl
      · exact (List.nodup_append.mp hcr).2.2 p hpc p (mem_leavesOf.mpr ⟨x, hx, hpx⟩) rfl
    have hmem {x : LayoutNode} (hx : x ∈ l ++ r) : x ∈ l ++ c :: r := by
      rcases List.mem_append.mp hx with hx | hx
      · exact List.mem_append_left _ hx
      · exact List.mem_append_right _ (List.mem_cons_of_mem _ hx)
    have hall : ∀ x ∈ l ++ r, Untouched p x := fun x hx => untouched (h.child (hmem hx)).1 (hno x hx)
    obtain ⟨hb, hg⟩ := removes_middle (c := c) hall
    have hkept : ∀ x ∈ (l ++ r).map (removePaneFromLayoutNode p), x.isNil = false := by
      intro x hx
      obtain ⟨y, hy, rfl⟩ := List.mem_map.mp hx
      exact (hall y hy).there
    have hthere (c' : LayoutNode) : ∀ x ∈ l.map (removePaneFromLayoutNode p) ++ ((if c'.isNil then [] else [c']) ++
        r.map (removePaneFromLayoutNode p)), x.isNil = false := by
      intro x hx
      rw [List.map_append] at hkept
      rcases List.mem_append.mp hx with hx | hx
      · exact hkept x (List.mem_append_left _ hx)
      rcases List.mem_append.mp hx with hx | hx
      · exact there_of_list x hx
      · exact hkept x (List.mem_append_right _ hx)
    have hsome (c' : LayoutNode) : l.map (removePaneFromLayoutNode p) ++ ((if c'.isNil then [] else [c']) ++
        r.map (removePaneFromLayoutNode p)) ≠ [] := by
      intro he
      have hlen := congrArg List.length he
      rw [List.length_append, List.length_cons] at hl
      simp only [List.length_append, List.length_map, List.length_nil] at hlen
      omega
    refine ⟨?_, ?_, ?_⟩
    · rw [browserRemove_split, hb]
      exact (fold_there (hsome _) (hthere _)).1
    · rw [remove_split, hg]
      exact (fold_there (hsome _) (hthere _)).2
    cases hsc : c.shows p with
    | true =>
      cases hcs c hc with
      | leaf d' p' y =>
        have he : p' = p := of_decide_eq_true hsc
        subst he
        exact removeChild_agrees h hno share
      | split => cases hsc
    | false =>
      have hnc : c.leaves.Nodup := by
        rw [leavesOf_append, leavesOf_cons] at hn
        exact (List.nodup_append.mp (List.nodup_append.mp hn).2.1).1
      obtain ⟨hbc, hgc, hiff⟩ := ih c hc (h.child hc).1 hnc hpc hsc (100 / (l ++ c :: r).length)
      rw [hbc, if_neg (by decide)] at hb
      rw [hgc, if_neg (by decide)] at hg
      have hlen (x : LayoutNode) : (l.map (removePaneFromLayoutNode p) ++ ([x] ++ r.map (removePaneFromLayoutNode p))).length =
          (l ++ c :: r).length := by
        simp
      have hsizes : ∀ x ∈ l.map (removePaneFromLayoutNode p) ++ ([removePaneFromLayoutNode p c] ++
          r.map (removePaneFromLayoutNode p)), 0 ≤ x.size := by
        intro x hx
        have hx : x ∈ (l ++ c :: r).map (removePaneFromLayoutNode p) := by
          rw [List.map_append, List.map_cons]
          exact hx
        obtain ⟨y, hy, rfl⟩ := List.mem_map.mp hx
        exact remove_size_nonneg (h.child hy).1 (h.child hy).2
      have hagree : FoldsAgree p share (.node .split d q (l ++ c :: r) z) ↔
          FoldsAgree p (100 / (l ++ c :: r).length) c := by
        have hpair : PairAgrees p share z (l ++ c :: r) := by
          refine pairAgrees_of_not_shows fun x hx => ?_
          cases hx' : x.shows p with
          | false => rfl
          | true =>
            have hxc := child_unique hn hc hx hpc (shows_iff (hcs x hx) hx')
            rw [hxc, hsc] at hx'
            cases hx'
        rw [FoldsAgree, foldsAgreeAll_iff]
        simp only [reduceCtorEq, false_or, hpair, true_and]
        refine ⟨fun ha => ha c hc, fun ha x hx => ?_⟩
        by_cases hpx : p ∈ x.leaves
        · rw [child_unique hn hc hx hpc hpx]
          exact ha
        · exact foldsAgree_notMem (hcs x hx) hpx _
      rw [browserRemove_split, remove_split, hb, hg, fold_many (by rw [hlen]; exact hl),
        collapse_many (by rw [hlen]; exact hl) hsizes, hlen, hlen, settle_node, settle_node, hagree, ← hiff]
      simp

/-- Removing a pane leaves the same tree exactly if the sizes agree. -/
theorem browserRemove_iff {n : LayoutNode} (h : PaneLayout n) (hn : n.leaves.Nodup) :
    browserRemove p n = removePaneFromLayoutNode p n ↔ FoldsAgree p 0 n := by
  have hsettle (x : LayoutNode) : settle 0 x = x := by
    have hz : settled 0 x.size = x.size := by
      unfold settled
      split
      · rename_i h
        exact h.symm
      · rfl
    unfold settle
    rw [hz, setSize_self]
  by_cases hp : p ∈ n.leaves
  · cases hs : n.shows p with
    | false =>
      have hiff := (remove_agrees h hn hp hs 0).2.2
      rwa [hsettle, hsettle] at hiff
    | true =>
      cases h.wellFormed with
      | leaf d q z =>
        have hq : q ≠ "" := fun he => h.named (by rw [leaves_leaf, he]; exact List.mem_singleton_self _)
        have he : q = p := of_decide_eq_true hs
        refine iff_of_true ?_ (.inl rfl)
        rw [browserRemove_leaf hq, if_pos he, removePaneFromLayoutNode, if_pos rfl, if_pos he]
      | split => cases hs
  · exact iff_of_true (untouched h hp).same (foldsAgree_notMem h.wellFormed hp 0)

end

/-- Browser and server split alike, and remove alike exactly where the sizes agree. -/
theorem layoutEdits_agree {n : LayoutNode} (h : PaneLayout n) (hn : n.leaves.Nodup) :
    (∀ target direction new,
      (splitLayout target direction new (ofLayout n)).map toLayout = splitLayoutNode target direction new n) ∧
    ∀ p, toLayout (removePaneFromLayout p (ofLayout n)) = removePaneFromLayoutNode p n ↔ FoldsAgree p 0 n :=
  ⟨fun _ direction new => splitLayout_agrees direction new h.wellFormed h.named, fun _ => browserRemove_iff h hn⟩

/-- A column of two beside a pane, its panes of unequal height. -/
def unevenColumn : LayoutNode :=
  .node .split .vertical "" [leafNode "pane-1" 50,
    .node .split .horizontal "" [leafNode "pane-2" 30, leafNode "pane-3" 70] 50] 0

theorem unevenColumn_layout : PaneLayout unevenColumn where
  wellFormed := .split (.inl rfl) (by decide) fun c hc => by
    simp only [List.mem_cons, List.not_mem_nil, or_false] at hc
    rcases hc with rfl | rfl
    · exact .leaf ..
    · refine .split (.inr rfl) (by decide) fun c hc => ?_
      simp only [List.mem_cons, List.not_mem_nil, or_false] at hc
      rcases hc with rfl | rfl <;> exact .leaf ..
  named := by decide
  sized := by
    simp only [unevenColumn, leafNode, ChildrenSized, AllSized, LayoutNode.size]
    norm_num

theorem layoutEdits_agree_column :
    (splitLayout "pane-3" .vertical "pane-4" (ofLayout unevenColumn)).map toLayout =
      splitLayoutNode "pane-3" .vertical "pane-4" unevenColumn ∧
    toLayout (removePaneFromLayout "pane-1" (ofLayout unevenColumn)) = removePaneFromLayoutNode "pane-1" unevenColumn :=
  ⟨(layoutEdits_agree unevenColumn_layout (by decide)).1 _ _ _,
    ((layoutEdits_agree unevenColumn_layout (by decide)).2 _).mpr
      (by simp [unevenColumn, leafNode, FoldsAgree, FoldsAgreeAll, PairAgrees, LayoutNode.shows])⟩

/-- The server leaves pane-3 the half of the column, the browser its own 70. -/
theorem unevenColumn_sizes :
    toLayout (removePaneFromLayout "pane-2" (ofLayout unevenColumn)) ≠ removePaneFromLayoutNode "pane-2" unevenColumn := by
  intro h
  have hagree := (browserRemove_iff unevenColumn_layout (by decide)).mp h
  simp only [unevenColumn, leafNode, FoldsAgree, FoldsAgreeAll, PairAgrees, LayoutNode.shows, settled, LayoutNode.size] at hagree
  norm_num at hagree
  cases hagree

end Webshell
