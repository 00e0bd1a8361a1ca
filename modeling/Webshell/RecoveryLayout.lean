import Webshell.RecoveryBuild
import Webshell.LayoutNormal
import Mathlib.Algebra.Order.Field.Rat

/-!
# Restored layouts

Validation normalises a copy of each layout, and the workspace keeps the
original. A restored workspace is as sound as a live one exactly when the
normalisation had nothing to correct.
-/

namespace Webshell

open GoText

/-- Leaves without children; splits without a pane id, their children within the size bounds. -/
inductive NormalLayout : LayoutNode → Prop
  | leaf (d : Direction) (p : String) (z : ℚ) : NormalLayout (.node .leaf d p [] z)
  | split {d : Direction} {cs : List LayoutNode} {z : ℚ} : LegalDirection d → 2 ≤ cs.length →
      (∀ c ∈ cs, NormalLayout c) → (∀ c ∈ cs, 5 ≤ c.size ∧ c.size ≤ 95) → NormalLayout (.node .split d "" cs z)

theorem NormalLayout.wellFormed {n : LayoutNode} (h : NormalLayout n) : WellFormedLayout n := by
  induction h with
  | leaf d p z => exact .leaf d p z
  | split hd hl _ _ ih => exact .split hd hl ih

mutual
/-- The one thing normalisation drops that no other code looks at. -/
def forgetLeafDirections : LayoutNode → LayoutNode
  | .nil => .nil
  | .node t d p cs z => .node t (if t = .leaf then .none else d) p (forgetLeavesDirections cs) z
def forgetLeavesDirections : List LayoutNode → List LayoutNode
  | [] => []
  | c :: cs => forgetLeafDirections c :: forgetLeavesDirections cs
end

/-! ## Normalisation -/

@[simp] theorem forgetLeafDirections_size (n : LayoutNode) : (forgetLeafDirections n).size = n.size := by
  cases n <;> simp [forgetLeafDirections, LayoutNode.size]

theorem forgetLeavesDirections_nil {cs : List LayoutNode} : forgetLeavesDirections cs = [] ↔ cs = [] := by
  cases cs <;> simp [forgetLeavesDirections]

theorem validateLayoutNode_size {tab : TerminalTab} {n n' : LayoutNode} {seen seen' : List String}
    (h : validateLayoutNode tab n seen = .ok (n', seen')) : n'.size = n.size := by
  cases n with
  | nil => simp [validateLayoutNode] at h
  | node t d p cs z =>
    cases t with
    | leaf =>
      rw [validateLayoutNode] at h
      split at h
      · cases h
      · split at h
        · cases h
        · cases h; rfl
    | split =>
      rw [validateLayoutNode] at h
      split at h
      · cases h
      · split at h
        · cases h
        · split at h
          · cases h
          · cases h; rfl
    | other name => simp [validateLayoutNode] at h

theorem validateLayoutNodes_clamped {tab : TerminalTab} {cs cs' : List LayoutNode} {seen seen' : List String}
    (h : validateLayoutNodes tab cs seen = .ok (cs', seen')) : ∀ c ∈ cs', 5 ≤ c.size := by
  induction cs generalizing cs' seen seen' with
  | nil =>
    simp only [validateLayoutNodes, Except.ok.injEq, Prod.mk.injEq] at h
    rw [← h.1]; simp
  | cons c cs ih =>
    rw [validateLayoutNodes] at h
    split at h
    · cases h
    · rename_i c' seen₁ hc
      split at h
      · cases h
      · rename_i rest seen₂ hcs
        cases h
        intro x hx
        rcases List.mem_cons.mp hx with rfl | hx
        · obtain ⟨hw, -, -⟩ := validateLayoutNode_ok hc
          refine (clampChildSize_spec fun hnil => ?_).1
          have := hw.not_nil
          rw [hnil] at this; cases this
        · exact ih hcs x hx

mutual
/-- An accepted layout is normal exactly when normalising it changes leaf directions at most. -/
theorem validateLayoutNode_normal {tab : TerminalTab} : ∀ {n n' : LayoutNode} {seen seen' : List String},
    validateLayoutNode tab n seen = .ok (n', seen') → (NormalLayout n ↔ n' = forgetLeafDirections n)
  | .nil, n', seen, seen', h => by simp [validateLayoutNode] at h
  | .node t d p cs z, n', seen, seen', h => by
    cases t with
    | leaf =>
      rw [validateLayoutNode] at h
      split at h
      · cases h
      · split at h
        · cases h
        · cases h
          simp only [forgetLeafDirections, if_true, LayoutNode.node.injEq, true_and, and_true]
          constructor
          · intro hn
            cases hn
            simp [forgetLeavesDirections]
          · intro hcs
            rw [forgetLeavesDirections_nil.mp hcs.symm]
            exact .leaf ..
    | split =>
      rw [validateLayoutNode] at h
      split at h
      · cases h
      · split at h
        · cases h
        · rename_i hd hlen
          split at h
          · cases h
          · rename_i cs' seen'' hv
            have hlen' := (validateLayoutNodes_ok hv).1
            have hpos := sum_sizes_pos (List.ne_nil_of_length_pos (by omega)) (validateLayoutNodes_clamped hv)
            cases h
            rw [if_neg (not_le.mpr hpos)]
            simp only [forgetLeafDirections, reduceCtorEq, if_false, LayoutNode.node.injEq, true_and, and_true]
            rw [← validateLayoutNodes_normal hv]
            constructor
            · intro hn
              cases hn with
              | split _ _ hc hs => exact ⟨rfl, fun c hm => ⟨hc c hm, hs c hm⟩⟩
            · rintro ⟨rfl, hc⟩
              refine .split ?_ (by omega) (fun c hm => (hc c hm).1) fun c hm => (hc c hm).2
              by_contra hno
              exact hd ⟨fun e => hno (Or.inl e), fun e => hno (Or.inr e)⟩
    | other name => simp [validateLayoutNode] at h

theorem validateLayoutNodes_normal {tab : TerminalTab} : ∀ {cs cs' : List LayoutNode} {seen seen' : List String},
    validateLayoutNodes tab cs seen = .ok (cs', seen') →
      ((∀ c ∈ cs, NormalLayout c ∧ 5 ≤ c.size ∧ c.size ≤ 95) ↔ cs' = forgetLeavesDirections cs)
  | [], cs', seen, seen', h => by
    simp only [validateLayoutNodes, Except.ok.injEq, Prod.mk.injEq] at h
    rw [← h.1]
    simp [forgetLeavesDirections]
  | c :: cs, cs', seen, seen', h => by
    rw [validateLayoutNodes] at h
    split at h
    · cases h
    · rename_i c' seen₁ hc
      split at h
      · cases h
      · rename_i rest seen₂ hcs
        cases h
        have hne : c' ≠ .nil := by
          rintro rfl
          have := (validateLayoutNode_ok hc).1.not_nil
          cases this
        obtain ⟨hlow, hhigh, hsame⟩ := clampChildSize_spec hne
        have hsize := validateLayoutNode_size hc
        simp only [List.mem_cons, forall_eq_or_imp, forgetLeavesDirections, List.cons.injEq]
        rw [validateLayoutNodes_normal hcs, validateLayoutNode_normal hc]
        refine and_congr_left fun _ => ?_
        constructor
        · rintro ⟨rfl, hb⟩
          exact hsame (hsize ▸ hb)
        · intro he
          -- the size is kept through both sides, so it was within the bounds
          have hcs : (clampChildSize c').size = c.size := by rw [he, forgetLeafDirections_size]
          have hb : 5 ≤ c.size ∧ c.size ≤ 95 := hcs ▸ ⟨hlow, hhigh⟩
          rw [hsame (hsize.symm ▸ hb)] at he
          exact ⟨he, hb⟩
end

/-- Normalising the layout of this tab corrects nothing. -/
def LeftAsItIs (tab : WorkspaceRecoveryTab) : Prop :=
  validateLayoutForTab tab.Layout (recoveryCandidate tab) = .ok (forgetLeafDirections tab.Layout)

theorem leftAsItIs_iff {tab : WorkspaceRecoveryTab} (h : TabAccepted tab) : LeftAsItIs tab ↔ NormalLayout tab.Layout := by
  obtain ⟨n, hn⟩ := h.layout
  unfold LeftAsItIs
  rw [hn, Except.ok.injEq]
  unfold validateLayoutForTab at hn
  split at hn
  · cases hn
  · rename_i m seen hv
    split at hn
    · cases hn
    · split at hn
      · cases hn
      · cases hn
        exact (validateLayoutNode_normal hv).symm

/-! ## Restored workspaces -/

namespace Workspace

/-- The layout of an accepted tab shows its panes, each once. -/
theorem accepted_leaves {tab : WorkspaceRecoveryTab} (h : TabAccepted tab) :
    tab.Layout.leaves.Perm tab.paneIDs := by
  obtain ⟨n, hv⟩ := h.layout
  obtain ⟨-, hl, -, hp⟩ := validateLayoutForTab_ok hv
  rw [← hl]; exact hp

theorem paneIDs_nodup {document : WorkspaceRecoveryDocument} (h : DocumentAccepted document) {tab : WorkspaceRecoveryTab}
    (ht : tab ∈ document.Tabs) : tab.paneIDs.Nodup := by
  obtain ⟨before, after, he⟩ := List.append_of_mem ht
  have hn := h.tabs.paneIDs
  unfold recoveryPaneIDs at hn
  rw [he, List.flatMap_append, List.flatMap_cons] at hn
  exact (List.nodup_append.mp (List.nodup_append.mp hn).2.1).1

/-- With well-formed layouts, the rebuilt tabs and panes agree, for counters past their numbers. -/
theorem restored_core {document : WorkspaceRecoveryDocument} (h : DocumentAccepted document)
    (hw : ∀ tab ∈ document.Tabs, WellFormedLayout tab.Layout) {panes : PaneMap}
    (hk : ∀ id, id ∈ panes ↔ id ∈ recoveryPaneIDs document.Tabs) {a b : Int}
    (ha : ∀ n, a ≤ n → taggedID "tab-" n ∉ recoveryTabIDs document.Tabs)
    (hb : ∀ n, b ≤ n → taggedID "pane-" n ∉ recoveryPaneIDs document.Tabs) :
    CoreInv (document.Tabs.map recoveredTab) panes a b where
  tabIDs := by rw [tabIDsOf_recovered]; exact h.tabs.tabIDs
  paneIDs := by rw [paneIDsOf_recovered]; exact h.tabs.paneIDs
  keySet := by rw [paneIDsOf_recovered]; exact hk
  each := by
    intro t ht
    obtain ⟨tab, hm, rfl⟩ := List.mem_map.mp ht
    have hacc := h.tabs.each tab hm
    refine ⟨?_, hw tab hm, accepted_leaves hacc, hacc.active⟩
    exact fun he => hacc.nonempty (List.map_eq_nil_iff.mp he)
  trimmed := by
    rw [tabIDsOf_recovered]
    intro id hid
    obtain ⟨tab, hm, rfl⟩ := List.mem_map.mp hid
    obtain ⟨n, hn⟩ := Option.ne_none_iff_exists'.mp (h.tabs.each tab hm).id
    exact numericWorkspaceID_trimmed (show "tab-".toList = 't' :: ['a', 'b', '-'] by decide) (by decide) hn
  freshTab := by rw [tabIDsOf_recovered]; exact ha
  freshPane := by rw [paneIDsOf_recovered]; exact hb

theorem restored_select {document : WorkspaceRecoveryDocument} (h : DocumentAccepted document)
    (hne : document.Tabs ≠ []) (selector workspaceGeneration username : String) (panes : PaneMap) :
    SelectInv ((recoveredBase document selector workspaceGeneration username panes).setRecentTabsLocked
      document.RecentTabIDs) where
  active := by
    refine Or.inl ?_
    rw [setRecentTabs_tabs, setRecentTabs_activeTab]
    show document.ActiveTabID ∈ tabIDsOf (document.Tabs.map recoveredTab)
    rw [tabIDsOf_recovered]
    exact h.active.resolve_right fun ha => hne ha.1
  recent := setRecentTabs_inv ..

/-- No accepted id has a number beyond the ints. -/
theorem accepted_below {tag : String} {n : Int} (hn : maxInt + 1 ≤ n) :
    numericWorkspaceID (taggedID tag n) tag = none := by
  cases h : numericWorkspaceID (taggedID tag n) tag with
  | none => rfl
  | some m =>
    obtain ⟨-, hle, -⟩ := numericWorkspaceID_some h
    have := numericWorkspaceID_canonical h
    omega

theorem accepted_tab_below {document : WorkspaceRecoveryDocument} (h : DocumentAccepted document) (n : Int)
    (hn : maxInt + 1 ≤ n) : taggedID "tab-" n ∉ recoveryTabIDs document.Tabs := by
  intro hm
  obtain ⟨tab, ht, he⟩ := List.mem_map.mp hm
  exact (h.tabs.each tab ht).id (he ▸ accepted_below hn)

theorem accepted_pane_below {document : WorkspaceRecoveryDocument} (h : DocumentAccepted document) (n : Int)
    (hn : maxInt + 1 ≤ n) : taggedID "pane-" n ∉ recoveryPaneIDs document.Tabs := by
  intro hm
  obtain ⟨tab, ht, hp⟩ := List.mem_flatMap.mp hm
  obtain ⟨pane, hp, he⟩ := List.mem_map.mp hp
  exact ((h.tabs.each tab ht).panes pane hp).id (he ▸ accepted_below hn)

def splitRequest (tabID paneID : String) (direction : Direction) (cols rows : Int) : WorkspaceActionRequest where
  Action := .splitPane
  TabID := tabID
  PaneID := paneID
  Direction := direction
  Cols := cols
  Rows := rows

/-- Splitting pane `p` of tab `t` succeeds and adds the new pane to the leaves, and nothing else. -/
def SplitsExactly (w : Workspace) (t : TerminalTab) (p : String) : Prop :=
  ∀ (direction : Direction) (cols rows : Int) (directory : String), LegalDirection direction →
    ∃ w' t', w.applyAction (splitRequest t.ID p direction cols rows) (.ok directory) = (w', none) ∧ t' ∈ w'.tabs ∧
      t'.ID = t.ID ∧ t'.Layout.leaves.Perm (t.PaneIDs ++ [taggedID "pane-" w.nextPaneID])

/-- What the layouts of a live workspace are like, and what a split makes of them. -/
structure LayoutsSound (w : Workspace) : Prop where
  normal : ∀ t ∈ w.tabs, NormalLayout t.Layout
  leaves : ∀ t ∈ w.tabs, t.Layout.leaves.Perm t.PaneIDs
  splits : ∀ t ∈ w.tabs, ∀ p ∈ t.PaneIDs, SplitsExactly w t p

theorem splitsExactly_of {w : Workspace} (hids : (tabIDsOf w.tabs).Nodup) {t : TerminalTab} (ht : t ∈ w.tabs)
    (hw : WellFormedLayout t.Layout) (hl : t.Layout.leaves.Perm t.PaneIDs) {p : String} (hp : p ∈ t.PaneIDs) :
    SplitsExactly w t p := by
  intro direction cols rows directory hd
  obtain ⟨pre, post, he⟩ := List.append_of_mem ht
  have hfind : w.findTabIndexLocked t.ID = some (pre.length, t) := by
    unfold findTabIndexLocked
    rw [he]
    apply findTabIn_append
    unfold tabIDsOf at hids ⊢
    rw [he, List.map_append, List.map_cons] at hids
    exact fun hm => (List.disjoint_of_nodup_append hids) hm (List.mem_cons_self ..)
  obtain ⟨layout, hs, -, hsplit⟩ : ∃ layout,
      splitLayoutNode p direction (taggedID "pane-" w.nextPaneID) t.Layout = some layout ∧ WellFormedLayout layout ∧
        SplitLeaves p (taggedID "pane-" w.nextPaneID) t.Layout.leaves layout.leaves :=
    splitLayoutNode_some hd hw (hl.mem_iff.mpr hp)
  have hlegal : ¬(direction ≠ .vertical ∧ direction ≠ .horizontal) := by
    rintro ⟨h1, h2⟩
    exact hd.elim h1 h2
  unfold applyAction splitRequest
  simp only
  unfold splitPaneLocked
  rw [hfind]
  simp only
  rw [if_neg (by simp [hasPane_iff, hp]), if_neg hlegal]
  obtain ⟨pane, -, -, hnew⟩ : ∃ pane : WorkspacePane, pane.id = taggedID "pane-" w.nextPaneID ∧ pane.exited = false ∧
      w.newPaneLocked (NormalizeCols cols) (NormalizeRows rows) (w.resolveSourcePaneCWDLocked t.ID p) (.ok directory) =
        ({ w with
            nextPaneID := w.nextPaneID + 1
            panes := w.panes.insert (taggedID "pane-" w.nextPaneID) pane
            running := taggedID "pane-" w.nextPaneID :: w.running }, .ok (taggedID "pane-" w.nextPaneID)) :=
    ⟨_, rfl, rfl, rfl⟩
  rw [hnew]
  simp only [hs]
  refine ⟨_, { t with
    Layout := layout, PaneIDs := t.PaneIDs ++ [taggedID "pane-" w.nextPaneID]
    ActivePaneID := taggedID "pane-" w.nextPaneID }, rfl, ?_, rfl, ?_⟩
  · rw [setActiveTab_tabs]
    simp only [he, set_at]
    exact List.mem_append_right _ (List.mem_cons_self ..)
  · exact hsplit.perm.trans (hl.append_right _)

theorem fresh_normal (selector workspaceGeneration username : String) (cols rows : Int) (directory : String) :
    ∀ t ∈ (fresh selector workspaceGeneration username cols rows directory).tabs, NormalLayout t.Layout := by
  intro t ht
  unfold fresh createTabLocked at ht
  simp only [newPaneLocked, newTerminalPane, setActiveTab_tabs] at ht
  obtain ⟨tabs, he, hp⟩ := insertTab_perm _ _ _
  rw [he] at ht
  rcases List.mem_cons.mp (hp.mem_iff.mp ht) with rfl | hm
  · exact .leaf ..
  · cases hm

/-- A restored workspace satisfies the invariant of a live one, its layouts included, exactly when
validation left the document's layouts as they are. -/
theorem restored_sound_iff {document : WorkspaceRecoveryDocument} {selector username : String} {cols rows : Int}
    {generation : Except String String} {spawn : String → SpawnResult} {w : Workspace}
    (h : newRecoveredTerminalWorkspace document selector username cols rows generation spawn = (some w, none)) :
    StructuralInv w ∧ LayoutsSound w ↔ ∀ tab ∈ document.Tabs, LeftAsItIs tab := by
  obtain ⟨hd, workspaceGeneration, -, ⟨hnil, directory, -, rfl⟩ | ⟨hne, panes, -, hk, rfl⟩⟩ := recovered_cases h
  · refine iff_of_true ?_ (by rw [hnil]; simp)
    have hi := fresh_inv selector workspaceGeneration username cols rows directory
    have htabs := fresh_normal selector workspaceGeneration username cols rows directory
    refine ⟨hi.structural, htabs, fun t ht => (hi.core.each t ht).leaves, fun t ht p hp => ?_⟩
    exact splitsExactly_of hi.core.tabIDs ht (htabs t ht).wellFormed (hi.core.each t ht).leaves hp
  · constructor
    · rintro ⟨-, hs⟩ tab ht
      refine (leftAsItIs_iff (hd.tabs.each tab ht)).mpr ?_
      exact hs.normal (recoveredTab tab) (List.mem_map_of_mem ht)
    · intro hleft
      have hnormal : ∀ tab ∈ document.Tabs, NormalLayout tab.Layout := fun tab ht =>
        (leftAsItIs_iff (hd.tabs.each tab ht)).mp (hleft tab ht)
      have hcore := restored_core hd (fun tab ht => (hnormal tab ht).wellFormed) hk (accepted_tab_below hd)
        (accepted_pane_below hd)
      have hselect := restored_select hd hne selector workspaceGeneration username panes
      -- the invariant of a live workspace mentions no counter
      have hs := (WorkspaceInv.mk (w := { (recoveredBase document selector workspaceGeneration username
        panes).setRecentTabsLocked document.RecentTabIDs with nextTabID := maxInt + 1, nextPaneID := maxInt + 1 })
        hcore ⟨hselect.active, hselect.recent⟩).structural
      have htabs : ∀ t ∈ document.Tabs.map recoveredTab, NormalLayout t.Layout := by
        intro t ht
        obtain ⟨tab, hm, rfl⟩ := List.mem_map.mp ht
        exact hnormal tab hm
      refine ⟨⟨hs.tabIDs, hs.paneIDs, hs.panes, hs.nonempty, hs.layout, hs.activePane, hs.activeTab, hs.activeTab_empty,
        hs.recentTabs⟩, htabs, fun t ht => (hcore.each t ht).leaves, fun t ht p hp => ?_⟩
      exact splitsExactly_of hcore.tabIDs ht (htabs t ht).wellFormed (hcore.each t ht).leaves hp

/-- A document of one tab with two panes and this layout. -/
def twoPanes (layout : LayoutNode) : WorkspaceRecoveryDocument where
  Version := 1
  Epoch := "e"
  WorkspaceGeneration := "g"
  ActiveTabID := "tab-1"
  RecentTabIDs := []
  Tabs := [{
    ID := "tab-1", Label := "a", CustomLabel := false, ActivePaneID := "pane-1", Layout := layout
    Panes := [{ ID := "pane-1", CWD := "" }, { ID := "pane-2", CWD := "" }] }]

def sideBySide : LayoutNode := .node .split .vertical "" [leafNode "pane-1" 50, leafNode "pane-2" 50] 0

/-- The same, with a child under the first leaf that no check looks at. -/
def hiddenLeaf : LayoutNode :=
  .node .split .vertical "" [.node .leaf .none "pane-1" [leafNode "pane-2" 50] 50, leafNode "pane-2" 50] 0

def restore (document : WorkspaceRecoveryDocument) : Option Workspace × Option String :=
  newRecoveredTerminalWorkspace document "" "u" 120 32 (.ok "g") fun _ => .ok "/"

theorem restored_sound_sideBySide : ∃ w, restore (twoPanes sideBySide) = (some w, none) ∧
    (StructuralInv w ∧ LayoutsSound w ↔ ∀ tab ∈ (twoPanes sideBySide).Tabs, LeftAsItIs tab) := by
  obtain ⟨w, hw⟩ : ∃ w, restore (twoPanes sideBySide) = (some w, none) := ⟨_, rfl⟩
  exact ⟨w, hw, restored_sound_iff hw⟩

/-- The new pane goes under the hidden leaf, where the layout does not show it. -/
theorem hiddenLeaf_swallows_split : ∃ w w', restore (twoPanes hiddenLeaf) = (some w, none) ∧ ¬LayoutsSound w ∧
    w.applyAction (splitRequest "tab-1" "pane-2" .vertical 120 32) (.ok "/") = (w', none) ∧
      (w'.tabs.map fun t => (t.PaneIDs, collectLayoutPaneIDs t.Layout [])) =
        [(["pane-1", "pane-2", "pane-3"], ["pane-1", "pane-2"])] := by
  refine ⟨_, _, rfl, fun h => ?_, rfl, by decide +kernel⟩
  have hn := h.normal _ (List.mem_cons_self ..)
  cases hn with
  | split _ _ hc _ => cases hc _ (List.mem_cons_self ..)

end Workspace

end Webshell
