import Webshell.RecoveryFresh

/-!
# Saving and restoring

A workspace's snapshot is written down as a document, which has to be accepted
and has to give the same workspace back.
-/

namespace Webshell

open GoText

mutual
/-- The number of edges down to the deepest node. -/
def layoutDepth : LayoutNode → Nat
  | .nil => 0
  | .node _ _ _ cs _ => layoutsDepth cs
def layoutsDepth : List LayoutNode → Nat
  | [] => 0
  | c :: cs => max (layoutDepth c + 1) (layoutsDepth cs)
end

namespace Workspace

/-- The bounds a saved state is claimed to keep. -/
structure Savable (state : WorkspaceState) : Prop where
  tabs : state.Tabs.length ≤ workspaceRecoveryMaxTabs
  panes : (state.Tabs.flatMap (·.Panes)).length ≤ workspaceRecoveryMaxPanes
  depth : ∀ tab ∈ state.Tabs, layoutDepth tab.Layout ≤ workspaceRecoveryMaxLayoutDepth
  label : ∀ tab ∈ state.Tabs, byteLength tab.Label ≤ 16 * 1024
  cwd : ∀ tab ∈ state.Tabs, ∀ pane ∈ tab.Panes,
    trimSpace pane.cwd = pane.cwd ∧ pathIsAbs pane.cwd = true ∧ pathClean pane.cwd = pane.cwd

/-- The saved document is accepted, and any workspace made from it has the same tabs and selection. -/
def RoundTrips (epoch : String) (w : Workspace) : Prop :=
  ValidateWorkspaceRecoveryDocument (WorkspaceRecoveryDocumentFromState epoch w.snapshot.2) = none ∧
    (w.snapshot.2.Tabs ≠ [] → ∀ (selector username workspaceGeneration : String) (cols rows : Int)
      (spawn : String → SpawnResult), (∀ paneID, ∃ directory, spawn paneID = .ok directory) →
        ∃ v, newRecoveredTerminalWorkspace (WorkspaceRecoveryDocumentFromState epoch w.snapshot.2) selector username
            cols rows (.ok workspaceGeneration) spawn = (some v, none) ∧
          v.tabs = w.snapshot.1.tabs ∧ v.activeTab = w.snapshot.1.activeTab ∧ v.recentTabs = w.snapshot.1.recentTabs)

/-! ## Where workspaces come from -/

/-- The two ways the daemon makes a workspace; `data` is the random part of its generation. -/
inductive Origin
  | fresh (selector username : String) (data : List (Fin 256)) (cols rows : Int) (directory : String)
  | restored (document : WorkspaceRecoveryDocument) (selector username : String) (data : List (Fin 256))
      (cols rows : Int) (spawn : String → SpawnResult)

def Origin.Makes : Origin → Workspace → Prop
  | .fresh selector username data cols rows directory, w =>
    data.length = 16 ∧ w = Workspace.fresh selector (encodeToString data) username cols rows directory
  | .restored document selector username data cols rows spawn, w =>
    data.length = 16 ∧
      newRecoveredTerminalWorkspace document selector username cols rows (.ok (encodeToString data)) spawn = (some w, none)

/-- A document with well-formed layouts and no id numbered with the largest int. -/
def Origin.Clean : Origin → Prop
  | .fresh .. => True
  | .restored document .. =>
    (∀ tab ∈ document.Tabs, WellFormedLayout tab.Layout) ∧
      (∀ id ∈ recoveryTabIDs document.Tabs, numericWorkspaceID id "tab-" ≠ some maxInt) ∧
        ∀ id ∈ recoveryPaneIDs document.Tabs, numericWorkspaceID id "pane-" ≠ some maxInt

/-- Before a step neither counter is at the largest int. -/
def CountersBelow (w : Workspace) (_ : WorkspaceEvent) : Prop := w.nextTabID < maxInt ∧ w.nextPaneID < maxInt

structure CounterInRange (counter : Int) : Prop where
  positive : 0 < counter
  int : counter ≤ maxInt

/-- What a workspace that can be saved and restored keeps. -/
structure SavedInv (w : Workspace) : Prop where
  inv : WorkspaceInv w
  keyed : Keyed w.panes
  tabIDs : ∀ id, w.TabPresent id → numericWorkspaceID id "tab-" ≠ none
  paneIDs : ∀ id, w.PanePresent id → numericWorkspaceID id "pane-" ≠ none
  tabCounter : CounterInRange w.nextTabID
  paneCounter : CounterInRange w.nextPaneID
  generation : trimSpace w.workspaceGeneration ≠ "" ∧ byteLength w.workspaceGeneration ≤ 128

/-! ## Runs -/

theorem CounterInRange.wrap {counter : Int} (h : CounterInRange counter) : wrapInt counter = counter :=
  wrapInt_of_range (by have := h.positive; omega) h.int

theorem Counted.numeric {tag : String} {before after : Int} {p q : String → Prop} (h : Counted tag before after p q)
    (hc : CounterInRange before) (hp : ∀ id, p id → numericWorkspaceID id tag ≠ none) :
    ∀ id, q id → numericWorkspaceID id tag ≠ none := by
  intro id hq
  rcases h with ⟨-, h⟩ | ⟨-, h⟩
  · exact hp id (h id hq)
  · rcases h id hq with hid | rfl
    · exact hp id hid
    · rw [numericWorkspaceID_tagged tag hc.positive hc.int]
      exact Option.some_ne_none _

theorem Counted.inRange {tag : String} {before after : Int} {p q : String → Prop} (h : Counted tag before after p q)
    (hc : CounterInRange before) (hb : before < maxInt) : CounterInRange after := by
  have hpos := hc.positive
  rcases h with ⟨rfl, -⟩ | ⟨rfl, -⟩
  · exact hc
  · exact ⟨by omega, by omega⟩

theorem SavedInv.idStep {w w' : Workspace} (h : SavedInv w) (hids : IdStep w w') (hinv : WorkspaceInv w')
    (ht : w.nextTabID < maxInt) (hp : w.nextPaneID < maxInt) : SavedInv w' where
  inv := hinv
  keyed := hids.keyed h.keyed
  tabIDs := hids.tabs.numeric h.tabCounter h.tabIDs
  paneIDs := hids.panes.numeric h.paneCounter h.paneIDs
  tabCounter := hids.tabs.inRange h.tabCounter ht
  paneCounter := hids.panes.inRange h.paneCounter hp
  generation := by rw [hids.generation]; exact h.generation

theorem SavedInv.step {w w' : Workspace} {e : WorkspaceEvent} (h : SavedInv w) (hb : CountersBelow w e)
    (hs : recoveredMachine.step w e = some w') : SavedInv w' := by
  have hnext := h.idStep (applyEvent_ids w e) (applyEvent_inv h.inv e) hb.1 hb.2
  cases hs
  rw [wrapCounters_of_int hnext.tabCounter.wrap hnext.paneCounter.wrap]
  exact hnext

theorem counterInRange_one : CounterInRange 1 := ⟨by decide, by decide⟩

theorem generation_ok {data : List (Fin 256)} (h : data.length = 16) :
    trimSpace (encodeToString data) ≠ "" ∧ byteLength (encodeToString data) ≤ 128 := by
  refine ⟨trimSpace_encodeToString fun he => ?_, ?_⟩
  · rw [he] at h; cases h
  · rw [byteLength_encodeToString]; omega

theorem empty_saved (selector username : String) {data : List (Fin 256)} (h : data.length = 16) :
    SavedInv (empty selector (encodeToString data) username) where
  inv := empty_inv ..
  keyed := fun id pane hl => by cases hl
  tabIDs := fun id hm => by cases hm
  paneIDs := fun id hm => hm.elim (fun hm => by cases hm) fun hm => absurd hm (AList.notMem_empty _)
  tabCounter := counterInRange_one
  paneCounter := counterInRange_one
  generation := generation_ok h

/-- Without the largest int the counters come to stand past every number, within the ints. -/
theorem foldl_inRange {tag : String} {ids : List String} (hmax : ∀ id ∈ ids, numericWorkspaceID id tag ≠ some maxInt)
    (hnum : ∀ id ∈ ids, numericWorkspaceID id tag ≠ none) :
    CounterInRange (ids.foldl (nextCounter tag) 1) ∧
      ∀ n, ids.foldl (nextCounter tag) 1 ≤ n → taggedID tag n ∉ ids := by
  obtain ⟨hge, hlt, -⟩ := foldl_nextCounter hmax 1
  refine ⟨⟨by omega, foldl_nextCounter_le ids 1 (by decide)⟩, fun n hn hm => ?_⟩
  obtain ⟨m, hm'⟩ := Option.ne_none_iff_exists'.mp (hnum _ hm)
  have := hlt _ hm m hm'
  have := numericWorkspaceID_canonical hm'
  omega

theorem accepted_numeric {document : WorkspaceRecoveryDocument} (h : DocumentAccepted document) :
    (∀ id ∈ recoveryTabIDs document.Tabs, numericWorkspaceID id "tab-" ≠ none) ∧
      ∀ id ∈ recoveryPaneIDs document.Tabs, numericWorkspaceID id "pane-" ≠ none := by
  constructor
  · intro id hid
    obtain ⟨tab, hm, rfl⟩ := List.mem_map.mp hid
    exact (h.tabs.each tab hm).id
  · intro id hid
    obtain ⟨tab, hm, hx⟩ := List.mem_flatMap.mp hid
    obtain ⟨pane, hpm, rfl⟩ := List.mem_map.mp hx
    exact ((h.tabs.each tab hm).panes pane hpm).id

theorem fresh_saved (selector username : String) {data : List (Fin 256)} (h : data.length = 16) (cols rows : Int)
    (directory : String) : SavedInv (Workspace.fresh selector (encodeToString data) username cols rows directory) :=
  (empty_saved selector username h).idStep (createTab_ids ..) (fresh_inv ..) (show (1 : Int) < maxInt by decide)
    (show (1 : Int) < maxInt by decide)

theorem Origin.saved {o : Origin} {w : Workspace} (h : o.Makes w) (hc : o.Clean) : SavedInv w := by
  cases o with
  | fresh selector username data cols rows directory =>
    obtain ⟨hl, rfl⟩ := h
    exact fresh_saved selector username hl cols rows directory
  | restored document selector username data cols rows spawn =>
    obtain ⟨hl, h⟩ := h
    obtain ⟨hw, htmax, hpmax⟩ := hc
    obtain ⟨hd, workspaceGeneration, hg, hcases⟩ := recovered_cases h
    cases hg
    rcases hcases with ⟨-, directory, -, rfl⟩ | ⟨hne, panes, hkeyed, hk, rfl⟩
    · exact fresh_saved selector username hl cols rows directory
    · obtain ⟨htnum, hpnum⟩ := accepted_numeric hd
      obtain ⟨htr, htf⟩ := foldl_inRange htmax htnum
      obtain ⟨hpr, hpf⟩ := foldl_inRange hpmax hpnum
      have hselect := restored_select hd hne selector (encodeToString data) username panes
      exact {
        inv := ⟨restored_core hd hw hk htf hpf, hselect⟩
        keyed := hkeyed
        tabIDs := fun id hm => htnum id ((tabIDsOf_recovered document.Tabs) ▸ hm)
        paneIDs := fun id hm => hpnum id (hm.elim (fun hm => (paneIDsOf_recovered document.Tabs) ▸ hm) (hk id).mp)
        tabCounter := htr
        paneCounter := hpr
        generation := generation_ok hl }

theorem run_saved {w w' : Workspace} {es : List WorkspaceEvent} (h : SavedInv w)
    (hrun : recoveredMachine.run w es = some w') (hb : recoveredMachine.Along CountersBelow w es) : SavedInv w' :=
  recoveredMachine.run_inv_along (fun _ _ _ hv hb hs => hv.step hb hs) hrun hb h

/-! ## The document of a snapshot -/

theorem trimSpace_numeric {id : String} : (numericWorkspaceID id "tab-" ≠ none → Trimmed id) ∧
    (numericWorkspaceID id "pane-" ≠ none → Trimmed id) := by
  constructor <;> intro h <;> obtain ⟨n, hn⟩ := Option.ne_none_iff_exists'.mp h
  · exact numericWorkspaceID_trimmed (show "tab-".toList = 't' :: ['a', 'b', '-'] by decide) (by decide) hn
  · exact numericWorkspaceID_trimmed (show "pane-".toList = 'p' :: ['a', 'n', 'e', '-'] by decide) (by decide) hn

/-- The panes of a tab as the map has them. -/
theorem lookup_panes {w : Workspace} (hkeyed : Keyed w.panes) {ids : List String} (h : ∀ id ∈ ids, id ∈ w.panes) :
    (ids.filterMap fun id => w.panes.lookup id).map (·.id) = ids := by
  induction ids with
  | nil => rfl
  | cons id ids ih =>
    obtain ⟨pane, hp⟩ := Option.isSome_iff_exists.mp (AList.lookup_isSome.mpr (h id (List.mem_cons_self ..)))
    rw [List.filterMap_cons, hp]
    simp only [List.map_cons]
    rw [hkeyed id pane hp, ih fun id' h' => h id' (List.mem_cons_of_mem _ h')]

theorem normalizeRecoveryCWD_clean {cwd : String} (ht : trimSpace cwd = cwd) (ha : pathIsAbs cwd = true)
    (hc : pathClean cwd = cwd) : NormalizeRecoveryCWD cwd = "" ∨ NormalizeRecoveryCWD cwd = cwd := by
  unfold NormalizeRecoveryCWD
  rw [ht]
  simp only
  split
  · exact Or.inl rfl
  · rw [ha, hc]
    exact Or.inr rfl

mutual
/-- A tree without missing nodes is not too deep when its depth fits. -/
theorem recoveryLayoutDepth_ok : ∀ {n : LayoutNode} {depth : Nat}, WellFormedLayout n →
    depth + layoutDepth n ≤ workspaceRecoveryMaxLayoutDepth → validateRecoveryLayoutDepth n depth = none
  | .nil, depth, h, _ => nomatch h
  | .node t d p cs z, depth, h, hd => by
    rw [layoutDepth] at hd
    have hcs : ∀ c ∈ cs, WellFormedLayout c := by
      cases h with
      | leaf => simp
      | split _ _ hw => exact hw
    rw [validateRecoveryLayoutDepth, if_neg (by omega)]
    exact recoveryLayoutsDepth_ok hcs hd
theorem recoveryLayoutsDepth_ok : ∀ {cs : List LayoutNode} {depth : Nat}, (∀ c ∈ cs, WellFormedLayout c) →
    depth + layoutsDepth cs ≤ workspaceRecoveryMaxLayoutDepth → validateRecoveryLayoutsDepth cs (depth + 1) = none
  | [], depth, _, _ => by rw [validateRecoveryLayoutsDepth]
  | c :: cs, depth, hw, hd => by
    rw [layoutsDepth] at hd
    rw [validateRecoveryLayoutsDepth, recoveryLayoutDepth_ok (hw c (List.mem_cons_self ..)) (by omega)]
    exact recoveryLayoutsDepth_ok (fun x h => hw x (List.mem_cons_of_mem _ h)) (by omega)
end

/-- A tab's saved form, with the panes the map has. -/
theorem recoveredTab_saved {w : Workspace} (h : SavedInv w) {t : TerminalTab} (ht : t ∈ w.tabs) :
    recoveredTab (recoveryTabOf {
      ID := t.ID, Label := t.Label, CustomLabel := t.CustomLabel, ActivePaneID := t.ActivePaneID
      Layout := cloneLayout t.Layout, Panes := t.PaneIDs.filterMap fun paneID => w.panes.lookup paneID }) = t := by
  have hpane {id : String} (hid : id ∈ t.PaneIDs) : id ∈ w.panes ∧ trimSpace id = id := by
    have hm : id ∈ paneIDsOf w.tabs := List.mem_flatMap.mpr ⟨t, ht, hid⟩
    exact ⟨(h.inv.core.keySet id).mpr hm, (trimSpace_numeric.2 (h.paneIDs id (Or.inl hm))).1⟩
  have hids : (t.PaneIDs.filterMap fun paneID => w.panes.lookup paneID).map (fun pane => trimSpace pane.id) =
      t.PaneIDs := by
    calc (t.PaneIDs.filterMap fun paneID => w.panes.lookup paneID).map (fun pane => trimSpace pane.id)
      _ = ((t.PaneIDs.filterMap fun paneID => w.panes.lookup paneID).map (·.id)).map trimSpace := by
        rw [List.map_map]; rfl
      _ = t.PaneIDs.map trimSpace := by rw [lookup_panes h.keyed fun id hid => (hpane hid).1]
      _ = t.PaneIDs := (List.map_congr_left fun id hid => (hpane hid).2).trans (List.map_id _)
  have hactive := (hpane (h.inv.core.each t ht).active).2
  have htab := (trimSpace_numeric.1 (h.tabIDs t.ID (List.mem_map_of_mem ht))).1
  unfold recoveredTab recoveryTabOf WorkspaceRecoveryTab.paneIDs cloneLayout
  simp only [List.map_map, Function.comp_def]
  rw [hids, hactive, htab]

/-- The snapshot's tabs come back from the document one by one. -/
theorem recoveredTabs_saved {w : Workspace} (h : SavedInv w.snapshot.1) (epoch : String) :
    (WorkspaceRecoveryDocumentFromState epoch w.snapshot.2).Tabs.map recoveredTab = w.snapshot.1.tabs := by
  unfold WorkspaceRecoveryDocumentFromState
  have hs : w.snapshot.2.Tabs = w.snapshot.1.tabs.map fun t => {
      ID := t.ID, Label := t.Label, CustomLabel := t.CustomLabel, ActivePaneID := t.ActivePaneID
      Layout := cloneLayout t.Layout
      Panes := t.PaneIDs.filterMap fun paneID => w.snapshot.1.panes.lookup paneID } := rfl
  rw [hs]
  simp only [List.map_map]
  exact (List.map_congr_left fun t ht => recoveredTab_saved h ht).trans (List.map_id _)

theorem SavedInv.snapshot {w : Workspace} (h : SavedInv w) : SavedInv w.snapshot.1 := by
  have hids : IdStep w w.snapshot.1 := applyEvent_ids w .snapshot
  exact {
    inv := snapshot_inv h.inv
    keyed := hids.keyed h.keyed
    tabIDs := hids.tabs.numeric h.tabCounter h.tabIDs
    paneIDs := hids.panes.numeric h.paneCounter h.paneIDs
    tabCounter := h.tabCounter
    paneCounter := h.paneCounter
    generation := h.generation }

theorem collectRecentTabs_kept {w : Workspace} {ids : List String} (h : RecentInv w.tabs ids)
    (ht : ∀ id ∈ tabIDsOf w.tabs, Trimmed id) : w.collectRecentTabs ids [] = ids := by
  obtain ⟨hl, hn, hm⟩ := h
  have append {items : List String} {id : String} (hid : id ∈ ids) (hnot : id ∉ items) :
      w.appendRecentTabLocked items id = items ++ [id] := by
    obtain ⟨htrim, hne⟩ := ht id (hm id hid)
    unfold appendRecentTabLocked
    simp only
    rw [htrim, if_neg, if_neg (by simpa using hnot)]
    rw [not_or, findTabLocked_none, not_not]
    exact ⟨hne, hm id hid⟩
  match ids with
  | [] => rfl
  | [a] =>
    rw [collectRecentTabs, append (List.mem_cons_self ..) List.not_mem_nil]
    rfl
  | [a, b] =>
    have hne : b ∉ [a] := fun he => (List.nodup_cons.mp hn).1 (by rw [List.mem_singleton.mp he]; exact List.mem_cons_self ..)
    rw [collectRecentTabs, append (List.mem_cons_self ..) List.not_mem_nil]
    simp only [List.nil_append, List.length_singleton]
    rw [if_neg (by omega), collectRecentTabs, append (by simp) hne]
    rfl
  | a :: b :: c :: rest => simp at hl

section
variable {w : Workspace} {epoch : String}

theorem saved_tabIDs (h : SavedInv w.snapshot.1) :
    recoveryTabIDs (WorkspaceRecoveryDocumentFromState epoch w.snapshot.2).Tabs = tabIDsOf w.snapshot.1.tabs := by
  rw [← tabIDsOf_recovered, recoveredTabs_saved h]

theorem saved_paneIDs (h : SavedInv w.snapshot.1) :
    recoveryPaneIDs (WorkspaceRecoveryDocumentFromState epoch w.snapshot.2).Tabs = paneIDsOf w.snapshot.1.tabs := by
  rw [← paneIDsOf_recovered, recoveredTabs_saved h]

/-- A saved tab is the form of a tab there is, and its working directories are clean. -/
theorem saved_tab (h : SavedInv w.snapshot.1) (hs : Savable w.snapshot.2) {tab : WorkspaceRecoveryTab}
    (ht : tab ∈ (WorkspaceRecoveryDocumentFromState epoch w.snapshot.2).Tabs) :
    recoveredTab tab ∈ w.snapshot.1.tabs ∧ byteLength tab.Label ≤ 16 * 1024 ∧
      layoutDepth tab.Layout ≤ workspaceRecoveryMaxLayoutDepth ∧
        ∀ pane ∈ tab.Panes, pane.CWD = "" ∨ NormalizeRecoveryCWD pane.CWD = pane.CWD := by
  have hm : recoveredTab tab ∈ w.snapshot.1.tabs := by
    rw [← recoveredTabs_saved h epoch]
    exact List.mem_map_of_mem ht
  obtain ⟨state, hstate, rfl⟩ := List.mem_map.mp ht
  refine ⟨hm, hs.label state hstate, hs.depth state hstate, fun pane hp => ?_⟩
  obtain ⟨live, hlive, rfl⟩ := List.mem_map.mp hp
  obtain ⟨htrim, habs, hclean⟩ := hs.cwd state hstate live hlive
  refine (normalizeRecoveryCWD_clean htrim habs hclean).imp (fun he => he) fun he => ?_
  simp only [he]

theorem saved_tabAccepted (h : SavedInv w.snapshot.1) (hs : Savable w.snapshot.2) {tab : WorkspaceRecoveryTab}
    (ht : tab ∈ (WorkspaceRecoveryDocumentFromState epoch w.snapshot.2).Tabs) : TabAccepted tab := by
  obtain ⟨hm, hlabel, hdepth, hcwd⟩ := saved_tab h hs ht
  have hinv := h.inv.core.each _ hm
  have hnodup : tab.paneIDs.Nodup := (List.nodup_flatMap.mp h.inv.core.paneIDs).1 _ hm
  have hpane {id : String} (hid : id ∈ tab.paneIDs) : numericWorkspaceID id "pane-" ≠ none :=
    h.paneIDs id (Or.inl (List.mem_flatMap.mpr ⟨recoveredTab tab, hm, hid⟩))
  exact {
    id := h.tabIDs _ (List.mem_map_of_mem hm)
    label := hlabel
    nonempty := fun he => hinv.nonempty (List.map_eq_nil_iff.mpr he)
    panes := fun pane hp => ⟨hpane (List.mem_map_of_mem hp), hcwd pane hp⟩
    active := hinv.active
    depth := recoveryLayoutDepth_ok (hinv.wellFormed : WellFormedLayout tab.Layout) (by omega)
    layout := @validateLayoutForTab_accepts (recoveryCandidate tab) _ (hinv.wellFormed : WellFormedLayout tab.Layout).tree
      ((hinv.leaves : tab.Layout.leaves.Perm tab.paneIDs).nodup_iff.mpr hnodup) hinv.leaves }

theorem saved_accepted (h : SavedInv w.snapshot.1) (hs : Savable w.snapshot.2)
    (hepoch : trimSpace epoch ≠ "" ∧ byteLength epoch ≤ 128) :
    DocumentAccepted (WorkspaceRecoveryDocumentFromState epoch w.snapshot.2) where
  version := rfl
  epoch := by
    refine ⟨?_, Nat.le_trans (byteLength_trimSpace epoch) hepoch.2⟩
    show trimSpace (trimSpace epoch) ≠ ""
    rw [trimSpace_idem]
    exact hepoch.1
  generation := by
    refine ⟨?_, Nat.le_trans (byteLength_trimSpace _) h.generation.2⟩
    show trimSpace (trimSpace w.snapshot.1.workspaceGeneration) ≠ ""
    rw [trimSpace_idem]
    exact h.generation.1
  count := by
    show (w.snapshot.2.Tabs.map recoveryTabOf).length ≤ _
    rw [List.length_map]
    exact hs.tabs
  tabs := {
    each := fun tab ht => saved_tabAccepted h hs ht
    tabIDs := by rw [saved_tabIDs h]; exact h.inv.core.tabIDs
    newTabs := fun _ _ hm => by cases hm
    paneIDs := by rw [saved_paneIDs h]; exact h.inv.core.paneIDs
    newPanes := fun _ _ hm => by cases hm
    count := by
      intro _
      have hcount : (recoveryPaneIDs (w.snapshot.2.Tabs.map recoveryTabOf)).length =
          (w.snapshot.2.Tabs.flatMap (·.Panes)).length := by
        simp [recoveryPaneIDs, WorkspaceRecoveryTab.paneIDs, recoveryTabOf, List.length_flatMap, Function.comp_def]
      have := hs.panes
      rw [← hcount] at this
      rw [List.length_nil, Nat.zero_add]
      exact this }
  active := by
    rw [saved_tabIDs h]
    rcases h.inv.select.active with hm | ⟨he, hn⟩
    · refine Or.inl ?_
      show trimSpace w.snapshot.1.activeTab ∈ _
      rwa [(trimSpace_numeric.1 (h.tabIDs _ hm)).1]
    · refine Or.inr ⟨?_, ?_⟩
      · have := recoveredTabs_saved h epoch
        rw [hn] at this
        exact List.map_eq_nil_iff.mp this
      · show trimSpace w.snapshot.1.activeTab = ""
        rw [he, trimSpace_empty]
  recent := by
    rw [saved_tabIDs h]
    exact h.inv.select.recent.2.2

end

theorem recoverPanes_ok (cols rows : Int) {spawn : String → SpawnResult}
    (hspawn : ∀ paneID, ∃ directory, spawn paneID = .ok directory) (ps : List WorkspaceRecoveryPane) :
    ∀ w : Workspace, ∃ w', recoverPanes cols rows spawn ps w = (w', none) := by
  induction ps with
  | nil => exact fun w => ⟨w, rfl⟩
  | cons recovered rest ih =>
    intro w
    obtain ⟨directory, hd⟩ := hspawn recovered.ID
    rw [recoverPanes, hd]
    exact ih _

theorem recoverTabs_ok (cols rows : Int) {spawn : String → SpawnResult}
    (hspawn : ∀ paneID, ∃ directory, spawn paneID = .ok directory) (tabs : List WorkspaceRecoveryTab) :
    ∀ w : Workspace, ∃ w', recoverTabs cols rows spawn tabs w = (w', none) := by
  induction tabs with
  | nil => exact fun w => ⟨w, rfl⟩
  | cons recovered rest ih =>
    intro w
    obtain ⟨v, hv⟩ := recoverPanes_ok cols rows hspawn recovered.Panes w
    rw [recoverTabs, hv]
    exact ih _

/-- A document without errors gives a workspace when every pane starts. -/
theorem newRecovered_ok {document : WorkspaceRecoveryDocument} (hd : DocumentAccepted document) (hne : document.Tabs ≠ [])
    (selector username workspaceGeneration : String) (cols rows : Int) {spawn : String → SpawnResult}
    (hspawn : ∀ paneID, ∃ directory, spawn paneID = .ok directory) :
    ∃ v, newRecoveredTerminalWorkspace document selector username cols rows (.ok workspaceGeneration) spawn =
      (some v, none) := by
  obtain ⟨v, hv⟩ := recoverTabs_ok cols rows hspawn document.Tabs
    (empty selector workspaceGeneration username)
  obtain ⟨panes, rfl, -, -⟩ := recoverTabs_shape hv
  unfold newRecoveredTerminalWorkspace
  rw [validateDocument_iff.mpr hd]
  simp only
  rw [hv]
  simp only
  rw [if_neg (by simp [empty, hne])]
  exact ⟨_, rfl⟩

/-- Every workspace of a run without counter overflows can be saved, and comes back the same. -/
theorem save_restore {o : Origin} {w₀ w : Workspace} {es : List WorkspaceEvent} (ho : o.Makes w₀) (hc : o.Clean)
    (hrun : recoveredMachine.run w₀ es = some w) (hb : recoveredMachine.Along CountersBelow w₀ es) {epoch : String}
    (hepoch : trimSpace epoch ≠ "" ∧ byteLength epoch ≤ 128) (hs : Savable w.snapshot.2) : RoundTrips epoch w := by
  have h := (run_saved (Origin.saved ho hc) hrun hb).snapshot
  have hd := saved_accepted h hs hepoch
  refine ⟨validateDocument_iff.mpr hd, fun hne selector username workspaceGeneration cols rows spawn hspawn => ?_⟩
  have hne' : (WorkspaceRecoveryDocumentFromState epoch w.snapshot.2).Tabs ≠ [] :=
    fun he => hne (List.map_eq_nil_iff.mp he)
  obtain ⟨v, hv⟩ := newRecovered_ok hd hne' selector username workspaceGeneration cols rows hspawn
  obtain ⟨-, _, -, ⟨hnil, -⟩ | ⟨-, panes, -, -, rfl⟩⟩ := recovered_cases hv
  · exact absurd hnil hne'
  have htabs := recoveredTabs_saved h epoch
  refine ⟨_, hv, htabs, ?_, ?_⟩
  · -- an active tab's id is numeric, and so has no space to trim
    show trimSpace w.snapshot.1.activeTab = w.snapshot.1.activeTab
    rcases h.inv.select.active with hm | ⟨he, -⟩
    · exact (trimSpace_numeric.1 (h.tabIDs _ hm)).1
    · rw [he, trimSpace_empty]
  · refine collectRecentTabs_kept ?_ ?_
    · show RecentInv ((WorkspaceRecoveryDocumentFromState epoch w.snapshot.2).Tabs.map recoveredTab) _
      rw [htabs]
      exact h.inv.select.recent
    · show ∀ id ∈ tabIDsOf ((WorkspaceRecoveryDocumentFromState epoch w.snapshot.2).Tabs.map recoveredTab), Trimmed id
      rw [htabs]
      exact fun id hid => trimSpace_numeric.1 (h.tabIDs id hid)

def zeros : List (Fin 256) := List.replicate 16 0

def splitHome : List WorkspaceEvent := [.action (splitRequest "tab-1" "pane-1" .vertical 120 32) (.ok "/home")]

theorem save_restore_split : ∃ w, recoveredMachine.run (Workspace.fresh "" (encodeToString zeros) "u" 120 32 "/")
    splitHome = some w ∧ RoundTrips "e" w := by
  have hmakes : Origin.Makes (.fresh "" "u" zeros 120 32 "/") (Workspace.fresh "" (encodeToString zeros) "u" 120 32 "/") :=
    ⟨rfl, rfl⟩
  have hbelow : recoveredMachine.Along CountersBelow (Workspace.fresh "" (encodeToString zeros) "u" 120 32 "/") splitHome :=
    ⟨⟨by decide +kernel, by decide +kernel⟩, fun _ _ => trivial⟩
  refine ⟨_, rfl, save_restore hmakes trivial (show recoveredMachine.run _ splitHome = some _ from rfl) hbelow
    (by decide +kernel) ?_⟩
  exact ⟨by decide +kernel, by decide +kernel, by decide +kernel, by decide +kernel, by decide +kernel⟩

/-- A tab whose pane has the largest number. -/
def lastPane : WorkspaceRecoveryDocument where
  Version := 1
  Epoch := "e"
  WorkspaceGeneration := "g"
  ActiveTabID := "tab-1"
  RecentTabIDs := []
  Tabs := [{
    ID := "tab-1", Label := "a", CustomLabel := false, ActivePaneID := "pane-9223372036854775807"
    Layout := leafNode "pane-9223372036854775807" 0, Panes := [{ ID := "pane-9223372036854775807", CWD := "/" }] }]

theorem lastPane_unsavable : ∃ w₀ w, Origin.Makes (.restored lastPane "" "u" zeros 120 32 fun _ => .ok "/") w₀ ∧
    recoveredMachine.run w₀ [.action { Action := .createTab } (.ok "/")] = some w ∧ Savable w.snapshot.2 ∧
      ¬RoundTrips "e" w := by
  refine ⟨_, _, ⟨rfl, rfl⟩, rfl, ?_, fun h => absurd h.1 (by decide +kernel)⟩
  exact ⟨by decide +kernel, by decide +kernel, by decide +kernel, by decide +kernel, by decide +kernel⟩

end Workspace

end Webshell
