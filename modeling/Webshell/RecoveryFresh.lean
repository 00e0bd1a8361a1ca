import Webshell.RecoveryLayout

/-!
# Fresh ids after a restore

The counters of a restored workspace stand past the numbers of its ids, unless
an id numbered with the largest int was read: the counter then starts over.
-/

namespace Webshell

open GoText

namespace Workspace

/-- A workspace whose counters are Go ints. -/
def recoveredMachine : Machine Workspace WorkspaceEvent where
  step w e := some (w.applyEvent e).wrapCounters

/-- The ids an event takes from the counters are no tab's and no pane's. -/
def AllocatesFresh (w : Workspace) (e : WorkspaceEvent) : Prop :=
  ((w.applyEvent e).nextTabID ≠ w.nextTabID →
    ¬w.TabPresent (taggedID "tab-" w.nextTabID) ∧ ¬w.PanePresent (taggedID "tab-" w.nextTabID)) ∧
  ((w.applyEvent e).nextPaneID ≠ w.nextPaneID →
    ¬w.TabPresent (taggedID "pane-" w.nextPaneID) ∧ ¬w.PanePresent (taggedID "pane-" w.nextPaneID))

/-- Where an id numbered with the largest int is followed by others, none up to it has a number
between those of the others and the `steps` numbers after these. -/
def NumbersSafe (tag : String) (ids : List String) (steps : Nat) : Prop :=
  ∀ before id after, ids = before ++ id :: after → numericWorkspaceID id tag = some maxInt → after ≠ [] →
    ∀ m, taggedID tag m ∈ before ++ [id] →
      (∃ later ∈ after, ∃ n, numericWorkspaceID later tag = some n ∧ m ≤ n) ∨
        ∀ later ∈ after, ∀ n, numericWorkspaceID later tag = some n → n + steps < m

/-- The next `steps` numbers of a counter give ids that are not present. -/
def FreshFor (tag : String) (steps : Nat) (counter : Int) (present : String → Prop) : Prop :=
  ∀ j < steps, ¬present (taggedID tag (wrapInt (counter + j)))

theorem numbersSafe_of_small {tag : String} {ids : List String} (h : ∀ id ∈ ids, numericWorkspaceID id tag ≠ some maxInt)
    (steps : Nat) : NumbersSafe tag ids steps := by
  rintro before id after rfl hid
  exact absurd hid (h id (by simp))

/-! ## Counting -/

theorem wrapInt_of_range {n : Int} (h : -(2 ^ 63) ≤ n) (h' : n ≤ maxInt) : wrapInt n = n := by
  unfold wrapInt; unfold maxInt at h'; omega

theorem wrapInt_wrap_add (n m : Int) : wrapInt (wrapInt n + m) = wrapInt (n + m) := by
  unfold wrapInt; omega

theorem FreshFor.mono {tag : String} {steps steps' : Nat} {counter : Int} {p q : String → Prop}
    (h : FreshFor tag steps counter p) (hs : steps' ≤ steps) (hq : ∀ id, q id → p id) : FreshFor tag steps' counter q :=
  fun j hj hp => h j (by omega) (hq _ hp)

/-- One allocation at most: the other numbers stay fresh. -/
theorem FreshFor.counted {tag : String} {steps : Nat} {before after : Int} {p q : String → Prop}
    (h : FreshFor tag (steps + 1) before p) (hs : steps < 2 ^ 63) (hb : wrapInt before = before)
    (hc : Counted tag before after p q) : FreshFor tag steps (wrapInt after) q := by
  rcases hc with ⟨rfl, hq⟩ | ⟨rfl, hq⟩
  · rw [hb]
    exact h.mono (by omega) hq
  · intro j hj hp
    rw [wrapInt_wrap_add] at hp
    have hn := h (j + 1) (by omega)
    rw [show before + ((j + 1 : Nat) : Int) = before + 1 + j by omega] at hn
    rcases hq _ hp with hp | he
    · exact hn hp
    · rw [taggedID_inj] at he
      unfold wrapInt at he hb
      omega

/-! ## The counter after reading the ids -/

theorem nextCounter_of_lt {tag id : String} {counter number : Int} (h : numericWorkspaceID id tag = some number)
    (hmax : number ≠ maxInt) : nextCounter tag counter id = max counter (number + 1) := by
  obtain ⟨hpos, hle, -⟩ := numericWorkspaceID_some h
  unfold nextCounter
  rw [h]
  simp only
  split
  · rw [wrapInt_of_range (by omega) (by omega)]
    omega
  · omega

/-- Without the largest int the counter ends past every number, and no further than it has to. -/
theorem foldl_nextCounter {tag : String} {ids : List String} (hmax : ∀ id ∈ ids, numericWorkspaceID id tag ≠ some maxInt) :
    ∀ counter : Int, counter ≤ ids.foldl (nextCounter tag) counter ∧
      (∀ id ∈ ids, ∀ n, numericWorkspaceID id tag = some n → n < ids.foldl (nextCounter tag) counter) ∧
        (ids.foldl (nextCounter tag) counter = counter ∨
          ∃ id ∈ ids, numericWorkspaceID id tag = some (ids.foldl (nextCounter tag) counter - 1)) := by
  induction ids with
  | nil => exact fun counter => ⟨Int.le_refl _, by simp, Or.inl rfl⟩
  | cons id ids ih =>
    intro counter
    have ih := ih (fun id' h => hmax id' (List.mem_cons_of_mem _ h)) (nextCounter tag counter id)
    rw [List.foldl_cons]
    generalize ids.foldl (nextCounter tag) (nextCounter tag counter id) = last at ih
    obtain ⟨hle, hlt, hlast⟩ := ih
    cases hn : numericWorkspaceID id tag with
    | none =>
      have hstay : nextCounter tag counter id = counter := by
        unfold nextCounter; rw [hn]
      rw [hstay] at hle hlast
      refine ⟨hle, fun id' hid n hnum => ?_, ?_⟩
      · rcases List.mem_cons.mp hid with rfl | hid
        · rw [hn] at hnum; cases hnum
        · exact hlt id' hid n hnum
      · exact hlast.imp (fun h => h) fun ⟨id', hid, h⟩ => ⟨id', List.mem_cons_of_mem _ hid, h⟩
    | some number =>
      have hstep : nextCounter tag counter id = max counter (number + 1) := nextCounter_of_lt hn fun he =>
        hmax id (List.mem_cons_self ..) (he ▸ hn)
      refine ⟨by omega, fun id' hid n hnum => ?_, ?_⟩
      · rcases List.mem_cons.mp hid with rfl | hid
        · rw [hn] at hnum
          cases hnum
          omega
        · exact hlt id' hid n hnum
      · rcases hlast with hlast | ⟨id', hid, h⟩
        · rcases Int.le_total (number + 1) counter with hc | hc
          · exact Or.inl (by omega)
          · refine Or.inr ⟨id, List.mem_cons_self .., ?_⟩
            rw [hn, hlast, hstep]
            congr 1
            omega
        · exact Or.inr ⟨id', List.mem_cons_of_mem _ hid, h⟩

/-- The largest int makes the counter start over. -/
theorem nextCounter_maxInt {tag id : String} {counter : Int} (h : numericWorkspaceID id tag = some maxInt)
    (hc : counter ≤ maxInt) : nextCounter tag counter id = -(2 ^ 63) := by
  unfold nextCounter
  rw [h]
  simp only
  rw [if_pos hc]
  decide

theorem foldl_nextCounter_le {tag : String} (ids : List String) : ∀ counter : Int, counter ≤ maxInt →
    ids.foldl (nextCounter tag) counter ≤ maxInt := by
  induction ids with
  | nil => exact fun counter h => h
  | cons id ids ih =>
    intro counter h
    refine ih _ ?_
    unfold nextCounter
    split
    · exact h
    · split
      · unfold wrapInt maxInt; omega
      · exact h

/-- The last id that has the property, if one has it. -/
theorem exists_last {α : Type} {p : α → Prop} {xs : List α} (h : ∃ x ∈ xs, p x) :
    ∃ before x after, xs = before ++ x :: after ∧ p x ∧ ∀ y ∈ after, ¬p y := by
  induction xs with
  | nil => obtain ⟨x, hx, -⟩ := h; cases hx
  | cons a xs ih =>
    by_cases hl : ∃ x ∈ xs, p x
    · obtain ⟨before, x, after, rfl, hx, hy⟩ := ih hl
      exact ⟨a :: before, x, after, rfl, hx, hy⟩
    · obtain ⟨x, hx, hp⟩ := h
      rcases List.mem_cons.mp hx with rfl | hx
      · exact ⟨[], x, xs, rfl, hp, fun y hy hpy => hl ⟨y, hy, hpy⟩⟩
      · exact absurd ⟨x, hx, hp⟩ hl

/-- Ids that are all numeric leave fresh numbers behind, if their order is safe. -/
theorem recovered_freshFor {tag : String} {ids : List String} {steps : Nat} (hs : steps < 2 ^ 63)
    (hnum : ∀ id ∈ ids, numericWorkspaceID id tag ≠ none) (hsafe : NumbersSafe tag ids steps) :
    FreshFor tag steps (ids.foldl (nextCounter tag) 1) (· ∈ ids) := by
  have number {id : String} (hid : id ∈ ids) : ∃ n, numericWorkspaceID id tag = some n :=
    Option.ne_none_iff_exists'.mp (hnum id hid)
  -- an allocated id that is present has its own number, which is positive
  have canonical {m : Int} (hm : taggedID tag m ∈ ids) : numericWorkspaceID (taggedID tag m) tag = some m := by
    obtain ⟨n, hn⟩ := number hm
    rw [hn, numericWorkspaceID_canonical hn]
  have positive {m : Int} (hm : taggedID tag m ∈ ids) : 0 < m := (numericWorkspaceID_some (canonical hm)).1
  intro j hj hm
  by_cases hmax : ∃ id ∈ ids, numericWorkspaceID id tag = some maxInt
  · obtain ⟨before, id, after, rfl, hid, hafter⟩ := exists_last hmax
    have hstart : (before ++ id :: after).foldl (nextCounter tag) 1 = after.foldl (nextCounter tag) (-(2 ^ 63)) := by
      rw [List.foldl_append, List.foldl_cons, nextCounter_maxInt hid (foldl_nextCounter_le before 1 (by decide))]
    rw [hstart] at hm
    obtain ⟨-, hlt, hlast⟩ := foldl_nextCounter hafter (-(2 ^ 63))
    have hpos := positive hm
    have hcanon := canonical hm
    generalize after.foldl (nextCounter tag) (-(2 ^ 63)) = counter at hm hlt hlast hpos hcanon
    rcases hlast with rfl | ⟨later, hlater, hl⟩
    · unfold wrapInt at hpos
      omega
    · obtain ⟨hl0, hl1, -⟩ := numericWorkspaceID_some hl
      unfold maxInt at hl1
      have hne : after ≠ [] := List.ne_nil_of_mem hlater
      have hwrap : wrapInt (counter + j) = counter + j := by
        unfold wrapInt at hpos ⊢
        omega
      rw [hwrap] at hm hcanon
      rcases List.mem_append.mp (show taggedID tag (counter + j) ∈ (before ++ [id]) ++ after by simpa using hm) with hm | hm
      · rcases hsafe before id after rfl hid hne _ hm with ⟨x, hx, n, hn, hle⟩ | hfar
        · have := hlt x hx n hn
          omega
        · have := hfar later hlater _ hl
          omega
      · have := hlt _ hm _ hcanon
        omega
  · obtain ⟨hge, hlt, -⟩ := foldl_nextCounter (fun id hid he => hmax ⟨id, hid, he⟩) 1
    have hle : ids.foldl (nextCounter tag) 1 ≤ maxInt := foldl_nextCounter_le ids 1 (by decide)
    have hpos := positive hm
    have := hlt _ hm _ (canonical hm)
    unfold maxInt at hle
    unfold wrapInt at this hpos
    omega

/-! ## Runs -/

/-- What keeps the next `steps` allocations fresh. -/
structure FreshInv (steps : Nat) (w : Workspace) : Prop where
  tabInt : wrapInt w.nextTabID = w.nextTabID
  paneInt : wrapInt w.nextPaneID = w.nextPaneID
  tabs : FreshFor "tab-" steps w.nextTabID w.TabPresent
  panes : FreshFor "pane-" steps w.nextPaneID w.PanePresent
  tabTag : ∀ id, w.TabPresent id → (afterTag id "tab-").isSome
  paneTag : ∀ id, w.PanePresent id → (afterTag id "pane-").isSome

theorem taggedID_tag (tag : String) (n : Int) : (afterTag (taggedID tag n) tag).isSome := by
  unfold taggedID
  rw [afterTag_append]
  rfl

/-- No tab's id is a pane's. -/
theorem tags_apart (rest : String) :
    ¬(afterTag ("tab-" ++ rest) "pane-").isSome ∧ ¬(afterTag ("pane-" ++ rest) "tab-").isSome := by
  unfold afterTag
  constructor <;> rw [String.toList_append, if_neg] <;> simp

theorem Counted.tags {tag : String} {before after : Int} {p q : String → Prop} (h : Counted tag before after p q)
    (hp : ∀ id, p id → (afterTag id tag).isSome) : ∀ id, q id → (afterTag id tag).isSome := by
  intro id hq
  rcases h with ⟨-, h⟩ | ⟨-, h⟩
  · exact hp id (h id hq)
  · rcases h id hq with hid | rfl
    · exact hp id hid
    · exact taggedID_tag ..

theorem wrapInt_wrap (n : Int) : wrapInt (wrapInt n) = wrapInt n := by
  have := wrapInt_wrap_add n 0
  simpa using this

theorem FreshInv.idStep {w w' : Workspace} {steps : Nat} (h : FreshInv (steps + 1) w) (hs : steps < 2 ^ 63)
    (hids : IdStep w w') : FreshInv steps w'.wrapCounters where
  tabInt := wrapInt_wrap _
  paneInt := wrapInt_wrap _
  tabs := h.tabs.counted hs h.tabInt hids.tabs
  panes := h.panes.counted hs h.paneInt hids.panes
  tabTag := hids.tabs.tags h.tabTag
  paneTag := hids.panes.tags h.paneTag

theorem FreshInv.allocates {w : Workspace} {steps : Nat} (h : FreshInv (steps + 1) w) (e : WorkspaceEvent) :
    AllocatesFresh w e := by
  refine ⟨fun _ => ⟨fun hm => ?_, fun hm => ?_⟩, fun _ => ⟨fun hm => ?_, fun hm => ?_⟩⟩
  · refine h.tabs 0 (by omega) ?_
    simpa [h.tabInt] using hm
  · exact (tags_apart _).1 (h.paneTag _ hm)
  · exact (tags_apart _).2 (h.tabTag _ hm)
  · refine h.panes 0 (by omega) ?_
    simpa [h.paneInt] using hm

theorem FreshInv.along {es : List WorkspaceEvent} : ∀ {w : Workspace}, es.length < 2 ^ 63 → FreshInv es.length w →
    recoveredMachine.Along AllocatesFresh w es := by
  induction es with
  | nil => exact fun _ _ => trivial
  | cons e es ih =>
    intro w hl h
    rw [List.length_cons] at hl h
    refine ⟨h.allocates e, fun w' hw' => ?_⟩
    cases hw'
    exact ih (by omega) (h.idStep (by omega) (applyEvent_ids w e))

/-- Counters that are ints are not changed by wrapping them. -/
theorem wrapCounters_of_int {w : Workspace} (ht : wrapInt w.nextTabID = w.nextTabID)
    (hp : wrapInt w.nextPaneID = w.nextPaneID) : w.wrapCounters = w := by
  unfold wrapCounters
  rw [ht, hp]

theorem fresh_freshInv (selector workspaceGeneration username : String) (cols rows : Int) (directory : String)
    {steps : Nat} (hs : steps < 2 ^ 63) : FreshInv steps (fresh selector workspaceGeneration username cols rows directory) := by
  have hempty : FreshInv (steps + 1) (empty selector workspaceGeneration username) := by
    refine ⟨rfl, rfl, ?_, ?_, ?_, ?_⟩
    · exact fun j _ hm => by cases hm
    · exact fun j _ hm => hm.elim (fun hm => by cases hm) (AList.notMem_empty _)
    · exact fun id hm => by cases hm
    · exact fun id hm => hm.elim (fun hm => by cases hm) fun hm => absurd hm (AList.notMem_empty _)
  have hids : IdStep _ (fresh selector workspaceGeneration username cols rows directory) := createTab_ids ..
  have hint : ∀ {tag : String} {p q : String → Prop} {after : Int}, Counted tag 1 after p q → wrapInt after = after := by
    intro tag p q after hc
    unfold wrapInt
    rcases hc with ⟨rfl, -⟩ | ⟨rfl, -⟩ <;> decide
  have h := hempty.idStep hs hids
  rwa [wrapCounters_of_int (hint hids.tabs) (hint hids.panes)] at h

theorem wrapInt_nextCounter {tag : String} (ids : List String) : ∀ {counter : Int}, wrapInt counter = counter →
    wrapInt (ids.foldl (nextCounter tag) counter) = ids.foldl (nextCounter tag) counter := by
  induction ids with
  | nil => exact fun h => h
  | cons id ids ih =>
    intro counter h
    refine ih ?_
    unfold nextCounter
    split
    · exact h
    · split
      · exact wrapInt_wrap _
      · exact h

theorem numericWorkspaceID_tag {id tag : String} (h : numericWorkspaceID id tag ≠ none) : (afterTag id tag).isSome := by
  obtain ⟨n, hn⟩ := Option.ne_none_iff_exists'.mp h
  obtain ⟨-, -, rest, rfl, -⟩ := numericWorkspaceID_some hn
  rw [afterTag_append]
  rfl

/-- A restored workspace allocates fresh ids for as long as its counters do not run into the numbers
that come before one with the largest int. -/
theorem restored_allocates_fresh {document : WorkspaceRecoveryDocument} {selector username : String} {cols rows : Int}
    {generation : Except String String} {spawn : String → SpawnResult} {w : Workspace}
    (h : newRecoveredTerminalWorkspace document selector username cols rows generation spawn = (some w, none))
    {es : List WorkspaceEvent} (hl : es.length < 2 ^ 63)
    (ht : NumbersSafe "tab-" (recoveryTabIDs document.Tabs) es.length)
    (hp : NumbersSafe "pane-" (recoveryPaneIDs document.Tabs) es.length) :
    recoveredMachine.Along AllocatesFresh w es := by
  refine FreshInv.along hl ?_
  obtain ⟨hd, workspaceGeneration, -, hcases⟩ := recovered_cases h
  rcases hcases with ⟨-, directory, -, rfl⟩ | ⟨hne, panes, -, hk, rfl⟩
  · exact fresh_freshInv _ _ _ _ _ _ hl
  · have htabs : ∀ id ∈ recoveryTabIDs document.Tabs, numericWorkspaceID id "tab-" ≠ none := by
      intro id hid
      obtain ⟨tab, hm, rfl⟩ := List.mem_map.mp hid
      exact (hd.tabs.each tab hm).id
    have hpanes : ∀ id ∈ recoveryPaneIDs document.Tabs, numericWorkspaceID id "pane-" ≠ none := by
      intro id hid
      obtain ⟨tab, hm, hx⟩ := List.mem_flatMap.mp hid
      obtain ⟨pane, hpm, rfl⟩ := List.mem_map.mp hx
      exact ((hd.tabs.each tab hm).panes pane hpm).id
    have tabPresent {id : String} (hm : id ∈ tabIDsOf (document.Tabs.map recoveredTab)) :
        id ∈ recoveryTabIDs document.Tabs := by rwa [tabIDsOf_recovered] at hm
    have panePresent {id : String} (hm : id ∈ paneIDsOf (document.Tabs.map recoveredTab) ∨ id ∈ panes) :
        id ∈ recoveryPaneIDs document.Tabs := by
      rw [paneIDsOf_recovered] at hm
      exact hm.elim (fun hm => hm) (hk id).mp
    exact {
      tabInt := wrapInt_nextCounter _ rfl
      paneInt := wrapInt_nextCounter _ rfl
      tabs := (recovered_freshFor hl htabs ht).mono (Nat.le_refl _) fun _ => tabPresent
      panes := (recovered_freshFor hl hpanes hp).mono (Nat.le_refl _) fun _ => panePresent
      tabTag := fun id hm => numericWorkspaceID_tag (htabs id (tabPresent hm))
      paneTag := fun id hm => numericWorkspaceID_tag (hpanes id (panePresent hm)) }

theorem restored_allocates_fresh_split : ∃ w, restore (twoPanes sideBySide) = (some w, none) ∧
    recoveredMachine.Along AllocatesFresh w
      [.action (splitRequest "tab-1" "pane-2" .vertical 120 32) (.ok "/"), .action { Action := .createTab } (.ok "/")] := by
  obtain ⟨w, hw⟩ : ∃ w, restore (twoPanes sideBySide) = (some w, none) := ⟨_, rfl⟩
  exact ⟨w, hw, restored_allocates_fresh hw (by decide) (numbersSafe_of_small (by decide +kernel) _)
    (numbersSafe_of_small (by decide +kernel) _)⟩

/-- A tab whose pane ids come in an order that leaves the counter at 2. -/
def largestPane : WorkspaceRecoveryDocument where
  Version := 1
  Epoch := "e"
  WorkspaceGeneration := "g"
  ActiveTabID := "tab-1"
  RecentTabIDs := []
  Tabs := [{
    ID := "tab-1", Label := "a", CustomLabel := false, ActivePaneID := "pane-2"
    Layout := .node .split .vertical ""
      [leafNode "pane-2" 40, leafNode "pane-9223372036854775807" 30, leafNode "pane-1" 30] 0
    Panes := [{ ID := "pane-2", CWD := "" }, { ID := "pane-9223372036854775807", CWD := "" },
      { ID := "pane-1", CWD := "" }] }]

theorem largestPane_reuses_id : ∃ w, restore largestPane = (some w, none) ∧
    ¬recoveredMachine.Along AllocatesFresh w [.action { Action := .createTab } (.ok "/")] := by
  refine ⟨_, rfl, fun h => (h.1.2 (by decide +kernel)).2 (Or.inl (by decide +kernel))⟩

end Workspace

end Webshell
