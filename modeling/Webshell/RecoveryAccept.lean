import Webshell.Recovery
import Webshell.LayoutSound
import Mathlib.Data.List.Nodup

/-!
# Accepted documents

What `ValidateWorkspaceRecoveryDocument` checks, as a property of the document
as a whole: it accepts exactly the documents that have it.
-/

namespace Webshell

open GoText

structure PaneAccepted (pane : WorkspaceRecoveryPane) : Prop where
  id : numericWorkspaceID pane.ID "pane-" ≠ none
  cwd : pane.CWD = "" ∨ NormalizeRecoveryCWD pane.CWD = pane.CWD

structure TabAccepted (tab : WorkspaceRecoveryTab) : Prop where
  id : numericWorkspaceID tab.ID "tab-" ≠ none
  label : byteLength tab.Label ≤ 16 * 1024
  nonempty : tab.Panes ≠ []
  panes : ∀ pane ∈ tab.Panes, PaneAccepted pane
  active : tab.ActivePaneID ∈ tab.paneIDs
  depth : validateRecoveryLayoutDepth tab.Layout 0 = none
  layout : ∃ n, validateLayoutForTab tab.Layout (recoveryCandidate tab) = .ok n

def recoveryTabIDs (tabs : List WorkspaceRecoveryTab) : List String := tabs.map (·.ID)

def recoveryPaneIDs (tabs : List WorkspaceRecoveryTab) : List String := tabs.flatMap (·.paneIDs)

/-- Tabs that pass after some tabs and panes have been seen. -/
structure TabsAccepted (tabs : List WorkspaceRecoveryTab) (seenTabs seenPanes : List String) : Prop where
  each : ∀ tab ∈ tabs, TabAccepted tab
  tabIDs : (recoveryTabIDs tabs).Nodup
  newTabs : ∀ id ∈ recoveryTabIDs tabs, id ∉ seenTabs
  paneIDs : (recoveryPaneIDs tabs).Nodup
  newPanes : ∀ id ∈ recoveryPaneIDs tabs, id ∉ seenPanes
  count : tabs ≠ [] → seenPanes.length + (recoveryPaneIDs tabs).length ≤ workspaceRecoveryMaxPanes

structure DocumentAccepted (document : WorkspaceRecoveryDocument) : Prop where
  version : document.Version = workspaceRecoveryVersion
  epoch : trimSpace document.Epoch ≠ "" ∧ byteLength document.Epoch ≤ 128
  generation : trimSpace document.WorkspaceGeneration ≠ "" ∧ byteLength document.WorkspaceGeneration ≤ 128
  count : document.Tabs.length ≤ workspaceRecoveryMaxTabs
  tabs : TabsAccepted document.Tabs [] []
  active : document.ActiveTabID ∈ recoveryTabIDs document.Tabs ∨ document.Tabs = [] ∧ document.ActiveTabID = ""
  recent : ∀ id ∈ document.RecentTabIDs, id ∈ recoveryTabIDs document.Tabs

theorem validateRecoveryPanes_iff {panes : List WorkspaceRecoveryPane} : ∀ {seen after : List String},
    validateRecoveryPanes panes seen = .ok after ↔
      after = (panes.map (·.ID)).reverse ++ seen ∧ (∀ pane ∈ panes, PaneAccepted pane) ∧
        (panes.map (·.ID)).Nodup ∧ ∀ id ∈ panes.map (·.ID), id ∉ seen := by
  induction panes with
  | nil =>
    intro seen after
    simp [validateRecoveryPanes, eq_comm]
  | cons pane panes ih =>
    intro seen after
    rw [validateRecoveryPanes]
    split
    · rename_i hid
      refine iff_of_false (by simp) ?_
      rintro ⟨-, hall, -, hnew⟩
      rcases hid with hid | hid
      · exact (hall pane (List.mem_cons_self ..)).id hid
      · exact hnew pane.ID (by simp) hid
    · rename_i hid
      rw [not_or] at hid
      split
      · rename_i hcwd
        refine iff_of_false (by simp) ?_
        rintro ⟨-, hall, -, -⟩
        exact (hall pane (List.mem_cons_self ..)).cwd.elim hcwd.1 hcwd.2
      · rename_i hcwd
        have hpane : PaneAccepted pane := by
          refine ⟨hid.1, ?_⟩
          by_cases he : pane.CWD = ""
          · exact Or.inl he
          · exact Or.inr (not_not.mp fun hn => hcwd ⟨he, hn⟩)
        rw [ih]
        simp only [List.map_cons, List.reverse_cons, List.append_assoc, List.singleton_append, List.nodup_cons,
          List.mem_cons, forall_eq_or_imp, not_or]
        constructor
        · rintro ⟨rfl, hall, hn, hnew⟩
          refine ⟨rfl, ⟨hpane, hall⟩, ⟨fun hm => (hnew _ hm).1 rfl, hn⟩, hid.2, fun id hm => (hnew id hm).2⟩
        · rintro ⟨rfl, ⟨-, hall⟩, ⟨hm, hn⟩, -, hnew⟩
          exact ⟨rfl, hall, hn, fun id hx => ⟨fun he => hm (he ▸ hx), hnew id hx⟩⟩

theorem validateRecoveryTab_iff {tab : WorkspaceRecoveryTab} {tabIDs paneIDs after : List String} :
    validateRecoveryTab tab tabIDs paneIDs = .ok after ↔
      after = tab.paneIDs.reverse ++ paneIDs ∧ TabAccepted tab ∧ tab.ID ∉ tabIDs ∧ tab.paneIDs.Nodup ∧
        (∀ id ∈ tab.paneIDs, id ∉ paneIDs) ∧ paneIDs.length + tab.paneIDs.length ≤ workspaceRecoveryMaxPanes := by
  have hlen : tab.paneIDs.length = tab.Panes.length := List.length_map _
  unfold validateRecoveryTab
  split
  · rename_i hid
    refine iff_of_false (by simp) ?_
    rintro ⟨-, ht, hnew, -⟩
    exact hid.elim ht.id hnew
  · rename_i hid
    rw [not_or] at hid
    split
    · rename_i hbad
      refine iff_of_false (by simp) ?_
      rintro ⟨-, ht, -, -, -, hcount⟩
      rcases hbad with hbad | hbad | hbad
      · exact absurd ht.label (by omega)
      · exact ht.nonempty hbad
      · omega
    · rename_i hbad
      simp only [not_or, Nat.not_lt] at hbad
      cases hp : validateRecoveryPanes tab.Panes paneIDs with
      | error err =>
        refine iff_of_false (by simp) ?_
        rintro ⟨-, ht, -, hn, hnew, -⟩
        rw [validateRecoveryPanes_iff.mpr ⟨rfl, ht.panes, hn, hnew⟩] at hp
        cases hp
      | ok seen =>
        obtain ⟨hseen, hall, hn, hnew⟩ := validateRecoveryPanes_iff.mp hp
        simp only
        split
        · rename_i hact
          refine iff_of_false (by simp) ?_
          rintro ⟨-, ht, -⟩
          exact hact ht.active
        · rename_i hact
          cases hd : validateRecoveryLayoutDepth tab.Layout 0 with
          | some err =>
            refine iff_of_false (by simp) ?_
            rintro ⟨-, ht, -⟩
            rw [ht.depth] at hd; cases hd
          | none =>
            cases hv : validateLayoutForTab (cloneLayout tab.Layout) (recoveryCandidate tab) with
            | error err =>
              refine iff_of_false (by simp) ?_
              rintro ⟨-, ht, -⟩
              obtain ⟨n, hok⟩ := ht.layout
              exact absurd (hv.symm.trans hok) (by simp)
            | ok n =>
              simp only [Except.ok.injEq]
              constructor
              · rintro rfl
                exact ⟨hseen, ⟨hid.1, hbad.1, hbad.2.1, hall, not_not.mp hact, hd, n, hv⟩, hid.2, hn, hnew,
                  by omega⟩
              · rintro ⟨rfl, -⟩
                exact hseen

theorem validateRecoveryTabs_iff {tabs : List WorkspaceRecoveryTab} : ∀ {tabIDs paneIDs : List String},
    validateRecoveryTabs tabs tabIDs paneIDs = none ↔ TabsAccepted tabs tabIDs paneIDs := by
  induction tabs with
  | nil =>
    intro tabIDs paneIDs
    rw [validateRecoveryTabs]
    exact iff_of_true rfl ⟨by simp, List.nodup_nil, by simp [recoveryTabIDs], List.nodup_nil,
      by simp [recoveryPaneIDs], fun h => absurd rfl h⟩
  | cons tab tabs ih =>
    intro tabIDs paneIDs
    have hids : recoveryTabIDs (tab :: tabs) = tab.ID :: recoveryTabIDs tabs := rfl
    have hpanes : recoveryPaneIDs (tab :: tabs) = tab.paneIDs ++ recoveryPaneIDs tabs := rfl
    rw [validateRecoveryTabs]
    cases hv : validateRecoveryTab tab tabIDs paneIDs with
    | error err =>
      refine iff_of_false (by simp) fun h => ?_
      have hn := h.paneIDs
      have hnew := h.newPanes
      have hcount := h.count (by simp)
      rw [hpanes] at hn hnew hcount
      rw [List.length_append] at hcount
      rw [validateRecoveryTab_iff.mpr ⟨rfl, h.each tab (List.mem_cons_self ..), h.newTabs _ (List.mem_cons_self ..),
        (List.nodup_append.mp hn).1, fun id hid => hnew id (List.mem_append_left _ hid), by omega⟩] at hv
      cases hv
    | ok after =>
      obtain ⟨rfl, ht, hid, hn, hnew, hcount⟩ := validateRecoveryTab_iff.mp hv
      simp only
      rw [ih]
      constructor
      · intro h
        refine ⟨?_, ?_, ?_, ?_, ?_, ?_⟩
        · intro t hm
          rcases List.mem_cons.mp hm with rfl | hm
          · exact ht
          · exact h.each t hm
        · rw [hids]
          exact List.nodup_cons.mpr ⟨fun hm => h.newTabs _ hm (List.mem_cons_self ..), h.tabIDs⟩
        · rw [hids]
          intro id hm
          rcases List.mem_cons.mp hm with rfl | hm
          · exact hid
          · exact fun hx => h.newTabs id hm (List.mem_cons_of_mem _ hx)
        · rw [hpanes]
          refine List.nodup_append.mpr ⟨hn, h.paneIDs, ?_⟩
          rintro a ha b hb rfl
          exact h.newPanes a hb (List.mem_append_left _ (List.mem_reverse.mpr ha))
        · rw [hpanes]
          intro id hm
          rcases List.mem_append.mp hm with hm | hm
          · exact hnew id hm
          · exact fun hx => h.newPanes id hm (List.mem_append_right _ hx)
        · intro _
          rw [hpanes, List.length_append]
          by_cases he : tabs = []
          · rw [he]; simpa [recoveryPaneIDs] using hcount
          · have := h.count he
            rw [List.length_append, List.length_reverse] at this
            omega
      · intro h
        have hn' := h.paneIDs
        have hnew' := h.newPanes
        have hcount' := h.count (by simp)
        have hti := h.tabIDs
        have htn := h.newTabs
        rw [hpanes] at hn' hnew' hcount'
        rw [List.length_append] at hcount'
        rw [hids] at hti htn
        have hdisj := List.disjoint_of_nodup_append hn'
        refine ⟨fun t hm => h.each t (List.mem_cons_of_mem _ hm), (List.nodup_cons.mp hti).2, ?_,
          (List.nodup_append.mp hn').2.1, ?_, ?_⟩
        · intro id hm hx
          rcases List.mem_cons.mp hx with rfl | hx
          · exact (List.nodup_cons.mp hti).1 hm
          · exact htn id (List.mem_cons_of_mem _ hm) hx
        · intro id hm hx
          rcases List.mem_append.mp hx with hx | hx
          · exact hdisj (List.mem_reverse.mp hx) hm
          · exact hnew' id (List.mem_append_right _ hm) hx
        · intro _
          rw [List.length_append, List.length_reverse]
          omega

/-- Exactly the documents with the property are accepted. -/
theorem validateDocument_iff {document : WorkspaceRecoveryDocument} :
    ValidateWorkspaceRecoveryDocument document = none ↔ DocumentAccepted document := by
  unfold ValidateWorkspaceRecoveryDocument
  simp only
  split
  · rename_i h
    exact iff_of_false (by simp) fun hd => h hd.version
  · rename_i hver
    split
    · rename_i h
      refine iff_of_false (by simp) fun hd => h.elim hd.epoch.1 fun hl => absurd hd.epoch.2 (by omega)
    · rename_i hepoch
      split
      · rename_i h
        refine iff_of_false (by simp) fun hd => h.elim hd.generation.1 fun hl => absurd hd.generation.2 (by omega)
      · rename_i hgen
        rw [not_or, Nat.not_lt] at hepoch hgen
        have hver := not_not.mp hver
        split
        · rename_i h
          exact iff_of_false (by simp) fun hd => absurd hd.count (by omega)
        · rename_i hcount
          rw [Nat.not_lt] at hcount
          split
          · rename_i hnil
            have hids : recoveryTabIDs document.Tabs = [] := by rw [hnil]; rfl
            split
            · rename_i h
              refine iff_of_false (by simp) fun hd => ?_
              rcases h with h | h
              · rcases hd.active with ha | ha
                · rw [hids] at ha; cases ha
                · exact h ha.2
              · obtain ⟨id, hid⟩ := List.exists_mem_of_ne_nil _ h
                have := hd.recent id hid
                rw [hids] at this; cases this
            · rename_i h
              rw [not_or, not_not, not_not] at h
              refine iff_of_true rfl ⟨hver, hepoch, hgen, hcount, ?_, Or.inr ⟨hnil, h.1⟩, ?_⟩
              · rw [hnil]
                exact validateRecoveryTabs_iff.mp rfl
              · rw [h.2]; simp
          · rename_i hnil
            cases ht : validateRecoveryTabs document.Tabs [] [] with
            | some err =>
              refine iff_of_false (by simp) fun hd => ?_
              rw [validateRecoveryTabs_iff.mpr hd.tabs] at ht
              cases ht
            | none =>
              simp only
              split
              · rename_i h
                refine iff_of_false (by simp) fun hd => hd.active.elim h fun ha => hnil ha.1
              · rename_i hact
                split
                · rename_i h
                  refine iff_of_false (by simp) fun hd => ?_
                  obtain ⟨id, hid, hno⟩ := List.any_eq_true.mp h
                  exact (of_decide_eq_true hno) (hd.recent id hid)
                · rename_i h
                  refine iff_of_true rfl ⟨hver, hepoch, hgen, hcount, validateRecoveryTabs_iff.mp ht,
                    Or.inl (not_not.mp hact), fun id hid => ?_⟩
                  by_contra hno
                  exact h (List.any_eq_true.mpr ⟨id, hid, decide_eq_true hno⟩)

/-! ## Numeric ids -/

theorem afterTag_append (tag rest : String) : afterTag (tag ++ rest) tag = some rest := by
  unfold afterTag
  rw [String.toList_append, if_pos (by simp), List.drop_left, String.ofList_toList]

theorem afterTag_some {s tag rest : String} (h : afterTag s tag = some rest) : s = tag ++ rest := by
  unfold afterTag at h
  split at h
  · rename_i hp
    cases h
    obtain ⟨tail, ht⟩ := List.isPrefixOf_iff_prefix.mp hp
    apply String.toList_inj.mp
    rw [String.toList_append, String.toList_ofList, ← ht, List.drop_left]
  · cases h

/-- What `Atoi` reads is an int, and ends in digits. -/
theorem atoi_digits {s : String} {n : Int} (h : atoi s = some n) :
    n ≤ maxInt ∧ ∃ cs : List Char, cs <:+ s.toList ∧ cs ≠ [] ∧ cs.all Char.isDigit = true := by
  unfold atoi at h
  simp only at h
  unfold maxInt
  split at h
  · rename_i cs hs
    obtain ⟨k, hk, hn⟩ := Option.bind_eq_some_iff.mp h
    split at hk
    · rename_i hd
      split at hn
      · cases hn
        exact ⟨by omega, cs, by rw [hs]; exact List.suffix_cons .., hd.1, hd.2⟩
      · cases hn
    · cases hk
  · rename_i cs hs
    obtain ⟨k, hk, hn⟩ := Option.bind_eq_some_iff.mp h
    split at hk
    · rename_i hd
      split at hn
      · cases hn
        exact ⟨by omega, cs, by rw [hs]; exact List.suffix_cons .., hd.1, hd.2⟩
      · cases hn
    · cases hk
  · obtain ⟨k, hk, hn⟩ := Option.bind_eq_some_iff.mp h
    split at hk
    · rename_i hd
      cases hk
      split at hn
      · cases hn
        exact ⟨by omega, s.toList, List.suffix_rfl, hd.1, hd.2⟩
      · cases hn
    · cases hk

theorem atoi_repr {n : Int} (h0 : 0 ≤ n) (h : n ≤ maxInt) : atoi n.repr = some n := by
  unfold maxInt at h
  rcases int_repr_toList n with ⟨hl, -⟩ | ⟨-, hneg⟩
  · have hdig := digits_isDigit n.toNat
    have hval : Nat.ofDigitChars 10 (Nat.toDigits 10 n.toNat) 0 = n.toNat := Nat.ofDigitChars_ten_toDigits
    unfold atoi
    simp only
    rw [hl]
    split
    · rename_i cs hs
      have := hdig '-' (by rw [hs]; exact List.mem_cons_self ..)
      exact absurd this (by decide)
    · rename_i cs hs
      have := hdig '+' (by rw [hs]; exact List.mem_cons_self ..)
      exact absurd this (by decide)
    · rw [if_pos ⟨Nat.toDigits_ne_nil, List.all_eq_true.mpr hdig⟩, hval]
      simp only [Option.bind_some]
      rw [if_pos (by omega), Option.some.injEq]
      omega
  · omega

theorem numericWorkspaceID_some {id tag : String} {n : Int} (h : numericWorkspaceID id tag = some n) :
    0 < n ∧ n ≤ maxInt ∧ ∃ rest, id = tag ++ rest ∧ atoi rest = some n := by
  unfold numericWorkspaceID at h
  split at h
  · cases h
  · rename_i number hb
    split at h
    · rename_i hpos
      cases h
      obtain ⟨rest, hr, ha⟩ := Option.bind_eq_some_iff.mp hb
      exact ⟨hpos, (atoi_digits ha).1, rest, afterTag_some hr, ha⟩
    · cases h

/-- An allocated id is numeric as long as its number is a positive int. -/
theorem numericWorkspaceID_tagged (tag : String) {n : Int} (h0 : 0 < n) (h : n ≤ maxInt) :
    numericWorkspaceID (taggedID tag n) tag = some n := by
  unfold numericWorkspaceID taggedID
  rw [afterTag_append, Option.bind_some, atoi_repr (by omega) h]
  simp only
  rw [if_pos h0]

/-- An allocated id that is numeric reads as its own number. -/
theorem numericWorkspaceID_canonical {tag : String} {m n : Int} (h : numericWorkspaceID (taggedID tag m) tag = some n) :
    m = n := by
  obtain ⟨hpos, -, rest, hr, ha⟩ := numericWorkspaceID_some h
  have hrest : m.repr = rest := by
    apply String.toList_inj.mp
    have := congrArg String.toList hr
    unfold taggedID at this
    rw [String.toList_append, String.toList_append] at this
    exact List.append_cancel_left this
  rw [← hrest] at ha
  rcases int_repr_toList m with ⟨hl, hm⟩ | ⟨hl, hm⟩
  · unfold atoi at ha
    simp only at ha
    rw [hl] at ha
    have hdig := digits_isDigit m.toNat
    split at ha
    · rename_i cs hs
      exact absurd (hdig '-' (by rw [hs]; exact List.mem_cons_self ..)) (by decide)
    · rename_i cs hs
      exact absurd (hdig '+' (by rw [hs]; exact List.mem_cons_self ..)) (by decide)
    · rw [if_pos ⟨Nat.toDigits_ne_nil, List.all_eq_true.mpr hdig⟩, Nat.ofDigitChars_ten_toDigits] at ha
      simp only [Option.bind_some] at ha
      split at ha
      · cases ha; omega
      · cases ha
  · unfold atoi at ha
    simp only at ha
    rw [hl] at ha
    simp only at ha
    obtain ⟨k, -, hk⟩ := Option.bind_eq_some_iff.mp ha
    split at hk
    · cases hk; omega
    · cases hk

/-- A numeric id has no space at its ends, and is not empty. -/
theorem numericWorkspaceID_trimmed {id tag : String} {n : Int} {c : Char} {cs : List Char} (ht : tag.toList = c :: cs)
    (hc : isSpace c = false) (h : numericWorkspaceID id tag = some n) : Trimmed id := by
  obtain ⟨-, -, rest, rfl, ha⟩ := numericWorkspaceID_some h
  obtain ⟨-, ds, ⟨front, hs⟩, hne, hall⟩ := atoi_digits ha
  have hl : (tag ++ rest).toList = c :: (cs ++ (front ++ ds)) := by
    rw [String.toList_append, ht, ← hs]; rfl
  constructor
  · apply trimSpace_of_ends
    · intro d hd
      rw [hl] at hd; cases hd; exact hc
    · intro d hd
      have hlast : d ∈ ds := by
        rw [hl, ← List.cons_append, ← List.append_assoc, List.getLast?_append_of_ne_nil _ hne] at hd
        exact List.mem_of_getLast? hd
      exact isDigit_not_space (List.all_eq_true.mp hall d hlast)
  · intro he
    rw [he] at hl; cases hl

end Webshell
