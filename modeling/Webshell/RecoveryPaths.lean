import Webshell.GoPath
import Webshell.Recovery

/-!
# Working directories of a saved workspace

A directory is saved trimmed and clean, and read back only if trimming and
cleaning leave it alone. Cleaning may bring white space to the end.
-/

namespace Webshell

open GoText

/-- The last name of the path that lasts does not end in white space. -/
def lastsTrimmed (path : String) : Bool :=
  ((lastName 0 (components path).reverse).bind List.getLast?).all fun c => !isSpace c

/-- Refused, not a rooted path, or a rooted path whose end is not white space. -/
def Recoverable (value : String) : Prop :=
  let value := trimSpace value
  value = "" ∨ 4096 < byteLength value ∨ '\x00' ∈ value.toList ∨ pathIsAbs value = false ∨ lastsTrimmed value = true

theorem byteLength_sublist {s t : String} (h : s.toList.Sublist t.toList) : byteLength s ≤ byteLength t := by
  have hle := String.utf8Len_le_of_sublist h
  rw [← String.utf8ByteSize_ofList, ← String.utf8ByteSize_ofList, String.ofList_toList, String.ofList_toList] at hle
  exact hle

theorem normalize_rooted {value : String} (ht : trimSpace value = value) (hne : value ≠ "")
    (hlen : ¬ 4096 < byteLength value) (hnul : '\x00' ∉ value.toList) (habs : pathIsAbs value = true) :
    NormalizeRecoveryCWD value = pathClean value := by
  unfold NormalizeRecoveryCWD
  simp only [ht, habs, Bool.not_true, Bool.false_eq_true, if_false]
  rw [if_neg (by simp [hne, hlen, hnul])]

theorem toList_ne_nil_of_abs {path : String} (h : pathIsAbs path = true) : path ≠ "" := by
  rintro rfl
  cases h

theorem rooted_ne_empty {path : String} (h : pathIsAbs path = true) : path ≠ "" := by
  rintro rfl
  cases h

/-- Trimming takes white space from the end of a rooted path only. -/
theorem trimSpace_rooted {path : String} (h : pathIsAbs path = true) :
    (trimSpace path).toList = path.toList.rdropWhile isSpace := by
  obtain ⟨rest, hrest⟩ := pathIsAbs_cons.mp h
  have hslash : isSpace '/' = false := by decide
  unfold trimSpace
  rw [String.toList_ofList, hrest, List.dropWhile_cons_of_neg (by rw [hslash]; decide)]

theorem trimSpace_rooted_abs {path : String} (h : pathIsAbs path = true) : pathIsAbs (trimSpace path) = true := by
  obtain ⟨rest, hrest⟩ := pathIsAbs_cons.mp h
  have hslash : isSpace '/' = false := by decide
  obtain ⟨last, hlast⟩ := List.rdropWhile_prefix (p := isSpace) (l := path.toList)
  rw [pathIsAbs_cons, trimSpace_rooted h]
  cases hr : path.toList.rdropWhile isSpace with
  | nil =>
    have hall := List.rdropWhile_eq_nil_iff.mp hr '/' (by rw [hrest]; exact List.mem_cons_self ..)
    rw [hslash] at hall
    cases hall
  | cons c cs =>
    rw [hr, List.cons_append, hrest] at hlast
    exact ⟨cs, by rw [(List.cons.inj hlast).1]⟩

theorem trimSpace_rooted_iff {path : String} (h : pathIsAbs path = true) :
    trimSpace path = path ↔ path.toList.getLast?.all (fun c => !isSpace c) = true := by
  obtain ⟨rest, hrest⟩ := pathIsAbs_cons.mp h
  constructor
  · intro ht
    cases hl : path.toList.getLast? with
    | none => rfl
    | some c =>
      have hend := (trimSpace_ends path).2 c (by rw [ht, hl])
      simp [hend]
  · intro hl
    apply trimSpace_of_ends
    · intro c hc
      rw [hrest] at hc
      cases hc
      decide
    · intro c hc
      rw [hc] at hl
      simpa using hl

/-- A clean path stays what it is exactly if trimming leaves it alone. -/
theorem normalize_clean_iff {path : String} (habs : pathIsAbs path = true) (hlen : ¬ 4096 < byteLength path)
    (hnul : '\x00' ∉ path.toList) :
    NormalizeRecoveryCWD (pathClean path) = pathClean path ↔ trimSpace (pathClean path) = pathClean path := by
  have hsub := pathClean_sublist habs
  have habs' := pathClean_abs habs
  have hlen' : ¬ 4096 < byteLength (pathClean path) := fun hl => hlen (Nat.lt_of_lt_of_le hl (byteLength_sublist hsub))
  have hnul' : '\x00' ∉ (pathClean path).toList := fun hm => hnul (hsub.subset hm)
  constructor
  · intro h
    have htrim := trimSpace_rooted_abs habs'
    have hfront : (trimSpace (pathClean path)).toList <+: (pathClean path).toList := by
      rw [trimSpace_rooted habs']
      exact List.rdropWhile_prefix ..
    have hagain : NormalizeRecoveryCWD (pathClean path) = pathClean (trimSpace (pathClean path)) := by
      have hlen'' : ¬ 4096 < byteLength (trimSpace (pathClean path)) := fun hl =>
        hlen' (Nat.lt_of_lt_of_le hl (byteLength_trimSpace _))
      unfold NormalizeRecoveryCWD
      simp only [htrim, Bool.not_true, Bool.false_eq_true, if_false]
      have hnul'' : '\x00' ∉ (trimSpace (pathClean path)).toList := fun hm => hnul' (hfront.subset hm)
      rw [if_neg (by simp [rooted_ne_empty htrim, hlen'', hnul''])]
    rw [hagain] at h
    have hshort := (pathClean_sublist htrim).length_le
    rw [h] at hshort
    exact String.toList_inj.mp (hfront.eq_of_length_le hshort)
  · intro ht
    rw [normalize_rooted ht (rooted_ne_empty habs') hlen' hnul' habs', pathClean_idem habs]

theorem trimSpace_clean_iff {path : String} (habs : pathIsAbs path = true) :
    trimSpace (pathClean path) = pathClean path ↔ lastsTrimmed path = true := by
  rw [trimSpace_rooted_iff (pathClean_abs habs), pathClean_getLast? habs]
  unfold lastsTrimmed
  cases (lastName 0 (components path).reverse).bind List.getLast? with
  | none => exact iff_of_true (by decide) rfl
  | some c => rfl

/-- Normalising twice is normalising once for the recoverable directories, and for no others. -/
theorem normalizeRecoveryCWD_idem (value : String) :
    NormalizeRecoveryCWD (NormalizeRecoveryCWD value) = NormalizeRecoveryCWD value ↔ Recoverable value := by
  have hempty : NormalizeRecoveryCWD "" = "" := by decide
  have ht := trimSpace_idem value
  unfold Recoverable
  simp only
  generalize hv : trimSpace value = v at ht
  have hvalue : NormalizeRecoveryCWD value = NormalizeRecoveryCWD v := by
    unfold NormalizeRecoveryCWD
    rw [hv, ht]
  rw [hvalue]
  by_cases hrefused : v = "" ∨ 4096 < byteLength v ∨ '\x00' ∈ v.toList
  · have hnone : NormalizeRecoveryCWD v = "" := by
      unfold NormalizeRecoveryCWD
      rw [ht]
      exact if_pos hrefused
    rw [hnone]
    refine iff_of_true hempty ?_
    rcases hrefused with h | h | h
    · exact .inl h
    · exact .inr (.inl h)
    · exact .inr (.inr (.inl h))
  · cases habs : pathIsAbs v with
    | false =>
      refine iff_of_true ?_ (.inr (.inr (.inr (.inl rfl))))
      have hforeign : NormalizeRecoveryCWD v = "" ∨ NormalizeRecoveryCWD v = v := by
        unfold NormalizeRecoveryCWD
        simp only [ht, habs, Bool.not_false, if_true]
        rw [if_neg hrefused]
        split
        · exact .inr rfl
        · exact .inl rfl
      rcases hforeign with h | h
      · rw [h, hempty]
      · rw [h, h]
    | true =>
      rw [not_or, not_or] at hrefused
      rw [normalize_rooted ht hrefused.1 hrefused.2.1 hrefused.2.2 habs,
        normalize_clean_iff habs hrefused.2.1 hrefused.2.2, trimSpace_clean_iff habs]
      simp [hrefused.1, hrefused.2.1, hrefused.2.2]

/-- The check of a pane's directory in `ValidateWorkspaceRecoveryDocument`. -/
def CWDAccepted (pane : WorkspaceRecoveryPane) : Prop := pane.CWD = "" ∨ NormalizeRecoveryCWD pane.CWD = pane.CWD

/-- Normalising a directory a second time changes it exactly if its last name ends in white space;
the saved document passes the check exactly if no pane has such a directory. -/
theorem recovery_directories (value epoch : String) (state : Workspace.WorkspaceState) :
    (NormalizeRecoveryCWD (NormalizeRecoveryCWD value) = NormalizeRecoveryCWD value ↔ Recoverable value) ∧
    ((∀ tab ∈ (Workspace.WorkspaceRecoveryDocumentFromState epoch state).Tabs, ∀ pane ∈ tab.Panes, CWDAccepted pane) ↔
      ∀ tab ∈ state.Tabs, ∀ pane ∈ tab.Panes, Recoverable pane.cwd) := by
  refine ⟨normalizeRecoveryCWD_idem value, ?_⟩
  have hpane (cwd : String) : (NormalizeRecoveryCWD cwd = "" ∨
      NormalizeRecoveryCWD (NormalizeRecoveryCWD cwd) = NormalizeRecoveryCWD cwd) ↔ Recoverable cwd := by
    rw [← normalizeRecoveryCWD_idem]
    constructor
    · rintro (h | h)
      · rw [h]
        decide
      · exact h
    · exact .inr
  simp only [Workspace.WorkspaceRecoveryDocumentFromState, Workspace.recoveryTabOf, List.forall_mem_map, CWDAccepted, hpane]

/-- Cleaning takes the slash, and white space is at the end. -/
theorem normalizeRecoveryCWD_blank :
    NormalizeRecoveryCWD (NormalizeRecoveryCWD "/a /") ≠ NormalizeRecoveryCWD "/a /" := by decide

end Webshell
