import Webshell.ArchiveWalk

/-!
# The names of the sources

A name that is taken gets a number, but whether the numbered name is taken
nobody asks. A separator at the end of a name stays, except that of a directory
which was asked for.
-/

namespace Webshell

open GoBytes

/-- A name without the slashes at its end. -/
def withoutSlash (name : Bytes) : Bytes := name.rdropWhile (· = slash)

/-- Calls that share their counts. -/
def uniqueAttachmentArchivePaths : List Bytes → OrderedMap Bytes Nat → List Bytes
  | [], _ => []
  | name :: names, seen =>
    let r := uniqueAttachmentArchivePath name seen
    r.1 :: uniqueAttachmentArchivePaths names r.2

/-- What each of the calls is answered by: its path, and how often that was taken before. -/
def archiveClaims (keys : List Bytes) : List Bytes → List (Bytes × Nat)
  | [] => []
  | name :: names => (archiveKey name, keys.count (archiveKey name)) :: archiveClaims (keys ++ [archiveKey name]) names

/-! ## Distinct names -/

theorem withoutSlash_clean {path : Bytes} (h : CleanPath path) (slashes : Bytes) (hs : ∀ b ∈ slashes, b = slash) :
    withoutSlash (path ++ slashes) = path := by
  obtain ⟨front, b, rfl, hb⟩ := h.getLast
  unfold withoutSlash
  induction slashes using List.reverseRecOn with
  | nil =>
    rw [List.append_nil]
    exact List.rdropWhile_concat_neg _ _ _ (by simpa using hb)
  | append_singleton slashes c ih =>
    rw [← List.append_assoc, List.rdropWhile_concat_pos _ _ _ (by simpa using hs c (by simp))]
    exact ih fun b hm => hs b (List.mem_append_left _ hm)

theorem trailing_slash (name : Bytes) : ∀ b ∈ trailing name, b = slash := by
  intro b hb
  unfold trailing at hb
  split at hb
  · exact List.mem_singleton.mp hb
  · exact absurd hb List.not_mem_nil

/-- Different claims answer one name only where the number of one gives the path of the other. -/
theorem nodup_archiveForm {claims : List (Bytes × Nat)} (hn : claims.Nodup) :
    (claims.map fun claim => archiveForm claim.1 claim.2).Nodup ↔
      ∀ p ∈ claims, ∀ q ∈ claims, p.2 ≠ 0 → q.2 = 0 → numberedPath p.1 (p.2 + 1) ≠ q.1 := by
  constructor
  · intro hnodup p hp q hq hpc hqc heq
    have hsame := List.inj_on_of_nodup_map hnodup hp hq (by
      unfold archiveForm
      rw [if_neg hpc, if_pos hqc]
      exact heq)
    rw [hsame] at hpc
    exact hpc hqc
  · intro h
    apply List.Nodup.map_on _ hn
    intro p hp q hq heq
    unfold archiveForm at heq
    by_cases hpc : p.2 = 0
    · by_cases hqc : q.2 = 0
      · rw [if_pos hpc, if_pos hqc] at heq
        exact Prod.ext heq (hpc.trans hqc.symm)
      · rw [if_pos hpc, if_neg hqc] at heq
        exact absurd heq.symm (h q hq p hp hqc hpc)
    · by_cases hqc : q.2 = 0
      · rw [if_neg hpc, if_pos hqc] at heq
        exact absurd heq (h p hp q hq hpc hqc)
      · rw [if_neg hpc, if_neg hqc] at heq
        obtain ⟨hkey, hcount⟩ := numberedPath_inj heq
        exact Prod.ext hkey (Nat.succ.inj hcount)

theorem uniqueAttachmentArchivePaths_eq (names : List Bytes) :
    ∀ (keys : List Bytes) (seen : OrderedMap Bytes Nat), (∀ k, seenCount seen k = keys.count k) →
      (uniqueAttachmentArchivePaths names seen).map withoutSlash =
        (archiveClaims keys names).map fun claim => archiveForm claim.1 claim.2 := by
  induction names with
  | nil => exact fun _ _ _ => rfl
  | cons name names ih =>
    intro keys seen h
    rw [uniqueAttachmentArchivePaths, archiveClaims]
    simp only [uniqueAttachmentArchivePath_eq, List.map_cons]
    rw [withoutSlash_clean (archiveForm_clean (archiveKey_clean name) _) _ (trailing_slash name), h]
    refine congrArg _ (ih _ _ fun k => ?_)
    rw [seenCount_set, List.count_append, List.count_singleton]
    by_cases hk : k = archiveKey name
    · rw [if_pos hk, hk, if_pos (beq_self_eq_true _)]
    · rw [if_neg hk, h, if_neg (by simpa using Ne.symm hk)]
      rfl

theorem mem_archiveClaims {names : List Bytes} {claim : Bytes × Nat} : ∀ {keys : List Bytes},
    claim ∈ archiveClaims keys names ↔ ∃ before name after, names = before ++ name :: after ∧
      claim = (archiveKey name, (keys ++ before.map archiveKey).count (archiveKey name)) := by
  induction names with
  | nil =>
    intro keys
    refine ⟨fun h => absurd h List.not_mem_nil, fun ⟨before, name, after, h, _⟩ => ?_⟩
    exact absurd h.symm (by simp)
  | cons first names ih =>
    intro keys
    rw [archiveClaims, List.mem_cons, ih]
    constructor
    · rintro (rfl | ⟨before, name, after, rfl, rfl⟩)
      · exact ⟨[], first, names, rfl, by simp⟩
      · exact ⟨first :: before, name, after, rfl, by simp⟩
    · rintro ⟨before, name, after, heq, rfl⟩
      cases before with
      | nil =>
        obtain ⟨rfl, rfl⟩ := List.cons.inj heq
        exact .inl (by simp)
      | cons x before =>
        obtain ⟨rfl, rfl⟩ := List.cons.inj heq
        exact .inr ⟨before, name, after, rfl, by simp⟩

theorem nodup_archiveClaims (names : List Bytes) : ∀ keys : List Bytes, (archiveClaims keys names).Nodup := by
  induction names with
  | nil => exact fun _ => List.nodup_nil
  | cons name names ih =>
    intro keys
    rw [archiveClaims, List.nodup_cons]
    refine ⟨fun hm => ?_, ih _⟩
    -- A later claim of the path counts this one.
    obtain ⟨before, later, after, -, heq⟩ := mem_archiveClaims.mp hm
    obtain ⟨hkey, hcount⟩ := Prod.mk.inj heq
    rw [← hkey] at hcount
    simp only [List.count_append, List.count_singleton_self] at hcount
    omega

/-- No name that is given a number meets the path of one that was asked for. -/
def Apart (names : List Bytes) : Prop :=
  ∀ before name after, names = before ++ name :: after → archiveKey name ∈ before.map archiveKey →
    numberedPath (archiveKey name) ((before.map archiveKey).count (archiveKey name) + 1) ∉ names.map archiveKey

theorem apart_iff (names : List Bytes) :
    Apart names ↔ ∀ p ∈ archiveClaims [] names, ∀ q ∈ archiveClaims [] names, p.2 ≠ 0 → q.2 = 0 →
      numberedPath p.1 (p.2 + 1) ≠ q.1 := by
  constructor
  · intro h p hp q hq hpc _ heq
    obtain ⟨before, name, after, hnames, rfl⟩ := mem_archiveClaims.mp hp
    obtain ⟨before', name', after', hnames', rfl⟩ := mem_archiveClaims.mp hq
    simp only [List.nil_append] at hpc heq
    apply h before name after hnames (List.count_pos_iff.mp (Nat.pos_of_ne_zero hpc))
    rw [heq, hnames']
    exact List.mem_map_of_mem (by simp)
  · intro h before name after hnames hmem hin
    obtain ⟨front, back, hsplit, hfirst⟩ := List.eq_append_cons_of_mem hin
    obtain ⟨before', rest, hnames', rfl, hrest⟩ := List.map_eq_append_iff.mp hsplit
    obtain ⟨name', after', rfl, hname', -⟩ := List.map_eq_cons_iff.mp hrest
    refine h (archiveKey name, (before.map archiveKey).count (archiveKey name)) ?_
      (archiveKey name', (before'.map archiveKey).count (archiveKey name')) ?_ ?_ ?_ hname'.symm
    · exact mem_archiveClaims.mpr ⟨before, name, after, hnames, by simp⟩
    · exact mem_archiveClaims.mpr ⟨before', name', after', hnames', by simp⟩
    · exact Nat.pos_iff_ne_zero.mp (List.count_pos_iff.mpr hmem)
    · rw [hname']
      exact List.count_eq_zero.mpr hfirst

theorem sourceName_withoutSlash (o : ArchiveOrigin) : withoutSlash o.sourceName = archiveForm o.key o.count := by
  unfold ArchiveOrigin.sourceName
  rw [List.append_assoc]
  apply withoutSlash_clean (archiveForm_clean (archiveKey_clean o.asked) _)
  intro b hb
  rcases List.mem_append.mp hb with hb | hb
  · exact trailing_slash o.asked b hb
  · split at hb
    · exact List.mem_singleton.mp hb
    · exact absurd hb List.not_mem_nil

theorem sources_of_inv {s : ArchiveState} (h : ArchiveInv s) {β : Type} (f : Bytes → Bool → β) :
    s.sources.map (fun source => f source.name source.dir) = s.origins.map fun o => f o.sourceName o.entry.isDir := by
  have hmap := congrArg (List.map fun p => f p.1 p.2) h.sources
  rw [List.map_map, List.map_map] at hmap
  exact hmap

variable {ε : Type}

theorem collect_inv {backend : AttachmentBackend ε} {entries : List AttachmentEntry} {err : Option (ArchiveError ε)}
    {s : ArchiveState} (h : collectAttachmentArchiveSources backend archiveFuel entries = some (err, s)) : ArchiveInv s := by
  obtain ⟨r, hr, hinv, -⟩ := collect_spec backend entries
  rw [h] at hr
  cases hr
  exact hinv

/-- A backend without directories. -/
def noListing : AttachmentBackend Unit := fun _ _ => .error ()

theorem cleanPath_concat_slash (x : Bytes) : ¬CleanPath (x ++ [slash]) := by
  intro h
  obtain ⟨front, b, heq, hb⟩ := h.getLast
  exact hb (List.singleton_inj.mp (List.append_inj' heq rfl).2).symm

theorem safe_iff {o : ArchiveOrigin} (h : o.Fits) : SafeArchiveName o.entry.isDir o.sourceName ↔
    (o.child = true ∨ o.entry.isDir = false → endsInSeparator (trimSpace o.entry.name) = false) := by
  have hform : CleanPath (archiveForm o.key o.count) := archiveForm_clean (archiveKey_clean o.asked) _
  have htrailing : trailing o.asked = if o.ends = true then [slash] else [] := by
    unfold trailing
    rw [h]
  unfold ArchiveOrigin.ends at htrailing
  unfold SafeArchiveName ArchiveOrigin.sourceName
  rw [htrailing]
  cases hd : o.entry.isDir with
  | false =>
    simp only [Bool.false_eq_true, and_false, if_false, List.append_nil, or_true, true_implies]
    cases he : endsInSeparator (trimSpace o.entry.name) with
    | false =>
      refine ⟨fun _ => rfl, fun _ => ⟨_, hform, ?_⟩⟩
      exact List.append_nil _
    | true =>
      refine ⟨fun ⟨path, hpath, heq⟩ => ?_, fun hfalse => by cases hfalse⟩
      rw [if_pos rfl] at heq
      exact absurd (heq ▸ hpath) (cleanPath_concat_slash _)
  | true =>
    cases hc : o.child with
    | false =>
      refine ⟨fun _ hor => ?_, fun _ => ⟨_, hform, ?_⟩⟩
      · rcases hor with hor | hor <;> cases hor
      · simp
    | true =>
      simp only [Bool.true_eq_false, false_and, if_false, and_self, if_true, true_or, true_implies]
      cases he : endsInSeparator (trimSpace o.entry.name) with
      | false =>
        refine ⟨fun _ => rfl, fun _ => ⟨_, hform, ?_⟩⟩
        simp
      | true =>
        refine ⟨fun ⟨path, hpath, heq⟩ => ?_, fun hfalse => by cases hfalse⟩
        rw [if_pos rfl] at heq
        have hsame := List.append_cancel_right heq
        exact absurd (hsame ▸ hpath) (cleanPath_concat_slash _)

/-- Every name is safe exactly if no file, and nothing that was found in a listing, has a name that ends in a separator. -/
theorem archive_names_safe {backend : AttachmentBackend ε} {entries : List AttachmentEntry} {s : ArchiveState}
    (h : collectAttachmentArchiveSources backend archiveFuel entries = some (none, s)) :
    (∀ source ∈ s.sources, SafeArchiveName source.dir source.name) ↔
      ∀ o ∈ s.origins, o.child = true ∨ o.entry.isDir = false → endsInSeparator (trimSpace o.entry.name) = false := by
  have hinv := collect_inv h
  have hsafe : (∀ source ∈ s.sources, SafeArchiveName source.dir source.name) ↔
      ∀ o ∈ s.origins, SafeArchiveName o.entry.isDir o.sourceName := by
    have hmap := sources_of_inv hinv fun name dir => SafeArchiveName dir name
    constructor
    · intro hall o ho
      have hm : SafeArchiveName o.entry.isDir o.sourceName ∈ s.sources.map fun source => SafeArchiveName source.dir source.name := by
        rw [hmap]
        exact List.mem_map_of_mem ho
      obtain ⟨source, hsource, heq⟩ := List.mem_map.mp hm
      exact heq ▸ hall source hsource
    · intro hall source hsource
      have hm : SafeArchiveName source.dir source.name ∈ s.origins.map fun o => SafeArchiveName o.entry.isDir o.sourceName := by
        rw [← hmap]
        exact List.mem_map_of_mem hsource
      obtain ⟨o, ho, heq⟩ := List.mem_map.mp hm
      exact heq ▸ hall o ho
  rw [hsafe]
  exact forall₂_congr fun o ho => safe_iff (hinv.fits o ho)

/-- A directory that lists one directory, which is empty. -/
def oneListing (name : Bytes) : AttachmentBackend Unit := fun calls path =>
  .ok ⟨path, if calls = [] then [⟨name, ascii "/p/x", ascii "dir", 0⟩] else []⟩

/-- A directory in a listing, with a slash at the end of its name. -/
theorem archive_names_slash :
    ∃ s, collectAttachmentArchiveSources (oneListing (ascii "x/")) archiveFuel [⟨ascii "p", ascii "/p", ascii "dir", 0⟩] =
        some (none, s) ∧ ¬∀ source ∈ s.sources, SafeArchiveName source.dir source.name := by
  have hnames : (collectAttachmentArchiveSources (oneListing (ascii "x/")) archiveFuel
      [⟨ascii "p", ascii "/p", ascii "dir", 0⟩]).map (fun r => (r.1.isNone, r.2.sources)) =
        some (true, [⟨ascii "p/", [], true, 0⟩, ⟨ascii "p/x" ++ [slash] ++ [slash], [], true, 0⟩]) := by
    decide +kernel
  obtain ⟨⟨err, s⟩, hs, hv⟩ := Option.map_eq_some_iff.mp hnames
  obtain ⟨herr, hsources⟩ := Prod.mk.inj hv
  cases err with
  | some e => cases herr
  | none =>
    refine ⟨s, hs, fun hsafe => ?_⟩
    obtain ⟨path, hpath, heq⟩ := hsafe ⟨ascii "p/x" ++ [slash] ++ [slash], [], true, 0⟩ (by
      rw [show s.sources = _ from hsources]
      exact List.mem_cons_of_mem _ (List.mem_singleton.mpr rfl))
    rw [if_pos rfl] at heq
    exact cleanPath_concat_slash _ (List.append_cancel_right heq ▸ hpath)

theorem archive_names_safe_listed :
    ∃ s, collectAttachmentArchiveSources (oneListing (ascii "..:x")) archiveFuel [⟨ascii "/p", ascii "/p", ascii "dir", 0⟩] =
        some (none, s) ∧ ∀ source ∈ s.sources, SafeArchiveName source.dir source.name := by
  have horigins : (collectAttachmentArchiveSources (oneListing (ascii "..:x")) archiveFuel
      [⟨ascii "/p", ascii "/p", ascii "dir", 0⟩]).map (fun r => (r.1.isNone, r.2.origins.all fun o =>
        !endsInSeparator (trimSpace o.entry.name))) = some (true, true) := by
    decide +kernel
  obtain ⟨⟨err, s⟩, hs, hv⟩ := Option.map_eq_some_iff.mp horigins
  obtain ⟨herr, hall⟩ := Prod.mk.inj hv
  cases err with
  | some e => cases herr
  | none =>
    refine ⟨s, hs, (archive_names_safe hs).mpr fun o ho _ => ?_⟩
    have hends := List.all_eq_true.mp hall o ho
    simpa using hends

end Webshell
