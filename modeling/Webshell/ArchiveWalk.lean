import Webshell.AttachmentArchive

/-!
# The walk over the directories

A directory is gone into once for each spelling of its path, and only after its
own entry has been counted: the sources bound how deep the walk goes.
-/

namespace Webshell

open GoBytes

/-! ## Origins -/

namespace ArchiveOrigin

def key (o : ArchiveOrigin) : Bytes := archiveKey o.asked

/-- Whether the name that was asked for ends in a separator. -/
def ends (o : ArchiveOrigin) : Bool :=
  if o.child = false ∧ o.entry.isDir = true then true else endsInSeparator (trimSpace o.entry.name)

def Fits (o : ArchiveOrigin) : Prop := endsInSeparator (trimSpace o.asked) = o.ends

/-- The name of the source. -/
def sourceName (o : ArchiveOrigin) : Bytes :=
  archiveForm o.key o.count ++ trailing o.asked ++ if o.child = true ∧ o.entry.isDir = true then [slash] else []

end ArchiveOrigin

theorem fits_entry (s : ArchiveState) {entry : AttachmentEntry} (h : entry.isDir = false) :
    (s.origin entry false entry.name).Fits := by
  unfold ArchiveOrigin.Fits ArchiveOrigin.ends ArchiveState.origin
  simp [h]

theorem fits_root (s : ArchiveState) {entry : AttachmentEntry} (h : entry.isDir = true) :
    (s.origin entry false (entry.name ++ [slash])).Fits := by
  unfold ArchiveOrigin.Fits ArchiveOrigin.ends ArchiveState.origin
  obtain ⟨front, hfront⟩ := trimSpace_behind_slash (x := []) entry.name fun unit hm hfront => by
    have hne : ∀ u ∈ spaces.map List.reverse, u ≠ [] := by decide
    exact hne unit hm (List.prefix_nil.mp hfront)
  simp only [h, and_self, if_true, hfront]
  unfold endsInSeparator
  rw [List.getLast?_append]
  exact (show decide (slash ∈ separators) = true by decide)

theorem fits_child (s : ArchiveState) (front : Bytes) {child : AttachmentEntry} (hb : Bare child.name)
    (hne : child.name ≠ []) : (s.origin child true (front ++ slash :: child.name)).Fits := by
  unfold ArchiveOrigin.Fits ArchiveOrigin.ends ArchiveState.origin
  obtain ⟨front', hfront⟩ := trimSpace_behind_slash front hb.back
  simp only [hfront, Bool.true_eq_false, false_and, if_false, trimSpace_of_bare hb]
  unfold endsInSeparator
  rw [List.getLast?_append, List.getLast?_cons, List.getLast?_eq_some_getLast hne]
  rfl

/-! ## The invariant -/

structure ArchiveInv (s : ArchiveState) : Prop where
  sources : s.sources.map (fun source => (source.name, source.dir)) =
    s.origins.map fun o => (o.sourceName, o.entry.isDir)
  fits : ∀ o ∈ s.origins, o.Fits
  counts : ∀ o ∈ s.origins, o.count < seenCount s.names o.key
  distinct : (s.origins.map fun o => (o.key, o.count)).Nodup
  visited : ∀ path ∈ s.calls, trimSpace path ≠ [] → trimSpace path ∈ s.visitedDirs
  called : ((s.calls.map trimSpace).filter (· ≠ [])).Nodup

/-- A source that may be appended. -/
structure FreshOrigin (s : ArchiveState) (o : ArchiveOrigin) : Prop where
  fits : o.Fits
  count : o.count < seenCount s.names o.key
  fresh : (o.key, o.count) ∉ s.origins.map fun o => (o.key, o.count)

theorem ArchiveInv.length {s : ArchiveState} (h : ArchiveInv s) : s.sources.length = s.origins.length := by
  have := congrArg List.length h.sources
  rwa [List.length_map, List.length_map] at this

theorem seenCount_set (seen : OrderedMap Bytes Nat) (key k : Bytes) (n : Nat) :
    seenCount (seen.set key n) k = if k = key then n else seenCount seen k := by
  unfold seenCount
  by_cases h : k = key
  · rw [if_pos h, h, OrderedMap.get_set]
    rfl
  · rw [if_neg h, OrderedMap.get_set_of_ne _ h]

section Steps

variable {ε : Type} {s : ArchiveState} {o : ArchiveOrigin}

/-- A name is asked for. -/
theorem ArchiveInv.unique (h : ArchiveInv s) {entry : AttachmentEntry} {child : Bool} {asked : Bytes}
    (hf : (s.origin entry child asked).Fits) :
    ArchiveInv (s.unique asked).2 ∧ FreshOrigin (s.unique asked).2 (s.origin entry child asked) ∧
      (s.unique asked).1 = archiveForm (archiveKey asked) (s.origin entry child asked).count ++ trailing asked := by
  unfold ArchiveState.unique
  rw [uniqueAttachmentArchivePath_eq]
  have hgrows (k : Bytes) : seenCount s.names k ≤
      seenCount (s.names.set (archiveKey asked) (seenCount s.names (archiveKey asked) + 1)) k := by
    rw [seenCount_set]
    split
    · rename_i he
      rw [he]
      exact Nat.le_succ _
    · exact Nat.le_refl _
  refine ⟨⟨h.sources, h.fits, fun o hm => ?_, h.distinct, h.visited, h.called⟩, ⟨hf, ?_, fun hm => ?_⟩, rfl⟩
  · exact Nat.lt_of_lt_of_le (h.counts o hm) (hgrows o.key)
  · unfold ArchiveOrigin.key ArchiveState.origin
    rw [seenCount_set, if_pos rfl]
    exact Nat.lt_succ_self _
  · obtain ⟨o, ho, heq⟩ := List.mem_map.mp hm
    have hlt := h.counts o ho
    rw [(Prod.mk.inj heq).1, (Prod.mk.inj heq).2] at hlt
    exact Nat.lt_irrefl _ hlt

theorem ArchiveInv.visit (h : ArchiveInv s) (path : Bytes) : ArchiveInv (s.visit path) := by
  unfold ArchiveState.visit
  split
  · exact h
  · exact ⟨h.sources, h.fits, h.counts, h.distinct, fun p hp hne => List.mem_cons_of_mem _ (h.visited p hp hne), h.called⟩

theorem FreshOrigin.visit (h : FreshOrigin s o) (path : Bytes) : FreshOrigin (s.visit path) o := by
  unfold ArchiveState.visit
  split
  · exact h
  · exact ⟨h.fits, h.count, h.fresh⟩

theorem visit_calls (s : ArchiveState) (path : Bytes) : (s.visit path).calls = s.calls := by
  unfold ArchiveState.visit
  split <;> rfl

theorem visit_sources (s : ArchiveState) (path : Bytes) : (s.visit path).sources = s.sources := by
  unfold ArchiveState.visit
  split <;> rfl

/-- The backend is called, with a path that was not visited. -/
theorem ArchiveInv.call (h : ArchiveInv s) {path : Bytes} (hv : trimSpace path ≠ [] → trimSpace path ∉ s.visitedDirs) :
    ArchiveInv { s.visit (trimSpace path) with calls := (s.visit (trimSpace path)).calls ++ [path] } := by
  have hvisit := h.visit (trimSpace path)
  refine ⟨hvisit.sources, hvisit.fits, hvisit.counts, hvisit.distinct, fun p hp hne => ?_, ?_⟩
  · rcases List.mem_append.mp hp with hp | hp
    · exact hvisit.visited p hp hne
    · rw [List.mem_singleton.mp hp] at hne ⊢
      unfold ArchiveState.visit
      rw [if_neg hne]
      exact List.mem_cons_self ..
  · rw [visit_calls, List.map_append, List.filter_append]
    by_cases hne : trimSpace path ≠ []
    · rw [List.map_singleton, List.filter_cons_of_pos (by simpa using hne), List.filter_nil]
      apply List.nodup_append.mpr ⟨h.called, List.nodup_singleton _, fun a ha b hb => ?_⟩
      rw [List.mem_singleton.mp hb]
      rintro rfl
      obtain ⟨p, hp, heq⟩ := List.mem_map.mp (List.mem_filter.mp ha).1
      apply hv hne
      rw [← heq]
      exact h.visited p hp (by rw [heq]; exact hne)
    · rw [List.map_singleton, List.filter_cons_of_neg (by simpa using hne), List.filter_nil, List.append_nil]
      exact h.called

theorem ArchiveInv.append (h : ArchiveInv s) (hf : FreshOrigin s o) {source : ArchiveSource} (hn : source.name = o.sourceName)
    (hd : source.dir = o.entry.isDir) : ArchiveInv (s.append (ε := ε) source o).2 := by
  unfold ArchiveState.append
  refine ⟨?_, fun p hp => ?_, fun p hp => ?_, ?_, h.visited, h.called⟩
  · simp only [List.map_append, h.sources, List.map_singleton, hn, hd]
  · rcases List.mem_append.mp hp with hp | hp
    · exact h.fits p hp
    · rw [List.mem_singleton.mp hp]
      exact hf.fits
  · rcases List.mem_append.mp hp with hp | hp
    · exact h.counts p hp
    · rw [List.mem_singleton.mp hp]
      exact hf.count
  · simp only [List.map_append, List.map_singleton]
    apply List.nodup_append.mpr ⟨h.distinct, List.nodup_singleton _, fun a ha b hb => ?_⟩
    rw [List.mem_singleton.mp hb]
    rintro rfl
    exact hf.fresh ha

end Steps

/-! ## The walk -/

/-- What a part of the walk does: it ends, keeps the invariant, and has at most the sources that are allowed
unless it has failed. -/
structure ArchiveWalked {ε : Type} (s : ArchiveState) (r : Option (ArchiveError ε) × ArchiveState) : Prop where
  inv : ArchiveInv r.2
  grows : s.sources.length ≤ r.2.sources.length
  bounded : r.1 = none → r.2.sources.length ≤ maxAttachmentArchiveCount
  calls : (∀ path ∈ s.calls, trimSpace path ≠ []) → ∀ path ∈ r.2.calls, trimSpace path ≠ []

section Walk

variable {ε : Type} {s s' : ArchiveState} {r : Option (ArchiveError ε) × ArchiveState}

theorem ArchiveWalked.refl (h : ArchiveInv s) (hb : s.sources.length ≤ maxAttachmentArchiveCount) :
    ArchiveWalked (ε := ε) s (none, s) := ⟨h, Nat.le_refl _, fun _ => hb, id⟩

theorem ArchiveWalked.trans (h : ArchiveWalked (ε := ε) s (none, s')) (h' : ArchiveWalked s' r) : ArchiveWalked s r :=
  ⟨h'.inv, Nat.le_trans h.grows h'.grows, h'.bounded, h'.calls ∘ h.calls⟩

/-- What a walk over a directory does, from `least` sources on. -/
def WalkSpec (walk : DirWalk ε) (least : Nat) : Prop :=
  ∀ entry archiveName archivePrefix o s, ArchiveInv s → FreshOrigin s o → least ≤ s.sources.length →
    s.sources.length ≤ maxAttachmentArchiveCount → o.entry.isDir = true →
    (if [slash].isSuffixOf archiveName = true then archiveName else archiveName ++ [slash]) = o.sourceName →
    ∃ r, walk entry archiveName archivePrefix o s = some r ∧ ArchiveInv r.2 ∧ s.sources.length ≤ r.2.sources.length ∧
      (r.1 = none → r.2.sources.length ≤ maxAttachmentArchiveCount) ∧
      (trimSpace entry.path ≠ [] → (∀ path ∈ s.calls, trimSpace path ≠ []) → ∀ path ∈ r.2.calls, trimSpace path ≠ [])

theorem append_archiveWalked (h : ArchiveInv s) {o : ArchiveOrigin} (hf : FreshOrigin s o) (source : ArchiveSource)
    (hn : source.name = o.sourceName) (hd : source.dir = o.entry.isDir) : ArchiveWalked s (s.append (ε := ε) source o) where
  inv := h.append hf hn hd
  grows := by
    unfold ArchiveState.append
    simp
  bounded := by
    unfold ArchiveState.append
    simp only
    split
    · exact fun hnone => by cases hnone
    · rename_i hle
      exact fun _ => Nat.not_lt.mp hle
  calls := id

theorem appendChildren_spec {walk : DirWalk ε} {least : Nat} (hw : WalkSpec walk least) (archivePrefix : Bytes) :
    ∀ (children : List AttachmentEntry) (s : ArchiveState), ArchiveInv s → least ≤ s.sources.length →
      s.sources.length ≤ maxAttachmentArchiveCount → ∃ r, appendChildren walk archivePrefix children s = some r ∧ ArchiveWalked s r
  | [], s, h, _, hb => ⟨_, rfl, ArchiveWalked.refl h hb⟩
  | child :: children, s, h, hl, hb => by
    rw [appendChildren]
    simp only
    by_cases hblank : trimSpace child.name = [] ∨ trimSpace child.path = []
    · rw [if_pos hblank]
      exact appendChildren_spec hw archivePrefix children s h hl hb
    rw [if_neg hblank]
    obtain ⟨hname, hpath⟩ := not_or.mp hblank
    obtain ⟨c, hc⟩ : ∃ c, c = ({ child with name := trimSpace child.name, path := trimSpace child.path } : AttachmentEntry) :=
      ⟨_, rfl⟩
    have hcname : c.name = trimSpace child.name := by rw [hc]
    have hcpath : c.path = trimSpace child.path := by rw [hc]
    rw [← hc, ← hcname, ← hcpath]
    obtain ⟨hinv, hfresh, hunique⟩ := h.unique (fits_child s archivePrefix (hcname ▸ trimSpace_bare child.name) (hcname ▸ hname))
    have hstep : ArchiveWalked (ε := ε) s (none, (s.unique (archivePrefix ++ slash :: c.name)).2) :=
      ⟨hinv, Nat.le_refl _, fun _ => hb, id⟩
    by_cases hdir : c.isDir = true
    · rw [if_pos hdir]
      obtain ⟨⟨err, s'⟩, hr, hinv', hgrows, hbounded, hcalls⟩ := hw c ((s.unique (archivePrefix ++ slash :: c.name)).1 ++ [slash])
        (s.unique (archivePrefix ++ slash :: c.name)).1 _ _ hinv hfresh hl hb hdir (by
          rw [if_pos (isSuffixOf_slash.mpr rfl), hunique]
          unfold ArchiveOrigin.sourceName
          rw [if_pos ⟨rfl, hdir⟩]
          rfl)
      have hpath' : trimSpace c.path ≠ [] := by
        rw [hcpath, trimSpace_idem]
        exact hpath
      have hwalked := hstep.trans ⟨hinv', hgrows, hbounded, hcalls hpath'⟩
      rw [hr]
      cases err with
      | some e => exact ⟨_, rfl, hwalked⟩
      | none =>
        obtain ⟨r, hrest, hrestWalked⟩ := appendChildren_spec hw archivePrefix children s' hinv'
          (Nat.le_trans hl hgrows) (hbounded rfl)
        exact ⟨r, hrest, hwalked.trans hrestWalked⟩
    · rw [if_neg hdir]
      have happend := append_archiveWalked (ε := ε) hinv hfresh
        { name := (s.unique (archivePrefix ++ slash :: c.name)).1, path := c.path, dir := false, modified := child.modified }
        (by
          rw [hunique]
          unfold ArchiveOrigin.sourceName
          rw [if_neg fun hd => hdir hd.2, List.append_nil]
          rfl) (Bool.eq_false_iff.mpr hdir).symm
      have hwalked := hstep.trans happend
      generalize ArchiveState.append _ _ _ = r at hwalked ⊢
      obtain ⟨err, s'⟩ := r
      cases err with
      | some e => exact ⟨_, rfl, hwalked⟩
      | none =>
        obtain ⟨r, hrest, hrestWalked⟩ := appendChildren_spec hw archivePrefix children s' hwalked.inv
          (Nat.le_trans hl hwalked.grows) (hwalked.bounded rfl)
        exact ⟨r, hrest, hwalked.trans hrestWalked⟩

/-- A directory below `fuel` others is gone into with the sources of all of them counted. -/
theorem appendDir_spec (backend : AttachmentBackend ε) : ∀ fuel : Nat,
    WalkSpec (appendAttachmentArchiveDirSource backend fuel) (maxAttachmentArchiveCount + 1 - fuel)
  | 0 => by
    intro entry archiveName archivePrefix o s _ _ hl hb
    omega
  | fuel + 1 => by
    intro entry archiveName archivePrefix o s h hf hl hb hdir hname
    rw [appendAttachmentArchiveDirSource]
    simp only [hname]
    by_cases hseen : trimSpace entry.path ≠ [] ∧ trimSpace entry.path ∈ s.visitedDirs
    · rw [if_pos hseen]
      exact ⟨_, rfl, h, Nat.le_refl _, fun _ => hb, fun _ => id⟩
    rw [if_neg hseen]
    have hcall := h.call fun hne hm => hseen ⟨hne, hm⟩
    have hblank : trimSpace entry.path ≠ [] → (∀ path ∈ s.calls, trimSpace path ≠ []) →
        ∀ path ∈ (s.visit (trimSpace entry.path)).calls ++ [entry.path], trimSpace path ≠ [] := by
      intro hne hcalls path hm
      rw [visit_calls] at hm
      rcases List.mem_append.mp hm with hm | hm
      · exact hcalls path hm
      · rw [List.mem_singleton.mp hm]
        exact hne
    have hsources := visit_sources s (trimSpace entry.path)
    cases backend (s.visit (trimSpace entry.path)).calls entry.path with
    | error e => exact ⟨_, rfl, hcall, by simp only [hsources]; exact Nat.le_refl _, fun hnone => (by cases hnone), hblank⟩
    | ok response =>
      simp only
      split
      · exact ⟨_, rfl, hcall, by simp only [hsources]; exact Nat.le_refl _, fun _ => by simp only [hsources]; exact hb, hblank⟩
      · obtain ⟨s₁, hs₁⟩ : ∃ s₁, s₁ = ({ s.visit (trimSpace entry.path) with
            calls := (s.visit (trimSpace entry.path)).calls ++ [entry.path] } : ArchiveState) := ⟨_, rfl⟩
        obtain ⟨s₂, hs₂⟩ : ∃ s₂, s₂ = if trimSpace response.path ≠ trimSpace entry.path then
            s₁.visit (trimSpace response.path) else s₁ := ⟨_, rfl⟩
        rw [← hs₁] at hcall ⊢
        rw [← hs₂]
        have hfresh₁ : FreshOrigin s₁ o := by
          rw [hs₁]
          have hv := hf.visit (trimSpace entry.path)
          exact ⟨hv.fits, hv.count, hv.fresh⟩
        have hinv₂ : ArchiveInv s₂ ∧ FreshOrigin s₂ o ∧ s₂.sources = s.sources ∧ s₂.calls = s₁.calls := by
          rw [hs₂]
          split
          · refine ⟨hcall.visit _, hfresh₁.visit _, ?_, visit_calls ..⟩
            rw [visit_sources, hs₁]
            exact hsources
          · refine ⟨hcall, hfresh₁, ?_, rfl⟩
            rw [hs₁]
            exact hsources
        obtain ⟨hinv, hfresh, hsame, hcalls⟩ := hinv₂
        have happend := append_archiveWalked (ε := ε) hinv hfresh
          { name := o.sourceName, path := [], dir := true, modified := entry.modified } rfl hdir.symm
        have hgrew : s₂.sources.length < (s₂.append (ε := ε)
            { name := o.sourceName, path := [], dir := true, modified := entry.modified } o).2.sources.length := by
          unfold ArchiveState.append
          simp
        have hcalled : (trimSpace entry.path ≠ [] → (∀ path ∈ s.calls, trimSpace path ≠ []) →
            ∀ path ∈ s₂.calls, trimSpace path ≠ []) := by
          rw [hcalls, hs₁]
          exact hblank
        rw [hsame] at hgrew
        generalize ArchiveState.append _ _ _ = r at happend hgrew ⊢
        obtain ⟨err, s₃⟩ := r
        cases err with
        | some e =>
          exact ⟨_, rfl, happend.inv, Nat.le_of_lt hgrew, happend.bounded, fun hne hc => happend.calls (hcalled hne hc)⟩
        | none =>
          obtain ⟨r, hr, hwalked⟩ := appendChildren_spec (appendDir_spec backend fuel) archivePrefix response.entries s₃
            happend.inv (by simp only at hgrew; omega) (happend.bounded rfl)
          refine ⟨r, hr, hwalked.inv, ?_, hwalked.bounded, fun hne hc => hwalked.calls (happend.calls (hcalled hne hc))⟩
          exact Nat.le_trans (Nat.le_of_lt hgrew) hwalked.grows

theorem appendEntries_spec {walk : DirWalk ε} (hw : WalkSpec walk 0) :
    ∀ (entries : List AttachmentEntry) (s : ArchiveState), ArchiveInv s → s.sources.length ≤ maxAttachmentArchiveCount →
      ∃ r, appendEntries walk entries s = some r ∧ ArchiveInv r.2 ∧
        (r.1 = none → r.2.sources.length ≤ maxAttachmentArchiveCount) ∧
        ((∀ entry ∈ entries, trimSpace entry.path ≠ []) → (∀ path ∈ s.calls, trimSpace path ≠ []) →
          ∀ path ∈ r.2.calls, trimSpace path ≠ [])
  | [], s, h, hb => ⟨_, rfl, h, fun _ => hb, fun _ => id⟩
  | entry :: entries, s, h, hb => by
    rw [appendEntries]
    simp only
    by_cases hdir : entry.isDir = true
    · rw [if_pos hdir]
      obtain ⟨hinv, hfresh, hunique⟩ := h.unique (fits_root s hdir)
      have hroot : (s.unique (entry.name ++ [slash])).1 = (s.origin entry false (entry.name ++ [slash])).sourceName ∧
          [slash].isSuffixOf (s.unique (entry.name ++ [slash])).1 = true := by
        rw [hunique]
        have hends : endsInSeparator (trimSpace (entry.name ++ [slash])) = true := by
          have hfits := fits_root s hdir
          unfold ArchiveOrigin.Fits ArchiveOrigin.ends at hfits
          rw [if_pos ⟨rfl, hdir⟩] at hfits
          exact hfits
        constructor
        · unfold ArchiveOrigin.sourceName
          rw [if_neg fun hc => (by cases hc.1), List.append_nil]
          rfl
        · unfold trailing
          rw [if_pos hends]
          exact isSuffixOf_slash.mpr rfl
      obtain ⟨⟨err, s'⟩, hr, hinv', -, hbounded, hcalls⟩ := hw entry (s.unique (entry.name ++ [slash])).1
        (trimSuffix [slash] (s.unique (entry.name ++ [slash])).1) _ _ hinv hfresh (Nat.zero_le _) hb hdir (by
          rw [if_pos hroot.2]
          exact hroot.1)
      rw [hr]
      cases err with
      | some e =>
        exact ⟨_, rfl, hinv', hbounded, fun hne => hcalls (hne entry (List.mem_cons_self ..))⟩
      | none =>
        obtain ⟨r, hrest, hinv'', hbounded', hcalls'⟩ := appendEntries_spec hw entries s' hinv' (hbounded rfl)
        exact ⟨r, hrest, hinv'', hbounded', fun hne hc => hcalls' (fun e he => hne e (List.mem_cons_of_mem _ he))
          (hcalls (hne entry (List.mem_cons_self ..)) hc)⟩
    · rw [if_neg hdir]
      obtain ⟨hinv, hfresh, hunique⟩ := h.unique (fits_entry s (Bool.eq_false_iff.mpr hdir))
      have happend := append_archiveWalked (ε := ε) hinv hfresh
        { name := (s.unique entry.name).1, path := entry.path, dir := false, modified := entry.modified } (by
          rw [hunique]
          unfold ArchiveOrigin.sourceName
          rw [if_neg fun hd => hdir hd.2, List.append_nil]
          rfl) (Bool.eq_false_iff.mpr hdir).symm
      generalize ArchiveState.append _ _ _ = r at happend ⊢
      obtain ⟨err, s'⟩ := r
      cases err with
      | some e => exact ⟨_, rfl, happend.inv, happend.bounded, fun _ => happend.calls⟩
      | none =>
        obtain ⟨r, hrest, hinv', hbounded', hcalls'⟩ := appendEntries_spec hw entries s' happend.inv (happend.bounded rfl)
        exact ⟨r, hrest, hinv', hbounded', fun hne hc => hcalls' (fun e he => hne e (List.mem_cons_of_mem _ he))
          (happend.calls hc)⟩

theorem archiveInv_start : ArchiveInv {} where
  sources := rfl
  fits _ hm := absurd hm List.not_mem_nil
  counts _ hm := absurd hm List.not_mem_nil
  distinct := List.nodup_nil
  visited _ hm := absurd hm List.not_mem_nil
  called := List.nodup_nil

/-! ## Fuel -/

/-- What one walk answers, the other does. -/
def WalkLe (walk walk' : DirWalk ε) : Prop :=
  ∀ entry archiveName archivePrefix o s r, walk entry archiveName archivePrefix o s = some r →
    walk' entry archiveName archivePrefix o s = some r

theorem appendChildren_mono {walk walk' : DirWalk ε} (hw : WalkLe walk walk') (archivePrefix : Bytes) :
    ∀ (children : List AttachmentEntry) (s : ArchiveState) (r : Option (ArchiveError ε) × ArchiveState),
      appendChildren walk archivePrefix children s = some r → appendChildren walk' archivePrefix children s = some r
  | [], _, _, h => h
  | child :: children, s, r, h => by
    rw [appendChildren] at h ⊢
    simp only at h ⊢
    split
    · rename_i hblank
      rw [if_pos hblank] at h
      exact appendChildren_mono hw archivePrefix children s r h
    · rename_i hblank
      rw [if_neg hblank] at h
      split
      · rename_i hdir
        rw [if_pos hdir] at h
        split at h
        · rename_i s' hr
          rw [hw _ _ _ _ _ _ hr]
          exact appendChildren_mono hw archivePrefix children s' r h
        · rw [hw _ _ _ _ _ _ h]
          split
          · rename_i hnot _ s' heq
            cases heq
            exact absurd h (hnot s')
          · rfl
      · rename_i hdir
        rw [if_neg hdir] at h
        split
        · rename_i s' heq
          rw [heq] at h
          exact appendChildren_mono hw archivePrefix children s' r h
        · rename_i hnot
          split at h
          · rename_i s' heq
            exact absurd heq (hnot s')
          · exact h

theorem appendDir_mono (backend : AttachmentBackend ε) : ∀ fuel : Nat,
    WalkLe (appendAttachmentArchiveDirSource backend fuel) (appendAttachmentArchiveDirSource backend (fuel + 1))
  | 0 => fun _ _ _ _ _ _ h => by cases h
  | fuel + 1 => by
    intro entry archiveName archivePrefix o s r h
    rw [appendAttachmentArchiveDirSource] at h ⊢
    simp only at h ⊢
    split
    · rename_i hseen
      rw [if_pos hseen] at h
      exact h
    · rename_i hseen
      rw [if_neg hseen] at h
      split
      · rename_i e heq
        rw [heq] at h
        exact h
      · rename_i response heq
        rw [heq] at h
        simp only at h
        split
        · rename_i hlisted
          rw [if_pos hlisted] at h
          exact h
        · rename_i hlisted
          rw [if_neg hlisted] at h
          split
          · rename_i s' hs'
            rw [hs'] at h
            exact appendChildren_mono (appendDir_mono backend fuel) archivePrefix response.entries s' r h
          · rename_i hnot
            split at h
            · rename_i s' hs'
              exact absurd hs' (hnot s')
            · exact h

theorem appendEntries_mono {walk walk' : DirWalk ε} (hw : WalkLe walk walk') :
    ∀ (entries : List AttachmentEntry) (s : ArchiveState) (r : Option (ArchiveError ε) × ArchiveState),
      appendEntries walk entries s = some r → appendEntries walk' entries s = some r
  | [], _, _, h => h
  | entry :: entries, s, r, h => by
    rw [appendEntries] at h ⊢
    simp only at h ⊢
    split
    · rename_i hdir
      rw [if_pos hdir] at h
      split at h
      · rename_i s' hr
        rw [hw _ _ _ _ _ _ hr]
        exact appendEntries_mono hw entries s' r h
      · rw [hw _ _ _ _ _ _ h]
        split
        · rename_i hnot _ s' heq
          cases heq
          exact absurd h (hnot s')
        · rfl
    · rename_i hdir
      rw [if_neg hdir] at h
      split
      · rename_i s' heq
        rw [heq] at h
        exact appendEntries_mono hw entries s' r h
      · rename_i hnot
        split at h
        · rename_i s' heq
          exact absurd heq (hnot s')
        · exact h

theorem collect_mono (backend : AttachmentBackend ε) (entries : List AttachmentEntry) {fuel fuel' : Nat}
    (hle : fuel ≤ fuel') (h : collectAttachmentArchiveSources backend fuel entries = some r) :
    collectAttachmentArchiveSources backend fuel' entries = some r := by
  induction fuel', hle using Nat.le_induction with
  | base => exact h
  | succ fuel' _ ih => exact appendEntries_mono (appendDir_mono backend fuel') entries {} r ih

/-! ## The end of the walk -/

/-- Enough fuel for every walk. -/
def archiveFuel : Nat := maxAttachmentArchiveCount + 1

theorem collect_spec (backend : AttachmentBackend ε) (entries : List AttachmentEntry) :
    ∃ r, collectAttachmentArchiveSources backend archiveFuel entries = some r ∧ ArchiveInv r.2 ∧
      (r.1 = none → r.2.sources.length ≤ maxAttachmentArchiveCount) ∧
      ((∀ entry ∈ entries, trimSpace entry.path ≠ []) → ∀ path ∈ r.2.calls, trimSpace path ≠ []) := by
  have hspec := appendDir_spec backend archiveFuel
  rw [show maxAttachmentArchiveCount + 1 - archiveFuel = 0 from rfl] at hspec
  obtain ⟨r, hr, hinv, hbounded, hcalls⟩ := appendEntries_spec hspec entries {} archiveInv_start (Nat.zero_le _)
  exact ⟨r, hr, hinv, hbounded, fun hne => hcalls hne fun path hm => absurd hm List.not_mem_nil⟩

/-- **The walk ends**, whatever the backend answers: it needs no more fuel than one for each source that is allowed.
No path is listed twice, and the sources are as many as are allowed, or there is an error. -/
theorem archive_walk (backend : AttachmentBackend ε) {entries : List AttachmentEntry}
    (hne : ∀ entry ∈ entries, trimSpace entry.path ≠ []) :
    ∃ r, (∀ fuel, archiveFuel ≤ fuel → collectAttachmentArchiveSources backend fuel entries = some r) ∧
      (r.2.calls.map trimSpace).Nodup ∧ (r.1 = none → r.2.sources.length ≤ maxAttachmentArchiveCount) := by
  obtain ⟨r, hr, hinv, hbounded, hcalls⟩ := collect_spec backend entries
  refine ⟨r, fun fuel hle => collect_mono backend entries hle hr, ?_, hbounded⟩
  have hfilter : (r.2.calls.map trimSpace).filter (· ≠ []) = r.2.calls.map trimSpace := by
    apply List.filter_eq_self.mpr
    intro path hm
    obtain ⟨p, hp, rfl⟩ := List.mem_map.mp hm
    exact decide_eq_true (hcalls hne p hp)
  rw [← hfilter]
  exact hinv.called

/-- A directory that holds itself. -/
theorem archive_walk_circle :
    let backend : AttachmentBackend Unit := fun _ path => .ok ⟨path, [⟨ascii "loop", path, ascii "dir", 0⟩]⟩
    ∃ r, collectAttachmentArchiveSources backend archiveFuel [⟨ascii "a", ascii "/a", ascii "dir", 0⟩] = some r ∧
      (r.2.calls.map trimSpace).Nodup := by
  intro backend
  obtain ⟨r, hr, hcalls, -⟩ := @archive_walk Unit backend [⟨ascii "a", ascii "/a", ascii "dir", 0⟩] (by decide)
  exact ⟨r, hr _ (Nat.le_refl _), hcalls⟩

end Walk

end Webshell
