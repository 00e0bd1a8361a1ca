import Webshell.CheckpointScan
import Webshell.GoBytes
import Webshell.OrderedMap
import Webshell.PaneQueries
import Mathlib.Data.FinEnum

/-!
# Names of archive entries

What the name of a file becomes before it is the name of an entry of an
archive. Names come from the backend and may be any bytes.
-/

namespace Webshell

open GoText GoBytes

def dash : UInt8 := 45

def isControl (b : UInt8) : Bool := b < 0x20 || b = 0x7f

/-- `/\:*?"<>|` -/
def reservedBytes : Bytes := ascii "/\\:*?\"<>|"

/-- The loop over the runes of a name. An invalid byte is read, and written, as U+FFFD. -/
def replaceRunes : Nat → Bytes → Bytes
  | 0, _ => []
  | _ + 1, [] => []
  | fuel + 1, b :: rest =>
    let size := decodeRuneSize (b :: rest)
    let rune :=
      if size ≠ 1 then (b :: rest).take size
      else if isControl b || b ∈ reservedBytes then [dash]
      else if 0x80 ≤ b then [0xef, 0xbf, 0xbd]
      else [b]
    rune ++ replaceRunes fuel ((b :: rest).drop size)

def trimmed : Bytes := ascii ". "

def defaultName : Bytes := ascii "clipboard.txt"

/-- What `sanitizeAttachmentFilename` does to a name that is too long. -/
def shortenFilename (cleaned : Bytes) : Bytes :=
  if 180 < cleaned.length then
    let ext := GoBytes.ext cleaned
    let stem := trimSuffix ext cleaned
    let maxStem : Int := 180 - ext.length
    if maxStem < 1 then cleaned.take 180
    else (if maxStem < stem.length then stem.take maxStem.toNat else stem) ++ ext
  else cleaned

def sanitizeAttachmentFilename (filename : Bytes) : Bytes :=
  let name := GoBytes.base ((GoBytes.trimSpace filename).map fun b => if b = 92 then slash else b)
  let name := GoBytes.trim trimmed name
  if name = [] ∨ name = [dot] ∨ name = [slash] then defaultName
  else
    let cleaned := GoBytes.trim trimmed (replaceRunes name.length name)
    if cleaned = [] ∨ GoBytes.trim (ascii "-_") cleaned = [] then defaultName
    else shortenFilename cleaned

/-- A slash or a backslash. -/
def separators : Bytes := ascii "/\\"

def endsInSeparator (name : Bytes) : Bool := name.getLast?.any (· ∈ separators)

/-- The names on the way of a path, each sanitised. -/
def archiveNames (name : Bytes) : List Bytes :=
  let cleaned := (fields separators (GoBytes.trimSpace name)).filterMap fun part =>
    let cleanedPart := sanitizeAttachmentFilename part
    if cleanedPart = defaultName ∧ GoBytes.trim trimmed part = [] then none else some cleanedPart
  if cleaned = [] then [ascii "download"] else cleaned

def sanitizeAttachmentArchivePath (name : Bytes) : Bytes :=
  let result := join (archiveNames name)
  if endsInSeparator (GoBytes.trimSpace name) = true then result ++ [slash] else result

/-- A path whose name is taken, with a number in front of its extension. -/
def numberedPath (path : Bytes) (n : Nat) : Bytes :=
  let file := fileOf path
  dirOf path ++ (trimSuffix (GoBytes.ext file) file ++ dash :: ascii (formatUint n) ++ GoBytes.ext file)

def uniqueAttachmentArchivePath (name : Bytes) (seen : OrderedMap Bytes Nat) : Bytes × OrderedMap Bytes Nat :=
  let cleaned := sanitizeAttachmentArchivePath name
  let key := if trimSuffix [slash] cleaned = [] then cleaned else trimSuffix [slash] cleaned
  let count := (seen.get key).getD 0
  let seen := seen.set key (count + 1)
  if count = 0 then (cleaned, seen)
  else
    let next := numberedPath (trimSuffix [slash] cleaned) (count + 1)
    (if [slash].isSuffixOf cleaned = true then next ++ [slash] else next, seen)

/-! ## Clean names -/

structure CleanByte (b : UInt8) : Prop where
  control : isControl b = false
  reserved : b ∉ reservedBytes

/-- A name that stands for a file of the directory it is in. -/
structure CleanName (name : Bytes) : Prop where
  some : name ≠ []
  here : name ≠ [dot]
  up : name ≠ [dot, dot]
  bytes : ∀ b ∈ name, CleanByte b

instance (b : UInt8) : Decidable (CleanByte b) :=
  decidable_of_iff (isControl b = false ∧ b ∉ reservedBytes) ⟨fun h => ⟨h.1, h.2⟩, fun h => ⟨h.1, h.2⟩⟩

instance (name : Bytes) : Decidable (CleanName name) :=
  decidable_of_iff (name ≠ [] ∧ name ≠ [dot] ∧ name ≠ [dot, dot] ∧ ∀ b ∈ name, CleanByte b)
    ⟨fun h => ⟨h.1, h.2.1, h.2.2.1, h.2.2.2⟩, fun h => ⟨h.1, h.2, h.3, h.4⟩⟩

theorem cleanByte_of_high {b : UInt8} (h : 0x80 ≤ b) : CleanByte b := by
  constructor
  · unfold isControl
    rw [Bool.or_eq_false_iff, decide_eq_false_iff_not, decide_eq_false_iff_not]
    refine ⟨UInt8.not_lt.mpr (UInt8.le_trans (by decide) h), ?_⟩
    rintro rfl
    exact absurd h (by decide)
  · intro hm
    have hall : ∀ c ∈ reservedBytes, ¬0x80 ≤ c := by decide +kernel
    exact hall b hm h

theorem cleanByte_slash {b : UInt8} (h : CleanByte b) : b ≠ slash := by
  rintro rfl
  exact h.reserved (by decide)

theorem CleanName.no_slash {name : Bytes} (h : CleanName name) : slash ∉ name :=
  fun hm => cleanByte_slash (h.bytes _ hm) rfl

theorem runeStart_high {b low high : UInt8} {size : Nat} (h : runeStart b = some (size, low, high)) : 0x80 ≤ b := by
  unfold runeStart at h
  split at h
  · cases h
  · rename_i hb
    exact UInt8.le_trans (by decide) (UInt8.not_lt.mp hb)

/-- A sequence of several bytes has no ASCII byte. -/
theorem high_of_decodeRuneSize {b : UInt8} {rest : Bytes} (h : decodeRuneSize (b :: rest) ≠ 1) :
    ∀ c ∈ (b :: rest).take (decodeRuneSize (b :: rest)), 0x80 ≤ c := by
  unfold decodeRuneSize at h ⊢
  simp only at h ⊢
  cases hs : runeStart b with
  | none =>
    rw [hs] at h
    exact absurd rfl h
  | some start =>
    obtain ⟨size, low, high⟩ := start
    obtain ⟨hsize, -, hlow⟩ := runeStart_some hs
    rw [hs] at h
    simp only at h ⊢
    cases rest with
    | nil => exact absurd rfl h
    | cons c rest =>
      simp only at h ⊢
      split at h
      · exact absurd rfl h
      · rename_i hc
        rw [if_neg hc]
        split at h
        · rename_i hall
          rw [if_pos hall]
          simp only [Bool.or_eq_true, decide_eq_true_eq, not_or] at hc
          intro x hx
          obtain ⟨n, rfl⟩ : ∃ n, size = n + 2 := ⟨size - 2, by omega⟩
          simp only [List.take_succ_cons, Nat.add_sub_cancel] at hx hall
          rcases List.mem_cons.mp hx with rfl | hx
          · exact runeStart_high hs
          · rcases List.mem_cons.mp hx with rfl | hx
            · exact UInt8.le_trans hlow (UInt8.not_lt.mp hc.1.2)
            · have hcont := List.all_eq_true.mp hall x hx
              unfold isContinuation at hcont
              exact of_decide_eq_true (Bool.and_eq_true_iff.mp hcont).1
        · exact absurd rfl h

theorem replaceRunes_clean : ∀ (fuel : Nat) (name : Bytes), ∀ b ∈ replaceRunes fuel name, CleanByte b
  | 0, _, b, h => absurd h List.not_mem_nil
  | _ + 1, [], b, h => absurd h List.not_mem_nil
  | fuel + 1, c :: rest, b, h => by
    rw [replaceRunes] at h
    rcases List.mem_append.mp h with h | h
    · split at h
      · rename_i hsize
        exact cleanByte_of_high (high_of_decodeRuneSize hsize b h)
      · split at h
        · rw [List.mem_singleton.mp h]
          decide
        · rename_i hbad
          split at h
          · have hall : ∀ x ∈ ([0xef, 0xbf, 0xbd] : Bytes), CleanByte x := by decide +kernel
            exact hall b h
          · rw [List.mem_singleton.mp h]
            simp only [Bool.or_eq_true, decide_eq_true_eq, not_or] at hbad
            exact ⟨Bool.eq_false_iff.mpr hbad.1, hbad.2⟩
    · exact replaceRunes_clean fuel _ b h

theorem trimSuffix_subset (suffix s : Bytes) : ∀ b ∈ trimSuffix suffix s, b ∈ s := by
  intro b h
  unfold trimSuffix at h
  split at h
  · exact List.mem_of_mem_take h
  · exact h

theorem cleanName_of_long {name : Bytes} (hl : 3 ≤ name.length) (h : ∀ b ∈ name, CleanByte b) : CleanName name where
  some he := by rw [he] at hl; exact absurd hl (by decide)
  here he := by rw [he] at hl; exact absurd hl (by decide)
  up he := by rw [he] at hl; exact absurd hl (by decide)
  bytes := h

theorem cleanName_of_head {b : UInt8} {rest : Bytes} (hb : b ≠ dot) (h : ∀ c ∈ b :: rest, CleanByte c) :
    CleanName (b :: rest) where
  some := List.cons_ne_nil _ _
  here he := hb (List.cons.inj he).1
  up he := hb (List.cons.inj he).1
  bytes := h

theorem trimSuffix_ext (file : Bytes) : trimSuffix (GoBytes.ext file) file = stemOf file := by
  unfold trimSuffix stemOf
  rw [if_pos]
  rw [List.isSuffixOf_iff_suffix]
  exact ⟨stemOf file, (stemOf_append_ext file).1⟩

theorem shortenFilename_clean {cleaned : Bytes} (h : CleanName cleaned) : CleanName (shortenFilename cleaned) := by
  unfold shortenFilename
  by_cases hlong : 180 < cleaned.length
  · rw [if_pos hlong]
    have hsplit := (stemOf_append_ext cleaned).1
    have hlength := congrArg List.length hsplit
    rw [List.length_append] at hlength
    have hstem : ∀ b ∈ stemOf cleaned, b ∈ cleaned := fun b hb => hsplit ▸ List.mem_append_left _ hb
    have hext : ∀ b ∈ GoBytes.ext cleaned, b ∈ cleaned := fun b hb => by
      rw [← hsplit]
      exact List.mem_append_right _ hb
    simp only [trimSuffix_ext]
    split
    · apply cleanName_of_long
      · rw [List.length_take]
        omega
      · exact fun b hb => h.bytes b (List.mem_of_mem_take hb)
    · apply cleanName_of_long
      · rw [List.length_append]
        split
        · rw [List.length_take]
          omega
        · omega
      · intro b hb
        rcases List.mem_append.mp hb with hb | hb
        · split at hb
          · exact h.bytes b (hstem b (List.mem_of_mem_take hb))
          · exact h.bytes b (hstem b hb)
        · exact h.bytes b (hext b hb)
  · rw [if_neg hlong]
    exact h

theorem sanitizeAttachmentFilename_clean (filename : Bytes) : CleanName (sanitizeAttachmentFilename filename) := by
  have hdefault : CleanName defaultName := by decide +kernel
  unfold sanitizeAttachmentFilename
  simp only
  split
  · exact hdefault
  · generalize GoBytes.trim trimmed (GoBytes.base _) = name
    split
    · exact hdefault
    · rename_i hcleaned
      apply shortenFilename_clean
      cases hc : GoBytes.trim trimmed (replaceRunes name.length name) with
      | nil => exact absurd (.inl hc) hcleaned
      | cons b rest =>
        apply cleanName_of_head
        · rintro rfl
          exact head_trim hc (by decide)
        · intro c hm
          exact replaceRunes_clean _ _ c (mem_trim (hc ▸ hm))

/-! ## Clean paths -/

theorem archiveNames_clean (name : Bytes) : ∀ part ∈ archiveNames name, CleanName part := by
  intro part h
  unfold archiveNames at h
  simp only at h
  split at h
  · rw [List.mem_singleton.mp h]
    decide +kernel
  · obtain ⟨field, -, hf⟩ := List.mem_filterMap.mp h
    split at hf
    · cases hf
    · cases hf
      exact sanitizeAttachmentFilename_clean field

theorem archiveNames_ne_nil (name : Bytes) : archiveNames name ≠ [] := by
  unfold archiveNames
  simp only
  split
  · exact List.cons_ne_nil _ _
  · assumption

/-- A path of clean names. -/
def CleanPath (path : Bytes) : Prop := ∃ parts, parts ≠ [] ∧ (∀ part ∈ parts, CleanName part) ∧ path = join parts

/-- What the name of an entry should be: a path below the directory the archive is unpacked in. -/
def SafeArchiveName (dir : Bool) (name : Bytes) : Prop :=
  ∃ path, CleanPath path ∧ name = if dir = true then path ++ [slash] else path

theorem CleanPath.split {path : Bytes} (h : CleanPath path) :
    ∃ dir file, path = dir ++ file ∧ IsDir dir ∧ CleanName file ∧ ∀ name, CleanName name → CleanPath (dir ++ name) := by
  obtain ⟨parts, hne, hclean, rfl⟩ := h
  obtain ⟨init, last, rfl⟩ := (List.eq_nil_or_concat parts).resolve_left hne
  rw [List.concat_eq_append] at hclean ⊢
  obtain ⟨dir, hd, hjoin⟩ := join_concat init
  refine ⟨dir, last, hjoin last, hd, hclean last (by simp), fun name hname => ?_⟩
  refine ⟨init ++ [name], by simp, fun part hm => ?_, (hjoin name).symm⟩
  rcases List.mem_append.mp hm with hm | hm
  · exact hclean part (List.mem_append_left _ hm)
  · rw [List.mem_singleton.mp hm]
    exact hname

/-- A path does not end in a slash. -/
theorem CleanPath.getLast {path : Bytes} (h : CleanPath path) : ∃ front b, path = front ++ [b] ∧ b ≠ slash := by
  obtain ⟨dir, file, rfl, -, hfile, -⟩ := h.split
  obtain ⟨front, b, rfl⟩ := (List.eq_nil_or_concat file).resolve_left hfile.some
  rw [List.concat_eq_append] at hfile ⊢
  exact ⟨dir ++ front, b, (List.append_assoc ..).symm, cleanByte_slash (hfile.bytes b (by simp))⟩

theorem trimSuffix_append (s suffix : Bytes) : trimSuffix suffix (s ++ suffix) = s := by
  unfold trimSuffix
  rw [if_pos (List.isSuffixOf_iff_suffix.mpr (List.suffix_append ..))]
  simp

theorem isSuffixOf_slash {front : Bytes} {b : UInt8} : [slash].isSuffixOf (front ++ [b]) = true ↔ b = slash := by
  rw [List.isSuffixOf_iff_suffix]
  constructor
  · rintro ⟨other, h⟩
    have := (List.append_inj' h rfl).2
    simpa using this.symm
  · rintro rfl
    exact List.suffix_append ..

theorem CleanPath.trimSuffix {path : Bytes} (h : CleanPath path) : GoBytes.trimSuffix [slash] path = path := by
  obtain ⟨front, b, rfl, hb⟩ := h.getLast
  unfold GoBytes.trimSuffix
  rw [if_neg]
  exact fun hs => hb (isSuffixOf_slash.mp hs)

/-- The path that a name is counted by. -/
def archiveKey (name : Bytes) : Bytes := join (archiveNames name)

theorem archiveKey_clean (name : Bytes) : CleanPath (archiveKey name) :=
  ⟨_, archiveNames_ne_nil name, archiveNames_clean name, rfl⟩

/-- The path of a name whose path was taken `count` times before. -/
def archiveForm (key : Bytes) (count : Nat) : Bytes := if count = 0 then key else numberedPath key (count + 1)

/-- The slash that stays at the end of a name. -/
def trailing (name : Bytes) : Bytes := if endsInSeparator (GoBytes.trimSpace name) = true then [slash] else []

def seenCount (seen : OrderedMap Bytes Nat) (key : Bytes) : Nat := (seen.get key).getD 0

theorem sanitizeAttachmentArchivePath_eq (name : Bytes) :
    sanitizeAttachmentArchivePath name = archiveKey name ++ trailing name := by
  unfold sanitizeAttachmentArchivePath archiveKey trailing
  simp only
  split
  · rfl
  · exact (List.append_nil _).symm

theorem trimSuffix_sanitized (name : Bytes) :
    trimSuffix [slash] (sanitizeAttachmentArchivePath name) = archiveKey name := by
  rw [sanitizeAttachmentArchivePath_eq]
  unfold trailing
  split
  · exact trimSuffix_append ..
  · rw [List.append_nil]
    exact (archiveKey_clean name).trimSuffix

theorem isSuffixOf_sanitized (name : Bytes) :
    [slash].isSuffixOf (sanitizeAttachmentArchivePath name) = endsInSeparator (GoBytes.trimSpace name) := by
  rw [sanitizeAttachmentArchivePath_eq]
  unfold trailing
  cases hends : endsInSeparator (GoBytes.trimSpace name) with
  | true => exact isSuffixOf_slash.mpr rfl
  | false =>
    obtain ⟨front, b, hpath, hb⟩ := (archiveKey_clean name).getLast
    rw [if_neg Bool.false_ne_true, List.append_nil, hpath]
    exact Bool.eq_false_iff.mpr fun hs => hb (isSuffixOf_slash.mp hs)

/-- What a call answers, and how the counts change. -/
theorem uniqueAttachmentArchivePath_eq (name : Bytes) (seen : OrderedMap Bytes Nat) :
    uniqueAttachmentArchivePath name seen =
      (archiveForm (archiveKey name) (seenCount seen (archiveKey name)) ++ trailing name,
        seen.set (archiveKey name) (seenCount seen (archiveKey name) + 1)) := by
  have hne : archiveKey name ≠ [] := by
    obtain ⟨front, b, hpath, -⟩ := (archiveKey_clean name).getLast
    rw [hpath]
    simp
  unfold uniqueAttachmentArchivePath
  simp only [trimSuffix_sanitized, if_neg hne, isSuffixOf_sanitized]
  unfold archiveForm seenCount
  split
  · rw [sanitizeAttachmentArchivePath_eq]
  · unfold trailing
    split
    · rfl
    · rw [List.append_nil]

/-! ## Numbered paths -/

theorem formatUint_bytes (n : Nat) : ∀ b ∈ ascii (formatUint n), CleanByte b ∧ b ≠ dash ∧ b ≠ dot := by
  intro b hb
  obtain ⟨c, hc, rfl⟩ := List.mem_map.mp hb
  have hdigit := formatUint_isDigit n c hc
  simp only [Char.isDigit, Bool.and_eq_true, decide_eq_true_eq] at hdigit
  have hlo : 48 ≤ c.toNat := hdigit.1
  have hhi : c.toNat ≤ 57 := hdigit.2
  have hall : ∀ k : Fin 10, CleanByte (Nat.toUInt8 (48 + k.val)) ∧ Nat.toUInt8 (48 + k.val) ≠ dash ∧
      Nat.toUInt8 (48 + k.val) ≠ dot := by decide
  have hk := hall ⟨c.toNat - 48, by omega⟩
  rw [show 48 + (c.toNat - 48) = c.toNat by omega] at hk
  exact hk

theorem numberedPath_clean {path : Bytes} (h : CleanPath path) (n : Nat) : CleanPath (numberedPath path n) := by
  obtain ⟨dir, file, rfl, hd, hfile, hname⟩ := h.split
  obtain ⟨hdir, hf⟩ := fileOf_append hd hfile.no_slash
  obtain ⟨hsplit, -⟩ := stemOf_append_ext file
  unfold numberedPath
  simp only [hdir, hf, trimSuffix_ext]
  apply hname
  have hdash : dash ∈ stemOf file ++ dash :: ascii (formatUint n) ++ GoBytes.ext file := by simp
  refine ⟨fun he => ?_, fun he => ?_, fun he => ?_, fun b hb => ?_⟩
  · rw [he] at hdash
    exact absurd hdash List.not_mem_nil
  · rw [he] at hdash
    exact absurd hdash (by decide)
  · rw [he] at hdash
    exact absurd hdash (by decide)
  · rcases List.mem_append.mp hb with hb | hb
    · rcases List.mem_append.mp hb with hb | hb
      · exact hfile.bytes b (hsplit ▸ List.mem_append_left _ hb)
      · rcases List.mem_cons.mp hb with rfl | hb
        · decide
        · exact (formatUint_bytes n b hb).1
    · apply hfile.bytes b
      rw [← hsplit]
      exact List.mem_append_right _ hb

theorem archiveForm_clean {path : Bytes} (h : CleanPath path) (count : Nat) : CleanPath (archiveForm path count) := by
  unfold archiveForm
  split
  · exact h
  · exact numberedPath_clean h _

theorem ascii_formatUint_inj {n n' : Nat} (h : ascii (formatUint n) = ascii (formatUint n')) : n = n' := by
  have hcode : ∀ c c' : Char, c.isDigit = true → c'.isDigit = true → code c = code c' → c = c' := by
    intro c c' hc hc' he
    simp only [Char.isDigit, Bool.and_eq_true, decide_eq_true_eq] at hc hc'
    have h1 : c.toNat ≤ 57 := hc.2
    have h2 : c'.toNat ≤ 57 := hc'.2
    apply Char.toNat_inj.mp
    have hn := congrArg UInt8.toNat he
    unfold code at hn
    simp only [Nat.toUInt8, UInt8.toNat_ofNat'] at hn
    omega
  have hlist : ∀ cs cs' : List Char, (∀ c ∈ cs, c.isDigit = true) → (∀ c ∈ cs', c.isDigit = true) →
      cs.map code = cs'.map code → cs = cs' := by
    intro cs
    induction cs with
    | nil =>
      intro cs' _ _ he
      exact (List.map_eq_nil_iff.mp he.symm).symm
    | cons c cs ih =>
      intro cs' hcs hcs' he
      cases cs' with
      | nil => cases he
      | cons c' cs' =>
        rw [List.map_cons, List.map_cons, List.cons.injEq] at he
        rw [hcode c c' (hcs c (List.mem_cons_self ..)) (hcs' c' (List.mem_cons_self ..)) he.1,
          ih cs' (fun x hx => hcs x (List.mem_cons_of_mem _ hx)) (fun x hx => hcs' x (List.mem_cons_of_mem _ hx)) he.2]
  have hstr := hlist _ _ (formatUint_isDigit n) (formatUint_isDigit n') h
  have hint : (n : Int).repr = (n' : Int).repr := by
    apply String.ext
    exact hstr
  exact Int.ofNat.inj (int_repr_inj hint)

/-- The path and the number can be read off a numbered path. -/
theorem numberedPath_inj {path path' : Bytes} {n n' : Nat} (h : numberedPath path n = numberedPath path' n') :
    path = path' ∧ n = n' := by
  obtain ⟨hsplit, hext⟩ := stemOf_append_ext (fileOf path)
  obtain ⟨hsplit', hext'⟩ := stemOf_append_ext (fileOf path')
  have hbytes (k : Nat) : slash ∉ ascii (formatUint k) ∧ dash ∉ ascii (formatUint k) ∧ dot ∉ ascii (formatUint k) :=
    ⟨fun hm => cleanByte_slash (formatUint_bytes k _ hm).1 rfl, fun hm => (formatUint_bytes k _ hm).2.1 rfl,
      fun hm => (formatUint_bytes k _ hm).2.2 rfl⟩
  -- A number has none of the characters that a path is cut at.
  have hslash (p : Bytes) (k : Nat) (hs : stemOf (fileOf p) ++ GoBytes.ext (fileOf p) = fileOf p) :
      slash ∉ stemOf (fileOf p) ++ dash :: ascii (formatUint k) ++ GoBytes.ext (fileOf p) := by
    have hno := slash_not_mem_fileOf p
    rw [← hs] at hno
    simp only [List.mem_append, List.mem_cons, not_or] at hno ⊢
    exact ⟨⟨hno.1, by decide, (hbytes k).1⟩, hno.2⟩
  have hisExt (p : Bytes) (k : Nat) (he : IsExt (stemOf (fileOf p)) (GoBytes.ext (fileOf p))) :
      IsExt (stemOf (fileOf p) ++ dash :: ascii (formatUint k)) (GoBytes.ext (fileOf p)) := by
    rcases he with ⟨hnil, hno⟩ | htail
    · refine .inl ⟨hnil, ?_⟩
      simp only [List.mem_append, List.mem_cons, not_or]
      exact ⟨hno, by decide, (hbytes k).2.2⟩
    · exact .inr htail
  unfold numberedPath at h
  simp only [trimSuffix_ext] at h
  obtain ⟨hdir, hfile⟩ := dir_inj h (dirOf_isDir path) (dirOf_isDir path') (hslash path n hsplit) (hslash path' n' hsplit')
  obtain ⟨hstem, he⟩ := ext_inj hfile (hisExt path n hext) (hisExt path' n' hext')
  obtain ⟨hstem, hn⟩ := append_cons_inj hstem (hbytes n).2.1 (hbytes n').2.1
  refine ⟨?_, ascii_formatUint_inj hn⟩
  rw [← dirOf_append_fileOf path, ← hsplit, hdir, hstem, he, hsplit', dirOf_append_fileOf]

end Webshell
