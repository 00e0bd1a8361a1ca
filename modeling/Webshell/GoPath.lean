import Webshell.Text

/-!
# Clean rooted paths

What `filepath.Clean` leaves of a rooted path is the stack of the names that
last. The last of them can be read off the path from its end: a name lasts
unless a `..` behind it takes it away.
-/

namespace GoText

/-- A name that `filepath.Clean` keeps. -/
structure Plain (name : List Char) : Prop where
  nonempty : name ≠ []
  notDot : name ≠ ['.']
  notDots : name ≠ ['.', '.']
  noSlash : '/' ∉ name

/-- From the last component on: the last name that lasts, behind `n` that do not. -/
def lastName : Nat → List (List Char) → Option (List Char)
  | _, [] => none
  | n, c :: cs =>
    if c = [] ∨ c = ['.'] then lastName n cs
    else if c = ['.', '.'] then lastName (n + 1) cs
    else
      match n with
      | 0 => some c
      | n + 1 => lastName n cs

/-- The names of a path that last, the last one first. -/
def keptNames (cs : List (List Char)) : List (List Char) := cs.foldl (cleanStep true) []

theorem keptNames_concat (cs : List (List Char)) (c : List Char) :
    keptNames (cs ++ [c]) = cleanStep true (keptNames cs) c := by
  unfold keptNames
  rw [List.foldl_append]
  rfl

/-! ## The stack -/

theorem keptNames_plain {cs : List (List Char)} (h : ∀ c ∈ cs, '/' ∉ c) : ∀ name ∈ keptNames cs, Plain name := by
  induction cs using List.reverseRecOn with
  | nil => intro name hm; cases hm
  | append_singleton cs c ih =>
    have hkept := ih fun c hc => h c (List.mem_append_left _ hc)
    rw [keptNames_concat]
    unfold cleanStep
    intro name hm
    split at hm
    · exact hkept name hm
    rename_i hskip
    rw [not_or] at hskip
    split at hm
    · split at hm
      · cases hm
      · rename_i top rest htop
        rw [htop] at hkept
        rw [if_neg (hkept top (List.mem_cons_self ..)).notDots] at hm
        exact hkept name (List.mem_cons_of_mem _ hm)
    · rename_i hdots
      rcases List.mem_cons.mp hm with rfl | hm
      · exact ⟨hskip.1, hskip.2, hdots, h name (by simp)⟩
      · exact hkept name hm

theorem keptNames_getElem? {cs : List (List Char)} (h : ∀ c ∈ cs, '/' ∉ c) (n : Nat) :
    (keptNames cs)[n]? = lastName n cs.reverse := by
  induction cs using List.reverseRecOn generalizing n with
  | nil => rfl
  | append_singleton cs c ih =>
    have hcs : ∀ c ∈ cs, '/' ∉ c := fun c hc => h c (List.mem_append_left _ hc)
    have hkept := keptNames_plain hcs
    rw [keptNames_concat, List.reverse_append, List.reverse_singleton, List.singleton_append]
    unfold cleanStep lastName
    by_cases hskip : c = [] ∨ c = ['.']
    · rw [if_pos hskip, if_pos hskip]
      exact ih hcs n
    rw [if_neg hskip, if_neg hskip]
    by_cases hdots : c = ['.', '.']
    · rw [if_pos hdots, if_pos hdots, ← ih hcs (n + 1)]
      cases htop : keptNames cs with
      | nil => rfl
      | cons top rest =>
        rw [htop] at hkept
        simp only
        rw [if_neg (hkept top (List.mem_cons_self ..)).notDots, List.getElem?_cons_succ]
    · rw [if_neg hdots, if_neg hdots]
      cases n with
      | zero => rfl
      | succ n =>
        rw [List.getElem?_cons_succ]
        exact ih hcs n

theorem keptNames_self {names : List (List Char)} (h : ∀ name ∈ names, Plain name) :
    keptNames names = names.reverse := by
  induction names using List.reverseRecOn with
  | nil => rfl
  | append_singleton names name ih =>
    have hname := h name (by simp)
    rw [keptNames_concat, ih fun n hn => h n (List.mem_append_left _ hn), List.reverse_append]
    unfold cleanStep
    rw [if_neg (not_or.mpr ⟨hname.nonempty, hname.notDot⟩), if_neg hname.notDots]
    rfl

theorem keptNames_sublist (cs : List (List Char)) : (keptNames cs).reverse.Sublist cs := by
  induction cs using List.reverseRecOn with
  | nil => exact List.Sublist.refl _
  | append_singleton cs c ih =>
    rw [keptNames_concat]
    unfold cleanStep
    split
    · exact ih.trans (List.sublist_append_left cs [c])
    split
    · split
      · exact List.nil_sublist _
      · rename_i top rest htop
        rw [htop, List.reverse_cons] at ih
        split
        · rw [List.reverse_cons, htop, List.reverse_cons]
          exact ih.append (List.Sublist.refl [c])
        · exact (List.sublist_append_left rest.reverse [top]).trans (ih.trans (List.sublist_append_left cs [c]))
    · rw [List.reverse_cons]
      exact ih.append (List.Sublist.refl [c])

/-! ## Separators -/

theorem intercalate_sublist {x : Char} {ks ls : List (List Char)} (h : ks.Sublist ls) :
    (List.intercalate [x] ks).Sublist (List.intercalate [x] ls) := by
  induction h with
  | slnil => exact List.Sublist.refl _
  | @cons ks ls a h ih =>
    cases ls with
    | nil => exact ih.trans (List.nil_sublist _)
    | cons b ls =>
      rw [List.intercalate_cons_cons]
      exact ih.trans (List.sublist_append_right (a ++ [x]) _)
  | @cons_cons ks ls a h ih =>
    cases ks with
    | nil =>
      rw [List.intercalate_singleton]
      cases ls with
      | nil =>
        rw [List.intercalate_singleton]
      | cons b ls =>
        rw [List.intercalate_cons_cons, List.append_assoc]
        exact List.sublist_append_left a _
    | cons c ks =>
      cases ls with
      | nil => cases h
      | cons b ls =>
        rw [List.intercalate_cons_cons, List.intercalate_cons_cons]
        exact (List.Sublist.refl (a ++ [x])).append ih

theorem intercalate_getLast? {x : Char} {name : List Char} (hne : name ≠ []) (names : List (List Char)) :
    (List.intercalate [x] (names ++ [name])).getLast? = name.getLast? := by
  induction names with
  | nil => rw [List.nil_append, List.intercalate_singleton]
  | cons a names ih =>
    have hmore : names ++ [name] ≠ [] := by simp
    rw [List.cons_append, List.intercalate_cons_of_ne_nil hmore, List.getLast?_append, ih,
      List.getLast?_eq_getLast_of_ne_nil hne, Option.some_or]

/-! ## The path -/

def components (path : String) : List (List Char) := path.toList.splitOn '/'

theorem pathIsAbs_cons {path : String} : pathIsAbs path = true ↔ ∃ rest, path.toList = '/' :: rest := by
  unfold pathIsAbs
  rw [decide_eq_true_eq, List.head?_eq_some_iff]

theorem components_rooted {path : String} {rest : List Char} (h : path.toList = '/' :: rest) :
    components path = [] :: rest.splitOn '/' := by
  unfold components
  rw [h, List.splitOn_cons_eq_if_modifyHead, if_pos (beq_self_eq_true _)]

theorem keptNames_rooted (cs : List (List Char)) : keptNames ([] :: cs) = keptNames cs := rfl

theorem pathClean_rooted {path : String} (h : pathIsAbs path = true) :
    (pathClean path).toList = '/' :: List.intercalate ['/'] (keptNames (components path)).reverse := by
  have hroot : path.toList.head? = some '/' := of_decide_eq_true h
  unfold pathClean keptNames components
  simp only [hroot, if_true, decide_true, String.toList_ofList]

theorem pathClean_abs {path : String} (h : pathIsAbs path = true) : pathIsAbs (pathClean path) = true :=
  pathIsAbs_cons.mpr ⟨_, pathClean_rooted h⟩

/-- Cleaning only takes away. -/
theorem pathClean_sublist {path : String} (h : pathIsAbs path = true) :
    (pathClean path).toList.Sublist path.toList := by
  obtain ⟨rest, hrest⟩ := pathIsAbs_cons.mp h
  rw [pathClean_rooted h, components_rooted hrest, keptNames_rooted, hrest]
  have hsub := intercalate_sublist (x := '/') (keptNames_sublist (rest.splitOn '/'))
  rw [List.intercalate_splitOn] at hsub
  exact hsub.cons_cons '/'

theorem pathClean_idem {path : String} (h : pathIsAbs path = true) : pathClean (pathClean path) = pathClean path := by
  have hplain : ∀ name ∈ (keptNames (components path)).reverse, Plain name := fun name hm =>
    keptNames_plain (fun c hc => not_mem_splitOn c hc) name (List.mem_reverse.mp hm)
  have hagain : keptNames (components (pathClean path)) = keptNames (components path) := by
    rw [components_rooted (pathClean_rooted h), keptNames_rooted]
    cases hk : (keptNames (components path)).reverse with
    | nil =>
      rw [List.reverse_eq_nil_iff.mp hk]
      rfl
    | cons name names =>
      rw [hk] at hplain
      rw [List.splitOn_intercalate '/' (fun l hl => (hplain l hl).noSlash) (List.cons_ne_nil _ _), keptNames_self hplain,
        ← hk, List.reverse_reverse]
  apply String.toList_inj.mp
  rw [pathClean_rooted (pathClean_abs h), hagain, pathClean_rooted h]

/-- The last character is that of the last name that lasts. -/
theorem pathClean_getLast? {path : String} (h : pathIsAbs path = true) :
    (pathClean path).toList.getLast? = ((lastName 0 (components path).reverse).bind List.getLast?).or (some '/') := by
  have hslash : ∀ c ∈ components path, '/' ∉ c := fun c hc => not_mem_splitOn c hc
  have hplain := keptNames_plain hslash
  rw [← keptNames_getElem? hslash 0, pathClean_rooted h]
  cases hk : keptNames (components path) with
  | nil => rfl
  | cons name names =>
    rw [hk] at hplain
    have hne := (hplain name (List.mem_cons_self ..)).nonempty
    rw [List.getElem?_cons_zero, Option.bind_some, List.getLast?_cons, List.reverse_cons, intercalate_getLast? hne,
      List.getLast?_eq_getLast_of_ne_nil hne]
    rfl

end GoText
