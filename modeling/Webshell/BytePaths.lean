import Webshell.GoBytes
import Webshell.Text

/-!
# Clean rooted paths of bytes

`filepath.Clean` and `filepath.Join` on strings that need not be UTF-8. A clean
rooted path is its names; a plain name is joined to it as it is.
-/

namespace GoBytes

/-- One component of `filepath.Clean`, on the stack of those kept so far. -/
def cleanStep (rooted : Bool) (out : List Str) (component : Str) : List Str :=
  if component = [] ∨ component = [dot] then out
  else if component = [dot, dot] then
    match out with
    | [] => if rooted then [] else [component]
    | top :: rest => if top = [dot, dot] then component :: out else rest
  else component :: out

/-- `filepath.Clean`. -/
def clean (path : Str) : Str :=
  let rooted := path.head? = some slash
  let body := join ((path.splitOn slash).foldl (cleanStep rooted) []).reverse
  if rooted then slash :: body else if body = [] then [dot] else body

/-- `filepath.Join`, of two. -/
def pathJoin (dir name : Str) : Str :=
  if dir ≠ [] then clean (dir ++ slash :: name) else if name ≠ [] then clean name else []

/-- A name that `filepath.Clean` keeps. -/
structure PlainName (name : Str) : Prop where
  nonempty : name ≠ []
  notDot : name ≠ [dot]
  notDots : name ≠ [dot, dot]
  noSlash : slash ∉ name

/-- A clean rooted path. -/
def absolute (names : List Str) : Str := slash :: join names

theorem cleanStep_plain {name : Str} (h : PlainName name) (out : List Str) : cleanStep true out name = name :: out := by
  unfold cleanStep
  rw [if_neg (not_or.mpr ⟨h.nonempty, h.notDot⟩), if_neg h.notDots]

theorem foldl_cleanStep_plain {names : List Str} (h : ∀ name ∈ names, PlainName name) (out : List Str) :
    names.foldl (cleanStep true) out = names.reverse ++ out := by
  induction names generalizing out with
  | nil => rfl
  | cons name names ih =>
    rw [List.foldl_cons, cleanStep_plain (h name (List.mem_cons_self ..)),
      ih fun x hx => h x (List.mem_cons_of_mem _ hx)]
    simp

theorem cleanStep_keeps {out : List Str} (h : ∀ name ∈ out, PlainName name) {c : Str} (hc : slash ∉ c) :
    ∀ name ∈ cleanStep true out c, PlainName name := by
  unfold cleanStep
  intro name hm
  split at hm
  · exact h name hm
  rename_i hskip
  rw [not_or] at hskip
  split at hm
  · split at hm
    · exact absurd hm List.not_mem_nil
    · rename_i top rest
      rw [if_neg (h top (List.mem_cons_self ..)).notDots] at hm
      exact h name (List.mem_cons_of_mem _ hm)
  · rename_i hdots
    rcases List.mem_cons.mp hm with rfl | hm
    · exact ⟨hskip.1, hskip.2, hdots, hc⟩
    · exact h name hm

theorem foldl_cleanStep_keeps {cs : List Str} (hcs : ∀ c ∈ cs, slash ∉ c) : ∀ {out : List Str},
    (∀ name ∈ out, PlainName name) → ∀ name ∈ cs.foldl (cleanStep true) out, PlainName name := by
  induction cs with
  | nil => exact id
  | cons c cs ih =>
    intro out h
    rw [List.foldl_cons]
    exact ih (fun x hx => hcs x (List.mem_cons_of_mem _ hx)) (cleanStep_keeps h (hcs c (List.mem_cons_self ..)))

/-- What `filepath.Clean` leaves of a rooted path. -/
theorem clean_rooted {path : Str} (h : path.head? = some slash) :
    ∃ names, (∀ name ∈ names, PlainName name) ∧ clean path = absolute names := by
  refine ⟨((path.splitOn slash).foldl (cleanStep true) []).reverse, fun name hm => ?_, ?_⟩
  · exact foldl_cleanStep_keeps GoText.not_mem_splitOn
      (fun x hx => absurd hx List.not_mem_nil) name (List.mem_reverse.mp hm)
  · unfold clean absolute
    simp only [h, decide_true, if_true]

/-- The names are found again between the slashes. -/
theorem foldl_splitOn_absolute {names : List Str} (h : ∀ name ∈ names, PlainName name) :
    ((absolute names).splitOn slash).foldl (cleanStep true) [] = names.reverse := by
  have hfront : (absolute names).splitOn slash = [] :: (join names).splitOn slash := by
    unfold absolute
    simpa using List.splitOn_append_cons_self [] (join names)
  have hskip : cleanStep true [] [] = [] := rfl
  rw [hfront, List.foldl_cons, hskip]
  by_cases hnil : names = []
  · rw [hnil]
    rfl
  · unfold join
    rw [List.splitOn_intercalate slash (fun name hm => (h name hm).noSlash) hnil, foldl_cleanStep_plain h,
      List.append_nil]

theorem pathJoin_absolute {names : List Str} (h : ∀ name ∈ names, PlainName name) {name : Str} (hn : PlainName name) :
    pathJoin (absolute names) name = absolute (names ++ [name]) := by
  have hsplit : ((absolute names ++ slash :: name).splitOn slash).foldl (cleanStep true) [] =
      (names ++ [name]).reverse := by
    rw [List.splitOn_append_cons_self, List.splitOn_eq_singleton hn.noSlash, List.foldl_append,
      foldl_splitOn_absolute h, List.foldl_cons, cleanStep_plain hn]
    simp
  have hrooted : (absolute names ++ slash :: name).head? = some slash := rfl
  have hne : absolute names ≠ [] := List.cons_ne_nil _ _
  unfold pathJoin
  rw [if_pos hne]
  unfold clean
  simp only [hrooted, decide_true, if_true, hsplit, List.reverse_reverse]
  rfl

end GoBytes
