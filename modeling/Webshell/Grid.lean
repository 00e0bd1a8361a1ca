import Mathlib.Data.List.Basic

/-!
# Grids kept as rows and as one flat list

Rows of one width, their cells in reading order, and the flat list brought up
to date by writing some of the rows into it.
-/

namespace Grid

variable {α : Type} {columns : Nat}

def Uniform (columns : Nat) (rows : List (List α)) : Prop := ∀ row ∈ rows, row.length = columns

def cell? (rows : List (List α)) (row column : Nat) : Option α := rows[row]?.bind fun cells => cells[column]?

/-- `cells[row * columns + column] = rows[row][column]`. -/
def write (columns : Nat) (rows : List (List α)) (row : Nat) (cells : List α) (column : Nat) : List α :=
  match cell? rows row column with
  | some c => cells.set (row * columns + column) c
  | none => cells

def patchRow (columns : Nat) (rows : List (List α)) (cells : List α) (row : Nat) : List α :=
  (List.range columns).foldl (write columns rows row) cells

def patch (columns : Nat) (rows : List (List α)) (cells : List α) (changed : List Nat) : List α :=
  changed.foldl (patchRow columns rows) cells

/-! ## Reading order -/

theorem Uniform.tail {row : List α} {rows : List (List α)} (h : Uniform columns (row :: rows)) : Uniform columns rows :=
  fun r hr => h r (List.mem_cons_of_mem _ hr)

theorem Uniform.length_flatten : ∀ {rows : List (List α)}, Uniform columns rows → rows.flatten.length = rows.length * columns
  | [], _ => by simp
  | row :: rows, h => by
    rw [List.flatten_cons, List.length_append, h.tail.length_flatten, h row (List.mem_cons_self ..), List.length_cons,
      Nat.add_mul]
    omega

theorem Uniform.getElem?_flatten {rows : List (List α)} (h : Uniform columns rows) {i : Nat} (hi : i < rows.length * columns) :
    rows.flatten[i]? = cell? rows (i / columns) (i % columns) := by
  have hc : 0 < columns := Nat.pos_of_ne_zero fun h0 => by rw [h0, Nat.mul_zero] at hi; omega
  induction rows generalizing i with
  | nil => simp at hi
  | cons row rows ih =>
    have hrow := h row (List.mem_cons_self ..)
    rw [List.flatten_cons]
    by_cases hlt : i < columns
    · rw [List.getElem?_append_left (by omega), Nat.div_eq_of_lt hlt, Nat.mod_eq_of_lt hlt]
      rfl
    · rw [List.length_cons, Nat.add_mul, Nat.one_mul] at hi
      have hdiv : i / columns = (i - columns) / columns + 1 := Nat.div_eq_sub_div hc (by omega)
      have hmod : i % columns = (i - columns) % columns := Nat.mod_eq_sub_mod (by omega)
      rw [List.getElem?_append_right (by omega), hrow, ih h.tail (by omega), hdiv, hmod]
      rfl

/-! ## Rows written into the flat list -/

theorem length_write (rows : List (List α)) (row : Nat) (cells : List α) (column : Nat) :
    (write columns rows row cells column).length = cells.length := by
  unfold write
  split
  · exact List.length_set ..
  · rfl

theorem length_writes (rows : List (List α)) (row : Nat) : ∀ (l : List Nat) (cells : List α),
    (l.foldl (write columns rows row) cells).length = cells.length
  | [], _ => rfl
  | column :: l, cells => by rw [List.foldl_cons, length_writes rows row l, length_write]

theorem length_patchRow (rows : List (List α)) (cells : List α) (row : Nat) :
    (patchRow columns rows cells row).length = cells.length := length_writes ..

/-- After `n` columns of a row are written, those columns are the row's. -/
theorem getElem?_writes (rows : List (List α)) (row : Nat) {i : Nat} (cells : List α) (hi : i < cells.length) :
    ∀ n, (∀ column < n, (cell? rows row column).isSome = true) →
    ((List.range n).foldl (write columns rows row) cells)[i]? =
      if row * columns ≤ i ∧ i < row * columns + n then cell? rows row (i - row * columns) else cells[i]?
  | 0, _ => by
    rw [if_neg (by omega)]
    rfl
  | n + 1, hcell => by
    have ih := getElem?_writes rows row cells hi n fun column h => hcell column (by omega)
    obtain ⟨c, hc⟩ := Option.isSome_iff_exists.mp (hcell n (by omega))
    rw [List.range_succ, List.foldl_append, List.foldl_cons, List.foldl_nil]
    unfold write at ih ⊢
    rw [hc]
    by_cases hin : i = row * columns + n
    · subst hin
      have hlen : ((List.range n).foldl (write columns rows row) cells).length = cells.length := length_writes ..
      unfold write at hlen
      rw [List.getElem?_set_self (by rw [hlen]; exact hi), if_pos (by omega), Nat.add_sub_cancel_left, hc]
    · rw [List.getElem?_set_ne (Ne.symm hin), ih]
      congr 1
      apply propext
      omega

theorem Uniform.isSome_cell? {rows : List (List α)} (h : Uniform columns rows) {row column : Nat} (hr : row < rows.length)
    (hc : column < columns) : (cell? rows row column).isSome = true := by
  unfold cell?
  have hlen := h _ (List.getElem_mem hr)
  rw [List.getElem?_eq_getElem hr, Option.bind_some, List.getElem?_eq_getElem (by omega)]
  rfl

theorem getElem?_patchRow {rows : List (List α)} (h : Uniform columns rows) {row : Nat} (hr : row < rows.length)
    {cells : List α} {i : Nat} (hi : i < cells.length) (hc : 0 < columns) :
    (patchRow columns rows cells row)[i]? = if i / columns = row then cell? rows row (i % columns) else cells[i]? := by
  unfold patchRow
  rw [getElem?_writes rows row cells hi columns fun column hcol => h.isSome_cell? hr hcol]
  have hdm := Nat.div_add_mod' i columns
  have hlt := Nat.mod_lt i hc
  by_cases he : i / columns = row
  · rw [he] at hdm
    rw [if_pos he, if_pos ⟨by omega, by omega⟩]
    congr 1
    omega
  · rw [if_neg he, if_neg]
    rintro ⟨h1, h2⟩
    apply he
    exact (Nat.div_eq_iff hc).mpr ⟨h1, by omega⟩

theorem getElem?_patch {rows : List (List α)} (h : Uniform columns rows) {i : Nat} (hc : 0 < columns) :
    ∀ (changed : List Nat) (cells : List α), (∀ row ∈ changed, row < rows.length) → i < cells.length →
      (patch columns rows cells changed)[i]? =
        if i / columns ∈ changed then cell? rows (i / columns) (i % columns) else cells[i]?
  | [], _, _, _ => by rw [if_neg (List.not_mem_nil)]; rfl
  | row :: changed, cells, hr, hi => by
    have ih := getElem?_patch h hc changed (patchRow columns rows cells row) (fun r hm => hr r (List.mem_cons_of_mem _ hm))
      (by rw [length_patchRow]; exact hi)
    rw [show patch columns rows cells (row :: changed) = patch columns rows (patchRow columns rows cells row) changed from rfl,
      ih, getElem?_patchRow h (hr row (List.mem_cons_self ..)) hi hc]
    by_cases hm : i / columns ∈ changed
    · rw [if_pos hm, if_pos (List.mem_cons_of_mem _ hm)]
    · rw [if_neg hm]
      by_cases he : i / columns = row
      · rw [if_pos he, if_pos (he ▸ List.mem_cons_self ..), he]
      · rw [if_neg he, if_neg (by rw [List.mem_cons]; exact fun hor => hor.elim he hm)]

theorem length_patch (rows : List (List α)) : ∀ (changed : List Nat) (cells : List α),
    (patch columns rows cells changed).length = cells.length
  | [], _ => rfl
  | _ :: changed, _ => (length_patch rows changed _).trans (length_patchRow ..)

/-- Writing the rows in which two grids differ turns the flat list of one into that of the other. -/
theorem patch_flatten {prev next : List (List α)} (hprev : Uniform columns prev) (hnext : Uniform columns next)
    (hlen : next.length = prev.length) {changed : List Nat} (hin : ∀ row ∈ changed, row < next.length)
    (hsame : ∀ row, row ∉ changed → next[row]? = prev[row]?) :
    patch columns next prev.flatten changed = next.flatten := by
  have hl : (patch columns next prev.flatten changed).length = next.length * columns := by
    rw [length_patch, hprev.length_flatten, hlen]
  apply List.ext_getElem?
  intro i
  by_cases hi : i < next.length * columns
  · have hc : 0 < columns := Nat.pos_of_ne_zero fun h0 => by rw [h0, Nat.mul_zero] at hi; omega
    rw [getElem?_patch hnext hc changed _ hin (by rw [hprev.length_flatten, ← hlen]; exact hi), hnext.getElem?_flatten hi,
      hprev.getElem?_flatten (hlen ▸ hi)]
    by_cases hm : i / columns ∈ changed
    · rw [if_pos hm]
    · rw [if_neg hm]
      unfold cell?
      rw [hsame _ hm]
  · rw [List.getElem?_eq_none (by omega), List.getElem?_eq_none (by rw [hnext.length_flatten]; omega)]

end Grid
