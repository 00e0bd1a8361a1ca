import Mathlib.Data.List.GetD
import Mathlib.Logic.Function.Iterate

/-!
# CRC-32

The checksum bit by bit, and with a table of 256 entries; they agree.
-/

namespace Crc32

/-- The reflected IEEE polynomial. -/
def polynomial : BitVec 32 := 0xedb88320

/-- Division of one bit. -/
def shift (v : BitVec 32) : BitVec 32 := (v >>> 1) ^^^ (if v.getLsbD 0 = true then polynomial else 0)

def update (v : BitVec 32) (b : UInt8) : BitVec 32 := shift^[8] (v ^^^ b.toBitVec.setWidth 32)

def checksum (data : List UInt8) : BitVec 32 := ~~~(data.foldl update 0xffffffff)

/-! ## With a table -/

def table : List (BitVec 32) := (List.range 256).map fun b => shift^[8] (BitVec.ofNat 32 b)

def updateByTable (v : BitVec 32) (b : UInt8) : BitVec 32 :=
  (v >>> 8) ^^^ table.getD ((v ^^^ b.toBitVec.setWidth 32) &&& 0xff).toNat 0

def checksumByTable (data : List UInt8) : BitVec 32 := (data.foldl updateByTable 0xffffffff) ^^^ 0xffffffff

/-! ## They agree -/

theorem shift_xor (a b : BitVec 32) : shift (a ^^^ b) = shift a ^^^ shift b := by
  unfold shift
  rw [BitVec.ushiftRight_xor_distrib, BitVec.getLsbD_xor]
  generalize a >>> 1 = x, b >>> 1 = y
  ext i hi
  cases a.getLsbD 0 <;> cases b.getLsbD 0 <;> simp [BitVec.getElem_xor] <;>
    cases x[i] <;> cases y[i] <;> cases polynomial[i] <;> rfl

theorem shift_iterate_xor (n : Nat) (a b : BitVec 32) : shift^[n] (a ^^^ b) = shift^[n] a ^^^ shift^[n] b := by
  induction n with
  | zero => rfl
  | succ n ih => rw [Function.iterate_succ_apply', Function.iterate_succ_apply', Function.iterate_succ_apply', ih, shift_xor]

/-- Low zeros are shifted out and nothing else happens. -/
theorem shift_iterate_zeros {n : Nat} {a : BitVec 32} (h : ∀ i < n, a.getLsbD i = false) : shift^[n] a = a >>> n := by
  induction n with
  | zero => simp
  | succ n ih =>
    rw [Function.iterate_succ_apply', ih fun i hi => h i (by omega)]
    have hbit : (a >>> n).getLsbD 0 = false := by
      rw [BitVec.getLsbD_ushiftRight]
      exact h n (by omega)
    unfold shift
    rw [hbit, BitVec.shiftRight_add]
    simp

theorem table_getD {n : Nat} (h : n < 256) : table.getD n 0 = shift^[8] (BitVec.ofNat 32 n) := by
  unfold table
  rw [List.getD_eq_getElem _ _ (by simpa using h), List.getElem_map, List.getElem_range]

theorem getLsbD_byte (i : Nat) : (0xff#32).getLsbD i = decide (i < 8) := by
  by_cases h : i < 8
  · have : i = 0 ∨ i = 1 ∨ i = 2 ∨ i = 3 ∨ i = 4 ∨ i = 5 ∨ i = 6 ∨ i = 7 := by omega
    rcases this with rfl | rfl | rfl | rfl | rfl | rfl | rfl | rfl <;> rfl
  · rw [decide_eq_false h, BitVec.getLsbD_ofNat]
    have : Nat.testBit 255 i = false := Nat.testBit_lt_two_pow (Nat.lt_of_lt_of_le (show 255 < 2 ^ 8 by decide)
      (Nat.pow_le_pow_right (by decide) (by omega)))
    rw [this, Bool.and_false]

theorem updateByTable_eq (v : BitVec 32) (b : UInt8) : updateByTable v b = update v b := by
  unfold updateByTable update
  generalize hx : v ^^^ b.toBitVec.setWidth 32 = x
  have hsplit : x = (x &&& ~~~0xff#32) ^^^ (x &&& 0xff#32) := by
    ext i hi
    simp only [BitVec.getElem_xor, BitVec.getElem_and, BitVec.getElem_not]
    cases x[i] <;> cases (0xff#32)[i] <;> rfl
  have hlow : (x &&& 0xff#32).toNat < 256 := by
    rw [BitVec.toNat_and]
    exact Nat.lt_of_le_of_lt Nat.and_le_right (by decide)
  have hhigh : (x &&& ~~~0xff#32) >>> 8 = v >>> 8 := by
    ext i hi
    rw [← hx]
    simp only [BitVec.getElem_ushiftRight, BitVec.getLsbD_and, BitVec.getLsbD_not, BitVec.getLsbD_xor, getLsbD_byte,
      BitVec.getLsbD_setWidth]
    by_cases h : 8 + i < 32
    · simp [h]
    · simp [BitVec.getLsbD_of_ge v (8 + i) (by omega), h]
  have hzeros : ∀ i < 8, (x &&& ~~~0xff#32).getLsbD i = false := by
    intro i hi
    rw [BitVec.getLsbD_and, BitVec.getLsbD_not, getLsbD_byte]
    simp [hi]
  calc v >>> 8 ^^^ table.getD (x &&& 0xff#32).toNat 0
      = (x &&& ~~~0xff#32) >>> 8 ^^^ shift^[8] (x &&& 0xff#32) := by
        rw [table_getD hlow, BitVec.ofNat_toNat, BitVec.setWidth_eq, hhigh]
    _ = shift^[8] x := by
        rw [← shift_iterate_zeros hzeros, ← shift_iterate_xor, ← hsplit]

theorem checksumByTable_eq (data : List UInt8) : checksumByTable data = checksum data := by
  have hfold : updateByTable = update := funext fun v => funext fun b => updateByTable_eq v b
  unfold checksumByTable checksum
  rw [hfold]
  exact BitVec.xor_allOnes

end Crc32
