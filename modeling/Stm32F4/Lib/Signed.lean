import Mathlib.Algebra.Order.Ring.Int

/-! Signed words as integers.

The value of a word of `w` bits is a number that fits them (`FitsIn`), and an operation on words
is the one on integers as long as its result fits. Division truncates: quotient and
remainder have the sign of the dividend, and of all pairs that sum up to it they are the one
with a small remainder of that sign (`Splits.eq`). -/
namespace Stm32F4.Lib

/-! ### Values that fit -/

section FitsIn
variable {w : Nat}

/-- A number that `w` bits with a sign have room for. -/
def FitsIn (w : Nat) (v : Int) : Prop := -(2 ^ w : Int) ≤ 2 * v ∧ 2 * v < 2 ^ w

instance (v : Int) : Decidable (FitsIn w v) := inferInstanceAs (Decidable (_ ∧ _))

theorem fitsIn_toInt (x : BitVec w) : FitsIn w x.toInt :=
  ⟨by simpa using BitVec.le_two_mul_toInt (x := x), by simpa using BitVec.two_mul_toInt_lt (x := x)⟩

theorem FitsIn.bmod {v : Int} (h : FitsIn w v) : v.bmod (2 ^ w) = v := by
  have hcast : ((2 ^ w : Nat) : Int) = 2 ^ w := Nat.cast_pow 2 w
  apply Int.bmod_eq_of_le_mul_two
  · have := h.1
    omega
  · have := h.2
    omega

theorem toInt_ofInt_of_fitsIn {v : Int} (h : FitsIn w v) : (BitVec.ofInt w v).toInt = v := by
  rw [BitVec.toInt_ofInt, h.bmod]

variable {x y : BitVec w}

theorem toInt_add_of_fitsIn (h : FitsIn w (x.toInt + y.toInt)) :
    (x + y).toInt = x.toInt + y.toInt := by
  rw [BitVec.toInt_add, h.bmod]

theorem toInt_sub_of_fitsIn (h : FitsIn w (x.toInt - y.toInt)) :
    (x - y).toInt = x.toInt - y.toInt := by
  rw [BitVec.toInt_sub, h.bmod]

theorem toInt_mul_of_fitsIn (h : FitsIn w (x.toInt * y.toInt)) :
    (x * y).toInt = x.toInt * y.toInt := by
  rw [BitVec.toInt_mul, h.bmod]

theorem toInt_neg_of_fitsIn (h : FitsIn w (-x.toInt)) : (-x).toInt = -x.toInt := by
  rw [BitVec.toInt_neg, h.bmod]

theorem toInt_sdiv_of_fitsIn (h : FitsIn w (x.toInt.tdiv y.toInt)) :
    (x.sdiv y).toInt = x.toInt.tdiv y.toInt := by
  rw [BitVec.toInt_sdiv, h.bmod]

theorem toInt_shiftLeft_of_fitsIn {n : Nat} (h : FitsIn w (x.toInt * 2 ^ n)) :
    (x <<< n).toInt = x.toInt * 2 ^ n := by
  rw [← h.bmod, BitVec.toInt_shiftLeft, BitVec.toInt_eq_toNat_bmod, Int.bmod_mul_bmod,
    Nat.shiftLeft_eq]
  push_cast
  rfl

theorem toInt_setWidth_of_fitsIn {v : Nat} (x : BitVec w) (hv : v ≤ w) (h : FitsIn v x.toInt) :
    (x.setWidth v).toInt = x.toInt := by
  rw [← BitVec.signExtend_eq_setWidth_of_le x hv, BitVec.toInt_signExtend_eq_toInt_bmod_of_le x hv,
    h.bmod]

end FitsIn

/-! ### Truncating division -/

/-- `a` is `q` times `B` and a remainder `r` of the same sign. -/
structure Splits (B a q r : Int) : Prop where
  eq_add : a = q * B + r
  lower : -B < r
  upper : r < B
  of_nonneg : 0 ≤ a → 0 ≤ r
  of_nonpos : a ≤ 0 → r ≤ 0

section Splits
variable {B a q r : Int}

theorem splits_tdiv (hB : 0 < B) (a : Int) : Splits B a (a.tdiv B) (a.tmod B) where
  eq_add := (Int.tdiv_mul_add_tmod a B).symm
  lower := Int.lt_tmod_of_pos a hB
  upper := Int.tmod_lt_of_pos a hB
  of_nonneg := fun h => Int.tmod_nonneg B h
  of_nonpos := fun h => by
    have hneg := Int.tmod_nonneg (a := -a) B (by omega)
    rw [Int.neg_tmod] at hneg
    omega

theorem Splits.eq (h : Splits B a q r) : a.tdiv B = q ∧ a.tmod B = r := by
  have hB : 0 < B := by
    have := h.lower
    have := h.upper
    omega
  have ht := splits_tdiv hB a
  have hsum : (a.tdiv B - q) * B = r - a.tmod B := by
    have := ht.eq_add
    have := h.eq_add
    rw [Int.sub_mul]
    omega
  -- Two remainders of one sign are less than `B` apart.
  have hlt : -B < (a.tdiv B - q) * B ∧ (a.tdiv B - q) * B < B := by
    have := ht.lower
    have := ht.upper
    have := h.lower
    have := h.upper
    rw [hsum]
    rcases Int.le_total 0 a with h0 | h0
    · have := ht.of_nonneg h0
      have := h.of_nonneg h0
      omega
    · have := ht.of_nonpos h0
      have := h.of_nonpos h0
      omega
  have hq : a.tdiv B - q = 0 := by
    have hlow : -1 < a.tdiv B - q := by
      apply Int.lt_of_mul_lt_mul_right (a := B) _ (Int.le_of_lt hB)
      omega
    have hup : a.tdiv B - q < 1 := by
      apply Int.lt_of_mul_lt_mul_right (a := B) _ (Int.le_of_lt hB)
      omega
    omega
  rw [hq, Int.zero_mul] at hsum
  exact ⟨by omega, by omega⟩

theorem Splits.neg {B a q r : Int} (h : Splits B a q r) : Splits B (-a) (-q) (-r) := by
  obtain ⟨hsum, hlow, hup, hpos, hneg⟩ := h
  constructor
  · rw [Int.neg_mul]
    omega
  all_goals omega
end Splits

end Stm32F4.Lib
