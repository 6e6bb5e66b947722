import Mathlib.Algebra.Order.Ring.Int
import Mathlib.Logic.Function.Basic

/-! Words of two limbs.

A word `a ++ b` is computed with limb by limb. A sum carries out of the low limb exactly if that one
wraps (`append_add_append`). To subtract is to add the complement, and one more unless the low limb
takes up that one (`append_sub_append`). A shift to the right hands the lowest bit of the high limb
down (`append_sshiftRight_one`). Before that, words whose upper bits are out of use, as one has them
where a limb is computed in parts; after it, what the results are as integers. -/
namespace Stm32F4.Lib

/-! ### Fields of a word -/

section Fields
variable {w k : Nat}

theorem toNat_and_mask (x : BitVec w) (hk : k ≤ w) :
    (x &&& BitVec.ofNat w (2 ^ k - 1)).toNat = x.toNat % 2 ^ k := by
  have hpos : 0 < 2 ^ k := Nat.two_pow_pos k
  have hle : 2 ^ k ≤ 2 ^ w := Nat.pow_le_pow_right (by decide) hk
  rw [BitVec.toNat_and, BitVec.toNat_ofNat, Nat.mod_eq_of_lt (by omega),
    Nat.and_two_pow_sub_one_eq_mod]

/-- Two fields side by side. -/
theorem toNat_shiftLeft_or {hi lo : BitVec w} (hhi : hi.toNat * 2 ^ k < 2 ^ w)
    (hlo : lo.toNat < 2 ^ k) :
    (hi <<< k ||| lo).toNat = hi.toNat * 2 ^ k + lo.toNat := by
  rw [BitVec.toNat_or, BitVec.toNat_shiftLeft, Nat.shiftLeft_eq, Nat.mod_eq_of_lt hhi,
    ← Nat.shiftLeft_eq,
    ← Nat.shiftLeft_add_eq_or_of_lt hlo]

/-- Within its own bits a word has no sign. -/
theorem sshiftRight_and_mask (x : BitVec w) {s : Nat} (hk : s + k ≤ w) :
    x.sshiftRight s &&& BitVec.ofNat w (2 ^ k - 1) = (x >>> s) &&& BitVec.ofNat w (2 ^ k - 1) := by
  apply BitVec.eq_of_getLsbD_eq
  intro i hi
  rw [BitVec.getLsbD_and, BitVec.getLsbD_and, BitVec.getLsbD_ofNat, Nat.testBit_two_pow_sub_one]
  by_cases hik : i < k
  · rw [BitVec.getLsbD_sshiftRight, BitVec.getLsbD_ushiftRight, if_pos (by omega),
      decide_eq_false (by omega)]
    rfl
  · simp [hik]

theorem and_twoPow_ne_zero_iff {x : BitVec w} (hk : k < w) :
    x &&& BitVec.twoPow w k ≠ 0 ↔ x.getLsbD k = true := by
  rw [BitVec.and_twoPow]
  cases x.getLsbD k with
  | false => simp
  | true =>
    refine ⟨fun _ => rfl, fun _ hzero => ?_⟩
    have hpow := congrArg BitVec.toNat hzero
    rw [if_pos rfl, BitVec.toNat_twoPow_of_lt hk] at hpow
    exact absurd hpow (Nat.ne_of_gt (Nat.two_pow_pos k))

/-- The bit above `k` bits is the carry out of them. -/
theorem and_twoPow_ne_zero_iff_le {x : BitVec w} (hk : k < w) (hx : x.toNat < 2 ^ (k + 1)) :
    x &&& BitVec.twoPow w k ≠ 0 ↔ 2 ^ k ≤ x.toNat := by
  rw [Nat.pow_succ] at hx
  have hdiv : x.toNat / 2 ^ k < 2 := Nat.div_lt_of_lt_mul hx
  have hle := Nat.le_div_iff_mul_le (x := 1) (y := x.toNat) (Nat.two_pow_pos k)
  rw [Nat.one_mul] at hle
  rw [and_twoPow_ne_zero_iff hk, BitVec.getLsbD, Nat.testBit_eq_decide_div_mod_eq,
    decide_eq_true_iff, ← hle]
  generalize x.toNat / 2 ^ k = q at hdiv
  omega

/-- A shift keeps the sign. -/
theorem sshiftRight_or_twoPow {x : BitVec (w + 1)} (hx : x.getLsbD w = true) (s : Nat) :
    x.sshiftRight s ||| BitVec.twoPow (w + 1) w = x.sshiftRight s := by
  have hmsb : x.msb = true := by
    rw [BitVec.msb_eq_getLsbD_last]
    exact hx
  apply BitVec.eq_of_getLsbD_eq
  intro i hi
  rw [BitVec.getLsbD_or, BitVec.getLsbD_twoPow]
  by_cases hiw : i = w
  · subst hiw
    have htop : (x.sshiftRight s).getLsbD i = true := by
      rw [BitVec.getLsbD_sshiftRight, decide_eq_false (by omega), hmsb]
      split
      · obtain rfl : s = 0 := by omega
        rw [Nat.zero_add]
        exact hx
      · rfl
    rw [htop, Bool.true_or]
  · simp [Ne.symm hiw]

end Fields

/-! ### Two limbs -/

section Limbs
variable {v w : Nat}

theorem toNat_append_eq (a : BitVec v) (b : BitVec w) :
    (a ++ b).toNat = a.toNat * 2 ^ w + b.toNat := by
  rw [BitVec.toNat_append, ← Nat.shiftLeft_add_eq_or_of_lt b.isLt, Nat.shiftLeft_eq]

/-- The low limbs carry into the high ones. -/
theorem append_add_append (a c : BitVec v) (b d : BitVec w) :
    (a ++ b) + (c ++ d) = (if 2 ^ w ≤ b.toNat + d.toNat then a + c + 1 else a + c) ++ (b + d) := by
  have hcarry : (if 2 ^ w ≤ b.toNat + d.toNat then a + c + 1 else a + c).toNat =
      (a.toNat + c.toNat + (b.toNat + d.toNat) / 2 ^ w) % 2 ^ v := by
    have hb := b.isLt
    have hd := d.isLt
    split
    · next hle =>
      have hdiv : (b.toNat + d.toNat) / 2 ^ w = 1 := Nat.div_eq_of_lt_le (by omega) (by omega)
      rw [hdiv, BitVec.toNat_add, BitVec.toNat_add,
        show (1 : BitVec v).toNat = 1 % 2 ^ v from rfl, Nat.mod_add_mod, Nat.add_mod_mod]
    · next hlt => rw [Nat.div_eq_of_lt (by omega), BitVec.toNat_add, Nat.add_zero]
  apply BitVec.eq_of_toNat_eq
  rw [BitVec.toNat_add, toNat_append_eq, toNat_append_eq, toNat_append_eq, hcarry, BitVec.toNat_add,
    show a.toNat * 2 ^ w + b.toNat + (c.toNat * 2 ^ w + d.toNat) =
      b.toNat + d.toNat + 2 ^ w * (a.toNat + c.toNat) by
        rw [Nat.mul_add, Nat.mul_comm _ a.toNat, Nat.mul_comm _ c.toNat]
        omega,
    Nat.pow_add, Nat.mul_comm (2 ^ v), Nat.mod_mul, Nat.add_mul_mod_self_left,
    Nat.add_mul_div_left _ _ (Nat.two_pow_pos w), Nat.add_comm, Nat.mul_comm (2 ^ w),
      Nat.add_comm (_ / _)]

/-- The complement of a word is that of its high limb, and of the low one with the one that is to
be added, which gets to the high limb only if the low one is zero. -/
theorem neg_append (a : BitVec v) (b : BitVec w) :
    -(a ++ b) = if b = 0 then -a ++ b else ~~~a ++ -b := by
  rw [← BitVec.zero_sub]
  refine (BitVec.eq_sub_iff_add_eq.mpr ?_).symm
  by_cases hb : b = 0
  · subst hb
    have hcarry : ¬ 2 ^ w ≤ (0 : BitVec w).toNat + (0 : BitVec w).toNat := by
      rw [show (0 : BitVec w).toNat = 0 from Nat.zero_mod _]
      have := Nat.two_pow_pos w
      omega
    rw [if_pos rfl, append_add_append, if_neg hcarry, BitVec.add_left_neg]
    exact (congrArg (0#v ++ ·) (BitVec.add_zero 0#w)).trans BitVec.zero_append_zero
  · have hpos : b.toNat ≠ 0 :=
      fun hzero => hb (BitVec.eq_of_toNat_eq (hzero.trans (Nat.zero_mod _).symm))
    have hcarry : 2 ^ w ≤ (-b).toNat + b.toNat := by
      have hlt := b.isLt
      rw [BitVec.toNat_neg, Nat.mod_eq_of_lt (by omega)]
      omega
    have hone : a + (~~~a + 1) = 0#v := by
      rw [show ~~~a + 1 = -a from (BitVec.neg_eq_not_add a).symm, BitVec.add_right_neg]
    rw [if_neg hb, append_add_append, if_pos hcarry, BitVec.add_comm (~~~a), BitVec.add_assoc, hone,
      BitVec.add_left_neg]
    exact BitVec.zero_append_zero

/-- Subtracting adds the complement. -/
theorem append_sub_append (a c : BitVec v) (b d : BitVec w) :
    (a ++ b) - (c ++ d) =
      if d = 0 then (a - c) ++ b
      else (if 2 ^ w ≤ b.toNat + (-d).toNat then a + ~~~c + 1 else a + ~~~c) ++ (b + -d) := by
  rw [BitVec.sub_eq_add_neg, neg_append]
  by_cases hd : d = 0
  · subst hd
    have hcarry : ¬ 2 ^ w ≤ b.toNat + (0 : BitVec w).toNat := by
      rw [show (0 : BitVec w).toNat = 0 from Nat.zero_mod _]
      exact Nat.not_le_of_lt b.isLt
    rw [if_pos rfl, if_pos rfl, append_add_append, if_neg hcarry, BitVec.sub_eq_add_neg]
    exact congrArg ((a + -c) ++ ·) (BitVec.add_zero b)
  · rw [if_neg hd, if_neg hd, append_add_append]

theorem append_sshiftRight_one (a : BitVec (v + 1)) (b : BitVec (w + 1)) :
    (a ++ b).sshiftRight 1 =
      a.sshiftRight 1 ++
        (if a.getLsbD 0 then b >>> 1 ||| BitVec.twoPow (w + 1) w else b >>> 1) := by
  apply BitVec.eq_of_getLsbD_eq
  intro i hi
  have hlow : (if a.getLsbD 0 then b >>> 1 ||| BitVec.twoPow (w + 1) w else b >>> 1).getLsbD i =
      (b.getLsbD (1 + i) || a.getLsbD 0 && decide (i = w)) := by
    cases a.getLsbD 0 <;> simp [BitVec.getLsbD_twoPow, eq_comm]
  simp only [BitVec.getLsbD_sshiftRight, BitVec.getLsbD_append, BitVec.msb_append, hlow]
  rcases Nat.lt_trichotomy i w with hlt | rfl | hgt
  · -- within the low limb
    have hnext : 1 + i < w + 1 := by omega
    have hin : 1 + i < v + 1 + (w + 1) := by omega
    simp [hnext, hin, Nat.lt_succ_of_lt hlt, Nat.ne_of_lt hlt, Nat.not_le_of_lt hi]
  · -- its highest bit
    rw [if_pos (by omega), if_pos (Nat.lt_succ_self i), if_neg (by omega), Nat.add_comm 1 i,
      BitVec.getLsbD_of_ge b _ (Nat.le_refl _), Nat.sub_self]
    simp [Nat.not_le_of_lt hi]
  · -- within the high limb
    rw [if_neg (show ¬ i < w + 1 by omega), if_neg (show ¬ 1 + i < w + 1 by omega),
      show 1 + i - (w + 1) = 1 + (i - (w + 1)) by omega]
    grind

end Limbs

/-! ### As integers -/

section Signed
variable {w : Nat}

/-- Numbers without a sign are subtracted, and the difference has one. -/
theorem toInt_sub_eq (x y : BitVec w) :
    (x - y).toInt = ((x.toNat : Int) - y.toNat).bmod (2 ^ w) := by
  rw [BitVec.toInt_sub, BitVec.toInt_eq_toNat_bmod, BitVec.toInt_eq_toNat_bmod, ← Int.sub_bmod]

/-- It is the true difference if that fits. -/
theorem toInt_sub_of_fits {x y : BitVec w} (hlo : -2 ^ w ≤ 2 * ((x.toNat : Int) - y.toNat))
    (hhi : 2 * ((x.toNat : Int) - y.toNat) < 2 ^ w) : (x - y).toInt = x.toNat - y.toNat := by
  rw [toInt_sub_eq]
  apply Int.bmod_eq_of_le_mul_two
  · push_cast
    omega
  · push_cast
    omega

/-- The sum of two halves, each rounded down, never wraps. -/
theorem toInt_halves (hw : 2 ≤ w) (x y : BitVec w) :
    (x.sshiftRight 1 + y.sshiftRight 1).toInt = x.toInt / 2 + y.toInt / 2 := by
  obtain ⟨u, rfl⟩ := Nat.exists_eq_add_of_le' hw
  have hx := BitVec.le_two_mul_toInt (x := x)
  have hx' := BitVec.two_mul_toInt_lt (x := x)
  have hy := BitVec.le_two_mul_toInt (x := y)
  have hy' := BitVec.two_mul_toInt_lt (x := y)
  have hhalf : ∀ z : BitVec (u + 2), (z.sshiftRight 1).toInt = z.toInt / 2 := by
    intro z
    rw [BitVec.toInt_sshiftRight, Int.shiftRight_eq_div_pow]
    rfl
  rw [Int.pow_add] at hx hx' hy hy'
  rw [BitVec.toInt_add, hhalf, hhalf, Nat.pow_add]
  apply Int.bmod_eq_of_le_mul_two
  · push_cast
    omega
  · push_cast
    omega

end Signed

end Stm32F4.Lib
