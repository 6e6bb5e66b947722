import Mathlib.Algebra.Order.Ring.Int

/-! The search for the greatest element of an array.

A loop keeps the index of an element and replaces it whenever it meets one that compares greater. At
the end nothing exceeds what it has (`le_scan`). The comparison need not be an order on all of the
type: it is enough that it agrees with one on the elements of the array (`scan_congr`). -/
namespace Stm32F4.Lib
open Std

variable {α : Type*}

/-- The index kept after the elements `0` to `n`. -/
def scan (replaces : α → α → Bool) (xs : Nat → α) : Nat → Nat
  | 0 => 0
  | n + 1 =>
    let best := scan replaces xs n
    if replaces (xs (n + 1)) (xs best) then n + 1 else best

section Index
variable (replaces : α → α → Bool) (xs : Nat → α)

theorem scan_le (n : Nat) : scan replaces xs n ≤ n := by
  induction n with
  | zero => exact Nat.le_refl 0
  | succ n ih =>
    rw [scan]
    split
    · exact Nat.le_refl _
    · exact Nat.le_succ_of_le ih

theorem scan_congr {replaces' : α → α → Bool} {n : Nat}
    (h : ∀ i ≤ n, ∀ j ≤ n, replaces (xs i) (xs j) = replaces' (xs i) (xs j)) :
    scan replaces xs n = scan replaces' xs n := by
  induction n with
  | zero => rfl
  | succ n ih =>
    have hprev : scan replaces xs n = scan replaces' xs n :=
      ih fun i hi j hj => h i (Nat.le_succ_of_le hi) j (Nat.le_succ_of_le hj)
    have hlast :=
      h (n + 1) (Nat.le_refl _) (scan replaces' xs n) (Nat.le_succ_of_le (scan_le replaces' xs n))
    rw [scan, scan, hprev, hlast]

end Index

section Greatest
variable (cmp : α → α → Ordering) (xs : Nat → α)

/-- The loop for the greatest element. -/
abbrev greatest (n : Nat) : Nat := scan (fun x best => cmp x best == .gt) xs n

theorem greatest_succ_of_gt {n : Nat} (h : cmp (xs (n + 1)) (xs (greatest cmp xs n)) = .gt) :
    greatest cmp xs (n + 1) = n + 1 := if_pos (by simp [h])

theorem greatest_succ_of_isLE {n : Nat} (h : (cmp (xs (n + 1)) (xs (greatest cmp xs n))).isLE) :
    greatest cmp xs (n + 1) = greatest cmp xs n := by
  apply if_neg
  intro hgt
  rw [beq_iff_eq.mp hgt] at h
  contradiction

variable [TransCmp cmp]

/-- Nothing is greater than what is kept. -/
theorem le_scan (n : Nat) : ∀ j ≤ n, (cmp (xs j) (xs (greatest cmp xs n))).isLE := by
  induction n with
  | zero =>
    intro j hj
    obtain rfl : j = 0 := Nat.le_zero.mp hj
    exact ReflCmp.isLE_rfl
  | succ n ih =>
    intro j hj
    by_cases hle : (cmp (xs (n + 1)) (xs (greatest cmp xs n))).isLE
    · rw [greatest_succ_of_isLE cmp xs hle]
      rcases Nat.lt_or_eq_of_le hj with hlt | rfl
      · exact ih j (Nat.le_of_lt_succ hlt)
      · exact hle
    · have hlt := OrientedCmp.lt_of_not_isLE hle
      rw [greatest_succ_of_gt cmp xs (OrientedCmp.gt_of_lt hlt)]
      rcases Nat.lt_or_eq_of_le hj with hj | rfl
      · exact TransCmp.isLE_trans (ih j (Nat.le_of_lt_succ hj)) (by simp [hlt])
      · exact ReflCmp.isLE_rfl

end Greatest

end Stm32F4.Lib
