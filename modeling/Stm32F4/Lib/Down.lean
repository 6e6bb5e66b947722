import Mathlib.Algebra.Order.Ring.Int
import Mathlib.Logic.Function.Iterate

/-! Down-counters.

A counter goes from `L` down to zero, and the next count reloads it. Two readings with at most
`L` counts between them tell how many there were: a smaller value is that many less, a greater one
has a reload in it, and the same value means none (`Down.reading`). -/
namespace Stm32F4.Lib

/-- A counter that reloads from `L`, and how often it has. -/
structure Down (L : Nat) where
  val : Nat
  reloads : Nat
  val_le : val ≤ L

namespace Down
variable {L : Nat}

def count (c : Down L) : Down L :=
  if c.val = 0 then ⟨L, c.reloads + 1, Nat.le_refl L⟩
  else ⟨c.val - 1, c.reloads, Nat.le_trans (Nat.sub_le _ _) c.val_le⟩

/-- After so many counts. -/
def after (c : Down L) (n : Nat) : Down L := count^[n] c

theorem after_zero (c : Down L) : c.after 0 = c := rfl

theorem after_succ (c : Down L) (n : Nat) : c.after (n + 1) = (c.after n).count :=
  Function.iterate_succ_apply' count n c

theorem after_add (c : Down L) (m n : Nat) : c.after (m + n) = (c.after m).after n := by
  rw [Nat.add_comm]
  exact Function.iterate_add_apply count n m c

theorem count_of_zero {c : Down L} (h : c.val = 0) :
    c.count.val = L ∧ c.count.reloads = c.reloads + 1 := by
  rw [count, if_pos h]
  exact ⟨rfl, rfl⟩

theorem count_of_pos {c : Down L} (h : c.val ≠ 0) :
    c.count.val = c.val - 1 ∧ c.count.reloads = c.reloads := by
  rw [count, if_neg h]
  exact ⟨rfl, rfl⟩

theorem le_reloads (c : Down L) (n : Nat) : c.reloads ≤ (c.after n).reloads := by
  induction n with
  | zero => exact Nat.le_refl _
  | succ n ih =>
    rw [after_succ]
    by_cases h : (c.after n).val = 0
    · rw [(count_of_zero h).2]
      omega
    · rw [(count_of_pos h).2]
      exact ih

/-- Down to zero there is no reload. -/
theorem after_of_le {c : Down L} {n : Nat} (h : n ≤ c.val) :
    (c.after n).val = c.val - n ∧ (c.after n).reloads = c.reloads := by
  induction n with
  | zero => exact ⟨rfl, rfl⟩
  | succ n ih =>
    obtain ⟨hval, hreloads⟩ := ih (Nat.le_of_succ_le h)
    obtain ⟨hval', hreloads'⟩ := count_of_pos (c := c.after n) (by omega)
    rw [after_succ]
    exact ⟨by omega, hreloads'.trans hreloads⟩

/-- From there on, for less than a period, there has been one. -/
theorem after_of_lt {c : Down L} {n : Nat} (h : c.val < n) (hn : n ≤ L) :
    (c.after n).val = L + 1 + c.val - n ∧ (c.after n).reloads = c.reloads + 1 := by
  obtain ⟨hval, hreloads⟩ := after_of_le (Nat.le_refl c.val)
  obtain ⟨hval', hreloads'⟩ := count_of_zero (c := c.after c.val) (by omega)
  obtain ⟨k, rfl⟩ := Nat.exists_eq_add_of_lt h
  rw [← after_succ] at hval' hreloads'
  obtain ⟨hval'', hreloads''⟩ := after_of_le (c := c.after (c.val + 1)) (n := k) (by omega)
  rw [Nat.add_right_comm, after_add]
  exact ⟨by omega, by omega⟩

/-- What two readings tell. -/
theorem reading (c : Down L) {n : Nat} (hn : n ≤ L) :
    (c.after n).val < c.val ∧ n = c.val - (c.after n).val ∧ (c.after n).reloads = c.reloads ∨
      c.val < (c.after n).val ∧ n = L - (c.after n).val + c.val + 1 ∧
        (c.after n).reloads = c.reloads + 1 ∨
      (c.after n).val = c.val ∧ n = 0 ∧ (c.after n).reloads = c.reloads := by
  have hle := c.val_le
  rcases Nat.lt_or_ge c.val n with hlt | hge
  · obtain ⟨hval, hreloads⟩ := after_of_lt hlt hn
    exact .inr (.inl ⟨by omega, by omega, hreloads⟩)
  · obtain ⟨hval, hreloads⟩ := after_of_le hge
    rcases Nat.eq_zero_or_pos n with hzero | hpos
    · exact .inr (.inr ⟨by omega, hzero, hreloads⟩)
    · exact .inl ⟨by omega, by omega, hreloads⟩

end Down

end Stm32F4.Lib
