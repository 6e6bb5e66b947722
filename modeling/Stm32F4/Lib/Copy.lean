import Mathlib.Logic.Function.Basic

/-! A copy loop within one memory.

`copyLoop dst src n mem` is the memory after `n` passes of `*dst++ = *src++`, in order:
the `i`-th pass stores what is then at `src i` to `dst i`. Where source and
destination overlap the order matters; a value that no pass overwrites before its own
arrives as it was (`copyLoop_apply`). -/
namespace Stm32F4.Lib

variable {A V : Type*} [DecidableEq A] (dst src : Nat → A) (mem : A → V)

def copyLoop : Nat → A → V
  | 0 => mem
  | n + 1 => Function.update (copyLoop n) (dst n) (copyLoop n (src n))

variable {dst src mem}

/-- What is no destination keeps its value. -/
theorem copyLoop_of_ne {n : Nat} {a : A} (h : ∀ i, i < n → a ≠ dst i) :
    copyLoop dst src mem n a = mem a := by
  induction n with
  | zero => rfl
  | succ n ih =>
    rw [copyLoop, Function.update_of_ne (h n (Nat.lt_succ_self n))]
    exact ih fun i hi => h i (Nat.lt_succ_of_lt hi)

/-- A destination ends up with the source's value, if the source is no destination itself. -/
theorem copyLoop_apply {n i : Nat} (hi : i < n) (hdst : ∀ j, j < n → dst i = dst j → i = j)
    (hsrc : ∀ j, j < n → src i ≠ dst j) : copyLoop dst src mem n (dst i) = mem (src i) := by
  induction n with
  | zero => exact absurd hi (Nat.not_lt_zero i)
  | succ n ih =>
    rw [copyLoop]
    by_cases heq : i = n
    · subst heq
      rw [Function.update_self]
      exact copyLoop_of_ne fun j hj => hsrc j (Nat.lt_succ_of_lt hj)
    · rw [Function.update_of_ne fun h => heq (hdst n (Nat.lt_succ_self n) h)]
      exact ih (by omega) (fun j hj => hdst j (Nat.lt_succ_of_lt hj))
        fun j hj => hsrc j (Nat.lt_succ_of_lt hj)

end Stm32F4.Lib
