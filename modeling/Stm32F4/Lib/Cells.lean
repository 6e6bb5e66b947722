import Mathlib.Logic.Function.Basic

/-! The first cells of an array.

An array is a function from indices to values, so that a store outside the
intended length is a store like any other and can be talked about. `firstCells
f n` reads the cells `0, …, n - 1` in order. -/
namespace Stm32F4.Lib

variable {β : Type*}

/-- The first `n` cells of an array, in order. -/
def firstCells (f : Nat → β) (n : Nat) : List β := (List.range n).map f

@[simp] theorem length_firstCells (f : Nat → β) (n : Nat) : (firstCells f n).length = n := by
  simp [firstCells]

@[simp] theorem firstCells_zero (f : Nat → β) : firstCells f 0 = [] := rfl

theorem firstCells_succ (f : Nat → β) (n : Nat) :
    firstCells f (n + 1) = firstCells f n ++ [f n] := by
  simp [firstCells, List.range_succ]

/-- Only the cells below `n` matter. -/
theorem firstCells_congr {f g : Nat → β} {n : Nat} (h : ∀ i, i < n → f i = g i) :
    firstCells f n = firstCells g n :=
  List.map_congr_left fun i hi => h i (List.mem_range.mp hi)

/-- Reading the same cells is agreeing on them. -/
theorem firstCells_eq_iff {f g : Nat → β} {n : Nat} :
    firstCells f n = firstCells g n ↔ ∀ i, i < n → f i = g i := by
  refine ⟨fun h i hi => ?_, firstCells_congr⟩
  exact List.map_inj_left.mp h i (List.mem_range.mpr hi)

/-- A store at or above `n` leaves the first `n` cells alone. -/
theorem firstCells_update_of_le (f : Nat → β) {n i : Nat} (b : β) (h : n ≤ i) :
    firstCells (Function.update f i b) n = firstCells f n :=
  firstCells_congr fun j hj => Function.update_of_ne (by omega) b f

/-- Storing at `n` appends to the first `n` cells. -/
theorem firstCells_update_self (f : Nat → β) (n : Nat) (b : β) :
    firstCells (Function.update f n b) (n + 1) = firstCells f n ++ [b] := by
  rw [firstCells_succ, firstCells_update_of_le f b (Nat.le_refl n), Function.update_self]

/-- A loop that works on each of the first `n` cells once. -/
theorem foldl_update_range (g : Nat → β → β) (f : Nat → β) (n : Nat) :
    (List.range n).foldl (fun f i => Function.update f i (g i (f i))) f =
      fun i => if i < n then g i (f i) else f i := by
  induction n with
  | zero => rfl
  | succ n ih =>
    rw [List.range_succ, List.foldl_append, ih]
    funext i
    by_cases hi : i = n
    · subst hi
      simp
    · have hlt : i < n ↔ i < n + 1 := by omega
      simp [Function.update_of_ne hi, hlt]

end Stm32F4.Lib
