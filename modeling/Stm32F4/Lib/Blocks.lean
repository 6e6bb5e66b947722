import Mathlib.Data.List.Basic
import Stm32F4.Lib.Cells

/-! A stream over blocks of one size.

The blocks lie anywhere in memory, the `i`-th of the stream at `addr i`, and the stream
runs through each from its start before it goes on to the next: `cell B addr j` is the
address of its `j`-th byte. Copying to the place where the stream has got to, within one block, is
appending to the stream (`stream_memcpy`); reading there is reading on
(`stream_read`). -/
namespace Stm32F4.Lib

variable {β : Type*}

/-! ### Arrays, continued -/

theorem firstCells_add (f : Nat → β) (a n : Nat) :
    firstCells f (a + n) = firstCells f a ++ firstCells (fun i => f (a + i)) n := by
  induction n with
  | zero => simp
  | succ n ih => rw [← Nat.add_assoc, firstCells_succ, ih, firstCells_succ, List.append_assoc]

/-- Cells are read block by block. -/
theorem firstCells_blocks (f : Nat → β) (B : Nat) {k n : Nat} (h : n ≤ k * B) :
    firstCells f n = (List.range k).flatMap fun i => firstCells (fun o => f (B * i + o))
      (min B (n - B * i)) := by
  induction k generalizing n with
  | zero =>
    obtain rfl : n = 0 := by omega
    rfl
  | succ k ih =>
    rw [List.range_succ, List.flatMap_append, List.flatMap_singleton]
    have hk : (k + 1) * B = k * B + B := Nat.succ_mul k B
    have hcomm : B * k = k * B := Nat.mul_comm B k
    by_cases hn : n ≤ k * B
    · rw [← ih hn, show min B (n - B * k) = 0 by omega, firstCells_zero, List.append_nil]
    · -- the first `k` blocks are full
      have hfull :
          (List.range k).flatMap (fun i =>
          firstCells (fun o => f (B * i + o)) (min B (n - B * i))) =
          firstCells f (k * B) := by
        rw [ih (Nat.le_refl (k * B))]
        refine List.flatMap_congr fun i hi => ?_
        have hi' : B * (i + 1) ≤ B * k := Nat.mul_le_mul_left B (List.mem_range.mp hi)
        rw [Nat.mul_succ] at hi'
        rw [show min B (n - B * i) = min B (k * B - B * i) by omega]
      rw [hfull, show n = k * B + (n - k * B) by omega, firstCells_add]
      congr 1
      rw [show min B (k * B + (n - k * B) - B * k) = n - k * B by omega]
      refine firstCells_congr fun o _ => ?_
      rw [hcomm]

/-! ### Blocks -/

variable (B : Nat) (addr : Nat → Nat)

/-- The address of the stream's `j`-th byte. -/
def cell (j : Nat) : Nat := addr (j / B) + j % B

/-- The first `n` blocks do not overlap. -/
def Separate (n : Nat) : Prop :=
  ∀ i j, i < n → j < n → i ≠ j → addr i + B ≤ addr j ∨ addr j + B ≤ addr i

/-- A copy of `n` bytes to `dst`; `src` is read from its start. -/
def memcpy (mem : Nat → β) (dst : Nat) (src : Nat → β) (n : Nat) : Nat → β :=
  fun a => if dst ≤ a ∧ a < dst + n then src (a - dst) else mem a

variable {B addr}

theorem cell_block {o : Nat} (i : Nat) (ho : o < B) : cell B addr (B * i + o) = addr i + o := by
  have hB : 0 < B := by omega
  rw [cell, Nat.mul_add_div hB, Nat.div_eq_of_lt ho, Nat.mul_add_mod, Nat.mod_eq_of_lt ho,
    Nat.add_zero]

theorem memcpy_of_not {mem src : Nat → β} {dst n a : Nat} (h : ¬ (dst ≤ a ∧ a < dst + n)) :
    memcpy mem dst src n a = mem a := if_neg h

theorem memcpy_apply {mem src : Nat → β} {dst n i : Nat} (h : i < n) :
    memcpy mem dst src n (dst + i) = src i := by
  rw [memcpy, if_pos ⟨Nat.le_add_right dst i, by omega⟩, Nat.add_sub_cancel_left]

/-- Copying right behind the cells that matter appends to them. -/
theorem firstCells_memcpy (mem src : Nat → β) (dst n : Nat) :
    firstCells (memcpy mem dst src n) (dst + n) = firstCells mem dst ++ firstCells src n := by
  rw [firstCells_add]
  congr 1
  · exact firstCells_congr fun i hi => memcpy_of_not (by omega)
  · exact firstCells_congr fun i hi => memcpy_apply hi

/-- Bytes of the stream before the place where it has got to are not in the rest of that
block. -/
theorem cell_before {n i o j k : Nat} (h : Separate B addr n) (hi : i < n) (hj : j < B * i + o)
    (hk : o + k ≤ B) :
    ¬ (addr i + o ≤ cell B addr j ∧ cell B addr j < addr i + o + k) := by
  rw [cell]
  by_cases hB : B = 0
  · omega
  have hmod : j % B < B := Nat.mod_lt j (by omega)
  have hdiv := Nat.div_add_mod j B
  by_cases heq : j / B = i
  · rw [heq] at hdiv ⊢
    omega
  · have hle : j / B ≤ i := by
      by_contra hgt
      have hmul : B * (i + 1) ≤ B * (j / B) := Nat.mul_le_mul_left B (by omega)
      rw [Nat.mul_succ] at hmul
      omega
    have hsep := h (j / B) i (by omega) hi heq
    omega

/-- Copying to the place where the stream has got to appends. -/
theorem stream_memcpy {n i o k : Nat} {mem src : Nat → β} {data : List β} (h : Separate B addr n)
    (hi : i < n) (hk : o + k ≤ B)
    (hdata : firstCells (fun j => mem (cell B addr j)) (B * i + o) = data) :
    firstCells (fun j => memcpy mem (addr i + o) src k (cell B addr j)) (B * i + o + k) =
      data ++ firstCells src k := by
  rw [firstCells_add, ← hdata]
  congr 1
  · refine firstCells_congr fun j hj => ?_
    exact memcpy_of_not (cell_before h hi hj hk)
  · refine firstCells_congr fun j hj => ?_
    show memcpy mem (addr i + o) src k (cell B addr (B * i + o + j)) = src j
    rw [Nat.add_assoc, cell_block i (by omega), ← Nat.add_assoc]
    exact memcpy_apply hj

/-- Reading there is reading on. -/
theorem stream_read {i o k : Nat} (mem : Nat → β) (hk : o + k ≤ B) :
    firstCells (fun j => mem (addr i + o + j)) k =
      firstCells (fun j => mem (cell B addr (B * i + o + j))) k := by
  refine firstCells_congr fun j hj => ?_
  rw [Nat.add_assoc (B * i), cell_block i (by omega), Nat.add_assoc]

/-- The stream's bytes, block by block. -/
theorem stream_blocks (mem : Nat → β) {k n : Nat} (h : n ≤ k * B) :
    firstCells (fun j => mem (cell B addr j)) n =
      (List.range k).flatMap fun i => firstCells (fun o => mem (addr i + o))
      (min B (n - B * i)) := by
  rw [firstCells_blocks _ B h]
  refine List.flatMap_congr fun i _ => firstCells_congr fun o ho => ?_
  rw [cell_block i (by omega)]

end Stm32F4.Lib
