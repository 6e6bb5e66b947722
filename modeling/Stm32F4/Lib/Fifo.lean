import Mathlib.Logic.Function.Basic
import Mathlib.Data.List.Basic
import Stm32F4.Lib.Cells

/-! A queue in a ring of slots.

Values lie in `n` slots from `get` on, `count` of them, and go round at the end. Read in this order
they are a list (`contents`), to which `push` appends while there is room (`push_eq`) and from which
`pop` takes the head (`pop_eq`). `pushOver` makes room by dropping the head (`pushOver_eq`). A `pop`
whose last act, the store of the count, comes after other pushes drops these
(`popInterrupted_eq`). -/
namespace Stm32F4.Lib

structure Fifo (α : Type*) where
  slots : Nat → α
  get : Nat
  put : Nat
  count : Nat

namespace Fifo
variable {α : Type*} (n : Nat)

def clear (r : Fifo α) : Fifo α := { r with get := 0, put := 0, count := 0 }

/-- The ring, and whether there was room. -/
def push (r : Fifo α) (a : α) : Fifo α × Bool :=
  if r.count ≥ n then (r, false)
  else
    ({ r with
      slots := Function.update r.slots r.put a, put := (r.put + 1) % n
      count := r.count + 1 }, true)

def pop (r : Fifo α) : Fifo α × Option α :=
  if r.count = 0 then (r, none)
  else ({ r with get := (r.get + 1) % n, count := r.count - 1 }, some (r.slots r.get))

/-- The oldest value goes if there is no room. -/
def pushOver (r : Fifo α) (a : α) : Fifo α := (push n (if r.count < n then r else (pop n r).1) a).1

/-- `pop`, with pushes between the load of the count and its store. -/
def popInterrupted (r : Fifo α) (as : List α) : Fifo α × Option α :=
  if r.count = 0 then (r, none)
  else
    let s := as.foldl (fun r a => (push n r a).1) { r with get := (r.get + 1) % n }
    ({ s with count := r.count - 1 }, some (r.slots r.get))

/-- The values in the ring, the next one first. -/
def contents (r : Fifo α) : List α := firstCells (fun i => r.slots ((r.get + i) % n)) r.count

structure Valid (r : Fifo α) : Prop where
  get_lt : r.get < n
  count_le : r.count ≤ n
  put_eq : r.put = (r.get + r.count) % n

variable {n} {r : Fifo α} {a : α}

theorem length_contents : (contents n r).length = r.count := length_firstCells ..

theorem valid_clear (hn : 0 < n) (r : Fifo α) : Valid n r.clear where
  get_lt := hn
  count_le := Nat.zero_le n
  put_eq := (Nat.zero_mod n).symm

@[simp] theorem contents_clear (r : Fifo α) : contents n r.clear = [] := rfl

/-- No two of the `n` places are one slot. -/
theorem slot_ne {g i j : Nat} (hi : i < j) (hj : j < n) : (g + i) % n ≠ (g + j) % n := by
  intro h
  have hmod : (g + j - (g + i)) % n = 0 := Nat.sub_mod_eq_zero_of_mod_eq h.symm
  have hdiff : g + j - (g + i) = j - i := by omega
  rw [hdiff, Nat.mod_eq_of_lt (by omega)] at hmod
  omega

theorem push_of_full (h : n ≤ r.count) : push n r a = (r, false) := if_pos h

theorem push_of_room (h : Valid n r) (hroom : r.count < n) :
    (push n r a).2 = true ∧ Valid n (push n r a).1 ∧
      contents n (push n r a).1 = contents n r ++ [a] := by
  rw [push, if_neg (Nat.not_le.mpr hroom)]
  refine ⟨rfl, ⟨h.get_lt, hroom, ?_⟩, ?_⟩
  · show (r.put + 1) % n = (r.get + (r.count + 1)) % n
    rw [h.put_eq, Nat.mod_add_mod, Nat.add_assoc]
  · show firstCells (fun i => Function.update r.slots r.put a ((r.get + i) % n)) (r.count + 1) = _
    rw [firstCells_succ, ← h.put_eq, Function.update_self]
    congr 1
    apply firstCells_congr
    intro i hi
    have hne : (r.get + i) % n ≠ r.put := by
      rw [h.put_eq]
      exact slot_ne hi hroom
    exact Function.update_of_ne hne ..

theorem pop_of_empty (h : r.count = 0) : pop n r = (r, none) ∧ contents n r = [] := by
  constructor
  · exact if_pos h
  · rw [contents, h, firstCells_zero]

theorem pop_of_pos (h : Valid n r) (hpos : 0 < r.count) :
    ∃ a, (pop n r).2 = some a ∧ Valid n (pop n r).1 ∧
    contents n r = a :: contents n (pop n r).1 := by
  rw [pop, if_neg (Nat.ne_of_gt hpos)]
  have hn : 0 < n := Nat.lt_of_le_of_lt (Nat.zero_le _) h.get_lt
  refine ⟨r.slots r.get, rfl, ⟨Nat.mod_lt _ hn, Nat.le_trans (Nat.sub_le ..) h.count_le, ?_⟩, ?_⟩
  · show r.put = ((r.get + 1) % n + (r.count - 1)) % n
    rw [h.put_eq, Nat.mod_add_mod]
    congr 1
    omega
  · obtain ⟨k, hk⟩ : ∃ k, r.count = k + 1 := ⟨r.count - 1, by omega⟩
    show firstCells (fun i => r.slots ((r.get + i) % n)) r.count =
      r.slots r.get :: firstCells (fun i => r.slots (((r.get + 1) % n + i) % n)) (r.count - 1)
    rw [hk, Nat.add_sub_cancel]
    have hcons : firstCells (fun i => r.slots ((r.get + i) % n)) (k + 1) =
        r.slots ((r.get + 0) % n) :: firstCells (fun i => r.slots ((r.get + (i + 1)) % n)) k := by
      simp only [firstCells, List.range_succ_eq_map, List.map_cons, List.map_map]
      rfl
    rw [hcons, Nat.add_zero, Nat.mod_eq_of_lt h.get_lt]
    congr 1
    apply firstCells_congr
    intro i _
    rw [Nat.mod_add_mod]
    congr 2
    omega

/-! ### As a list -/

/-- What the ring is for: a list with room for `n` values. -/
theorem push_eq (h : Valid n r) :
    Valid n (push n r a).1 ∧ (push n r a).2 = decide ((contents n r).length < n) ∧
    contents n (push n r a).1 =
      if (contents n r).length < n then contents n r ++ [a] else contents n r := by
  rw [length_contents]
  by_cases hroom : r.count < n
  · obtain ⟨hok, hv, hc⟩ := push_of_room (a := a) h hroom
    rw [if_pos hroom]
    exact ⟨hv, by rw [hok, decide_eq_true hroom], hc⟩
  · rw [push_of_full (Nat.not_lt.mp hroom), if_neg hroom]
    exact ⟨h, by rw [decide_eq_false hroom], rfl⟩

theorem pop_eq (h : Valid n r) : Valid n (pop n r).1 ∧ (pop n r).2 = (contents n r).head? ∧
    contents n (pop n r).1 = (contents n r).tail := by
  rcases Nat.eq_zero_or_pos r.count with hzero | hpos
  · obtain ⟨hpop, hc⟩ := pop_of_empty (n := n) hzero
    rw [hpop, hc]
    exact ⟨h, rfl, rfl⟩
  · obtain ⟨a, hok, hv, hc⟩ := pop_of_pos h hpos
    rw [hok, hc]
    exact ⟨hv, rfl, rfl⟩

theorem pushOver_eq (h : Valid n r) : Valid n (pushOver n r a) ∧ contents n (pushOver n r a) =
    (if (contents n r).length < n then contents n r else (contents n r).tail) ++ [a] := by
  rw [length_contents, pushOver]
  by_cases hroom : r.count < n
  · obtain ⟨-, hv, hc⟩ := push_of_room (a := a) h hroom
    rw [if_pos hroom, if_pos hroom]
    exact ⟨hv, hc⟩
  · obtain ⟨hv, -, hc⟩ := pop_eq h
    have hpos : 0 < r.count :=
      Nat.lt_of_lt_of_le (Nat.lt_of_le_of_lt (Nat.zero_le _) h.get_lt) (Nat.not_lt.mp hroom)
    have hlt : (pop n r).1.count < n := by
      rw [← length_contents (n := n), hc, List.length_tail, length_contents]
      have := h.count_le
      omega
    obtain ⟨-, hv, hc'⟩ := push_of_room (a := a) hv hlt
    rw [if_neg hroom, if_neg hroom, ← hc]
    exact ⟨hv, hc'⟩

/-! ### Interrupted -/

/-- Pushes move `put` on by the values there was room for, and write the slots it passes. -/
theorem foldl_push {r : Fifo α} (hcount : r.count ≤ n) (hput : r.put < n) (as : List α) :
    ∃ k, r.count + k ≤ n ∧ (k = 0 ↔ as = [] ∨ r.count = n) ∧
      (as.foldl (fun r a => (push n r a).1) r).get = r.get ∧
      (as.foldl (fun r a => (push n r a).1) r).put = (r.put + k) % n ∧
      ∀ j, (∀ i < k, (r.put + i) % n ≠ j) →
        (as.foldl (fun r a => (push n r a).1) r).slots j = r.slots j := by
  induction as generalizing r with
  | nil => exact ⟨0, hcount, by simp, rfl, (Nat.mod_eq_of_lt hput).symm, fun _ _ => rfl⟩
  | cons a as ih =>
    rw [List.foldl_cons]
    by_cases hfull : n ≤ r.count
    · rw [push_of_full hfull]
      obtain ⟨k, hk, -, hrest⟩ := ih hcount hput
      have hzero : k = 0 := by omega
      refine ⟨k, hk, ?_, hrest⟩
      simp [hzero, Nat.le_antisymm hcount hfull]
    · have hroom : r.count < n := Nat.not_le.mp hfull
      have hpush : (push n r a).1 =
          { slots := Function.update r.slots r.put a, get := r.get, put := (r.put + 1) % n,
            count := r.count + 1 } := by
        rw [push, if_neg hfull]
      rw [hpush]
      obtain ⟨k, hk, -, hget, hput', hslots⟩ :=
        ih (r := ⟨Function.update r.slots r.put a, r.get, (r.put + 1) % n, r.count + 1⟩) hroom
          (Nat.mod_lt _ (Nat.zero_lt_of_lt hput))
      refine ⟨k + 1, by simp only at hk; omega, ?_, hget, ?_, fun j hj => ?_⟩
      · simp [Nat.ne_of_lt hroom]
      · rw [hput', Nat.mod_add_mod, Nat.add_assoc, Nat.add_comm 1 k]
      · have hne : j ≠ r.put := by
          have hfirst := hj 0 (Nat.succ_pos k)
          rw [Nat.add_zero, Nat.mod_eq_of_lt hput] at hfirst
          exact hfirst.symm
        have hlater : ∀ i < k, ((r.put + 1) % n + i) % n ≠ j := by
          intro i hi
          have hnext := hj (i + 1) (Nat.succ_lt_succ hi)
          rwa [Nat.mod_add_mod, Nat.add_assoc, Nat.add_comm 1 i]
        exact (hslots j hlater).trans (Function.update_of_ne hne ..)

/-- The head is taken and the values that came in between are not there: `put` has passed them,
unless there were none or they found no room. -/
theorem popInterrupted_eq (h : Valid n r) (hpos : 0 < r.count) (as : List α) :
    (popInterrupted n r as).2 = (contents n r).head? ∧
      contents n (popInterrupted n r as).1 = (contents n r).tail ∧
      (Valid n (popInterrupted n r as).1 ↔ as = [] ∨ r.count = n) := by
  have hn : 0 < n := Nat.zero_lt_of_lt h.get_lt
  have hput : r.put < n := by
    rw [h.put_eq]
    exact Nat.mod_lt _ hn
  obtain ⟨k, hk, hzero, hget, hput', hslots⟩ :=
    foldl_push (r := { r with get := (r.get + 1) % n }) h.count_le hput as
  obtain ⟨hvalid, hhead, htail⟩ := pop_eq h
  rw [pop, if_neg (Nat.ne_of_gt hpos)] at hvalid hhead htail
  rw [popInterrupted, if_neg (Nat.ne_of_gt hpos)]
  simp only at hk hzero hget hput' hslots ⊢
  generalize as.foldl (fun r a => (push n r a).1) { r with get := (r.get + 1) % n } = s at *
  refine ⟨hhead, ?_, ?_⟩
  · -- The slots that were written are behind those that are read.
    rw [← htail]
    show firstCells (fun i => s.slots ((s.get + i) % n)) (r.count - 1) = _
    rw [hget]
    apply firstCells_congr
    intro i hi
    refine hslots _ fun j hj => ?_
    rw [h.put_eq, Nat.mod_add_mod, Nat.mod_add_mod, Nat.add_assoc, Nat.add_assoc]
    exact (slot_ne (by omega) (by omega)).symm
  · rw [← hzero]
    constructor
    · intro hv
      have hsame : (r.put + 0) % n = (r.put + k) % n := by
        rw [Nat.add_zero, Nat.mod_eq_of_lt hput, ← hput', hv.put_eq, hvalid.put_eq, hget]
      by_contra hne
      exact slot_ne (Nat.pos_of_ne_zero hne) (by omega) hsame
    · intro hnone
      refine ⟨hget ▸ hvalid.get_lt, hvalid.count_le, ?_⟩
      show s.put = (s.get + (r.count - 1)) % n
      rw [hput', hnone, Nat.add_zero, Nat.mod_eq_of_lt hput, hget]
      exact hvalid.put_eq

/-! ### The slots in use -/

theorem mem_contents {x : α} : x ∈ contents n r ↔ ∃ k < r.count, r.slots ((r.get + k) % n) = x := by
  simp [contents, firstCells]

theorem contents_map (slots : Nat → α) {f : α → α}
    (h : ∀ k < r.count, slots ((r.get + k) % n) = f (r.slots ((r.get + k) % n))) :
    contents n { r with slots := slots } = (contents n r).map f := by
  rw [contents, contents, firstCells, firstCells, List.map_map]
  exact List.map_congr_left fun k hk => h k (List.mem_range.mp hk)

/-- A ring from the first slot on, or a full one, is in the first slots. -/
theorem used_iff (h : Valid n r) (hplace : r.get = 0 ∨ r.count = n) {j : Nat} :
    (∃ k < r.count, (r.get + k) % n = j) ↔ j < r.count := by
  have hget := h.get_lt
  have hle := h.count_le
  constructor
  · rintro ⟨k, hk, rfl⟩
    rcases hplace with hzero | hfull
    · rw [hzero, Nat.zero_add, Nat.mod_eq_of_lt (Nat.lt_of_lt_of_le hk hle)]
      exact hk
    · rw [hfull]
      exact Nat.mod_lt _ (Nat.zero_lt_of_lt hget)
  · intro hj
    rcases hplace with hzero | hfull
    · exact ⟨j, hj, by rw [hzero, Nat.zero_add, Nat.mod_eq_of_lt (Nat.lt_of_lt_of_le hj hle)]⟩
    · have hn : 0 < n := Nat.zero_lt_of_lt hget
      refine ⟨(j + n - r.get) % n, by rw [hfull]; exact Nat.mod_lt _ hn, ?_⟩
      rw [Nat.add_mod_mod]
      have hsum : r.get + (j + n - r.get) = j + n := by omega
      rw [hsum, Nat.add_mod_right, Nat.mod_eq_of_lt (hfull ▸ hj)]

end Fifo

end Stm32F4.Lib
