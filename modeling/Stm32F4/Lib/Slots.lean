import Mathlib.Logic.Function.Basic
import Mathlib.Data.List.Basic

/-! Tables of slots with keys.

Values are kept in `n` slots by their keys, and a slot with the key `empty` is free. A value goes to
the slot that has its key already, else to the first free one, else to the `victim`
(`slotFor`). So no key gets a second slot (`Distinct.put`) whatever the victims are, and a key is
lost only from a full table that does not have the new one (`stays`). That the value is in
the table needs a victim that is in it (`slotFor_lt_iff`). -/
namespace Stm32F4.Lib

variable {κ α : Type*} [DecidableEq κ] (n : Nat) (key : α → κ) (empty : κ)

/-- The first slot with the key `k`. -/
def lookup (t : Nat → α) (k : κ) : Option Nat := (List.range n).find? fun i => key (t i) = k

/-- The slot for the key `k`. -/
def slotFor (t : Nat → α) (k : κ) (victim : Nat) : Nat :=
  (lookup n key t k).getD ((lookup n key t empty).getD victim)

def put (t : Nat → α) (v : α) (victim : Nat) : Nat → α :=
  Function.update t (slotFor n key empty t (key v) victim) v

/-- Some slot has the key `k`. -/
def Has (t : Nat → α) (k : κ) : Prop := ∃ i, i < n ∧ key (t i) = k

/-- No key has two slots. -/
def Distinct (t : Nat → α) : Prop :=
  ∀ i j, i < n → j < n → key (t i) = key (t j) → key (t i) ≠ empty → i = j

instance (t : Nat → α) (k : κ) : Decidable (Has n key t k) :=
  inferInstanceAs (Decidable (∃ i, i < n ∧ _))

variable {n key empty} {t : Nat → α} {k : κ} {v : α} {i victim : Nat}

theorem lookup_some (h : lookup n key t k = some i) : i < n ∧ key (t i) = k := by
  obtain ⟨hkey, hmem, -⟩ := List.find?_range_eq_some.mp h
  exact ⟨List.mem_range.mp hmem, of_decide_eq_true hkey⟩

theorem lookup_none_iff : lookup n key t k = none ↔ ¬ Has n key t k := by
  rw [lookup, List.find?_eq_none]
  constructor
  · rintro h ⟨i, hi, hkey⟩
    exact h i (List.mem_range.mpr hi) (decide_eq_true hkey)
  · intro h i hi hkey
    exact h ⟨i, List.mem_range.mp hi, of_decide_eq_true hkey⟩

theorem lookup_of_has (h : Has n key t k) : ∃ i, lookup n key t k = some i := by
  cases hl : lookup n key t k with
  | none => exact absurd h (lookup_none_iff.mp hl)
  | some i => exact ⟨i, rfl⟩

/-! ### Where a value goes -/

theorem slotFor_of_has (h : Has n key t k) :
    slotFor n key empty t k victim < n ∧ key (t (slotFor n key empty t k victim)) = k := by
  obtain ⟨i, hl⟩ := lookup_of_has h
  rw [slotFor, hl]
  exact lookup_some hl

theorem slotFor_of_free (h : ¬ Has n key t k) (hfree : Has n key t empty) :
    slotFor n key empty t k victim < n ∧ key (t (slotFor n key empty t k victim)) = empty := by
  obtain ⟨i, hl⟩ := lookup_of_has hfree
  rw [slotFor, lookup_none_iff.mpr h, hl]
  exact lookup_some hl

theorem slotFor_of_full (h : ¬ Has n key t k) (hfull : ¬ Has n key t empty) :
    slotFor n key empty t k victim = victim := by
  rw [slotFor, lookup_none_iff.mpr h, lookup_none_iff.mpr hfull]
  rfl

/-- It goes to the table unless it has to go to a victim that is not in it. -/
theorem slotFor_lt_iff :
    slotFor n key empty t k victim < n ↔ Has n key t k ∨ Has n key t empty ∨ victim < n := by
  by_cases h : Has n key t k
  · exact iff_of_true (slotFor_of_has h).1 (.inl h)
  by_cases hfree : Has n key t empty
  · exact iff_of_true (slotFor_of_free h hfree).1 (.inr (.inl hfree))
  rw [slotFor_of_full h hfree]
  tauto

/-! ### The table after that -/

theorem put_self : put n key empty t v victim (slotFor n key empty t (key v) victim) = v :=
  Function.update_self ..

theorem put_of_ne (h : i ≠ slotFor n key empty t (key v) victim) :
    put n key empty t v victim i = t i :=
  Function.update_of_ne h ..

/-- A key has a slot of its own, whoever has had to go for it. -/
theorem Distinct.put (h : Distinct n key empty t) (hv : key v ≠ empty) (victim : Nat) :
    Distinct n key empty (put n key empty t v victim) := by
  have hother : ∀ j, j < n → j ≠ slotFor n key empty t (key v) victim → key (t j) ≠ key v := by
    intro j hj hne heq
    have hslot : slotFor n key empty t (key v) victim < n ∧
        key (t (slotFor n key empty t (key v) victim)) = key v :=
      slotFor_of_has ⟨j, hj, heq⟩
    exact hne (h j _ hj hslot.1 (heq.trans hslot.2.symm) (by rw [heq]; exact hv))
  intro i j hi hj heq hne
  by_cases hi' : i = slotFor n key empty t (key v) victim
  · by_cases hj' : j = slotFor n key empty t (key v) victim
    · exact hi'.trans hj'.symm
    · rw [hi', put_self, put_of_ne hj'] at heq
      exact absurd heq.symm (hother j hj hj')
  · rw [put_of_ne hi'] at heq hne
    by_cases hj' : j = slotFor n key empty t (key v) victim
    · rw [hj', put_self] at heq
      exact absurd heq (hother i hi hi')
    · rw [put_of_ne hj'] at heq
      exact h i j hi hj heq hne

/-- No key is lost if the new one is there already or there is a slot for it. -/
theorem stays (hroom : Has n key t (key v) ∨ Has n key t empty) (hi : i < n)
    (hne : key (t i) ≠ empty) :
    Has n key (put n key empty t v victim) (key (t i)) := by
  by_cases hslot : i = slotFor n key empty t (key v) victim
  · by_cases h : Has n key t (key v)
    · refine ⟨i, hi, ?_⟩
      rw [hslot, put_self]
      exact (slotFor_of_has h).2.symm
    · have hkey : key (t (slotFor n key empty t (key v) victim)) = empty :=
        (slotFor_of_free h (hroom.resolve_left h)).2
      rw [← hslot] at hkey
      exact absurd hkey hne
  · exact ⟨i, hi, by rw [put_of_ne hslot]⟩

end Stm32F4.Lib
