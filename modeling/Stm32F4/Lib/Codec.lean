import Mathlib.Logic.Function.Basic
import Stm32F4.Lib.Blocks

/-! Fields of a buffer.

A codec writes a value into a number of cells and reads it back, and it carries the proof that it
does. A field is a codec at a place: what is put there is what one gets (`get_put`), and
fields that do not overlap do not know of each other (`get_put_of_disjoint`). With places that are
numbers the side conditions are decidable, so the fields of a message are read off by `simp`. -/
namespace Stm32F4.Lib

/-- Values of type `α` in cells of type `β`. -/
structure Codec (β α : Type*) where
  size : Nat
  enc : α → Nat → β
  dec : (Nat → β) → α
  dec_enc : ∀ a, dec (enc a) = a
  dec_congr : ∀ f g, (∀ k, k < size → f k = g k) → dec f = dec g

namespace Codec
variable {β α γ : Type*} (c : Codec β α) (d : Codec β γ)

def put (b : Nat → β) (i : Nat) (a : α) : Nat → β := memcpy b i (c.enc a) c.size

def get (b : Nat → β) (i : Nat) : α := c.dec fun k => b (i + k)

variable {c d} {b b' : Nat → β} {i j : Nat} {a : α}

theorem get_congr (h : ∀ k, k < c.size → b (i + k) = b' (j + k)) : c.get b i = c.get b' j :=
  c.dec_congr _ _ h

@[simp] theorem get_put : c.get (c.put b i a) i = a := by
  have hread : c.get (c.put b i a) i = c.dec (c.enc a) :=
    c.dec_congr _ _ fun _ hk => memcpy_apply hk
  rw [hread, c.dec_enc]

theorem put_apply_of_not (h : ¬ (i ≤ j ∧ j < i + c.size)) : c.put b i a j = b j := memcpy_of_not h

theorem get_put_of_disjoint (h : i + c.size ≤ j ∨ j + d.size ≤ i) :
    d.get (c.put b i a) j = d.get b j := by
  apply get_congr
  intro k hk
  apply put_apply_of_not
  omega

end Codec

end Stm32F4.Lib
