import Stm32F4.Lib.Copy
import Stm32F4.Lib.Layout

/-! The block allocator of `malloc.c`.

There are three pools. A pool is cut into blocks of `memblksize` bytes, and its
table has a `uint32_t` for each of them: zero for a free block, and for the blocks of an
allocation how many they are. Nothing marks where an allocation starts.

The functions are written for one pool, `memx` says which. A table is a function on all
cells, also on those behind its end: they stand for whatever memory follows, so
that a store outside the table is a store like any other. Cells hold machine words;
indices and counts are natural numbers, which none of them outgrows. -/
namespace Stm32F4.Memory
open Lib

/-! ### Pools -/

/-- `memx`: the internal pool, the external one and the one in CCM. -/
inductive Bank where
  | sramin | sramex | sramccm
deriving DecidableEq, Repr

namespace Bank

def memblksize : Bank → Nat
  | .sramin => 64
  | .sramex => 64
  | .sramccm => 64

def memsize : Bank → Nat
  | .sramin => 64 * 1024
  | .sramex => 1 * 1024
  | .sramccm => 1 * 1024

def memtblsize (memx : Bank) : Nat := memx.memsize / memx.memblksize

variable (memx : Bank)

theorem memblksize_eq : memx.memblksize = 64 := by cases memx <;> rfl

theorem memtblsize_mul : memx.memtblsize * 64 = memx.memsize := by cases memx <;> rfl

theorem memsize_le : memx.memsize ≤ 65536 := by cases memx <;> decide

end Bank

structure Pool where
  memrdy : Bool
  memmap : Nat → BitVec 32
  /-- the bytes of the address space, the tables apart -/
  mem : BitVec 32 → UInt8

namespace Pool

/-- No allocation holds the block. -/
def free (p : Pool) (c : Nat) : Bool := p.memmap c == 0

def withMem (p : Pool) (mem : BitVec 32 → UInt8) : Pool := { p with mem := mem }

/-- A pool before `my_mem_init`, with what the memory happens to hold. -/
def unset : Pool where
  memrdy := false
  memmap := fun _ => 7
  mem := fun _ => 0

end Pool

/-! ### Offsets -/

/-- What `my_mem_malloc` returns when it fails. -/
def noOffset : BitVec 32 := 0xFFFFFFFF

def myMemInit (memx : Bank) (p : Pool) : Pool :=
  { p with memmap := setCells 0 p.memmap (cellsFrom 0 memx.memtblsize), memrdy := true }

/-- How many blocks `size` bytes take. -/
def nmemb (memx : Bank) (size : BitVec 32) : Nat :=
  let nmemb := size.toNat / memx.memblksize
  if size.toNat % memx.memblksize ≠ 0 then nmemb + 1 else nmemb

def myMemMalloc (memx : Bank) (size : BitVec 32) (p : Pool) : BitVec 32 × Pool :=
  let p := if p.memrdy then p else myMemInit memx p
  if size = 0 then (noOffset, p)
  else
    let nmemb := nmemb memx size
    match searchDown p.free nmemb memx.memtblsize 0 with
    | some offset =>
      (BitVec.ofNat 32 (offset * memx.memblksize),
        { p with memmap := setCells (BitVec.ofNat 32 nmemb) p.memmap (cellsFrom offset nmemb) })
    | none => (noOffset, p)

/-- The number of blocks read from the table is an `int`, and a negative one clears nothing. -/
def myMemFree (memx : Bank) (offset : BitVec 32) (p : Pool) : BitVec 8 × Pool :=
  if p.memrdy then
    if offset.toNat < memx.memsize then
      let index := offset.toNat / memx.memblksize
      let nmemb := (p.memmap index).toInt
      (0, { p with memmap := setCells 0 p.memmap (cellsFrom index nmemb.toNat) })
    else (2, p)
  else (1, myMemInit memx p)

/-- Every cell that `my_mem_free` stores to in a pool that is ready, in order. -/
def cleared (memx : Bank) (offset : BitVec 32) (p : Pool) : List Nat :=
  if offset.toNat < memx.memsize then
    let index := offset.toNat / memx.memblksize
    cellsFrom index (p.memmap index).toInt.toNat
  else []

/-! ### Pointers -/

/-- Where the linker puts `mem1base`. No object starts at address zero or goes past the
last address. -/
structure Linked where
  mem1base : BitVec 32
  ne_null : mem1base ≠ 0
  fits : mem1base.toNat + Bank.sramin.memsize ≤ 2 ^ 32

def Linked.membase (L : Linked) : Bank → BitVec 32
  | .sramin => L.mem1base
  | .sramex => 0xC01F4000
  | .sramccm => 0x10000000

def null : BitVec 32 := 0

def mymemcpy (des src n : BitVec 32) (mem : BitVec 32 → UInt8) : BitVec 32 → UInt8 :=
  copyLoop (des + BitVec.ofNat 32 ·) (src + BitVec.ofNat 32 ·) mem n.toNat

/-- The addresses `mymemcpy` reads, in order. -/
def mymemcpyReads (src n : BitVec 32) : List (BitVec 32) :=
  (List.range n.toNat).map (src + BitVec.ofNat 32 ·)

def mymalloc (L : Linked) (memx : Bank) (size : BitVec 32) (p : Pool) : BitVec 32 × Pool :=
  let (offset, p) := myMemMalloc memx size p
  if offset = noOffset then (null, p) else (L.membase memx + offset, p)

def myfree (L : Linked) (memx : Bank) (ptr : BitVec 32) (p : Pool) : Pool :=
  if ptr = null then p else (myMemFree memx (ptr - L.membase memx) p).2

def myrealloc (L : Linked) (memx : Bank) (ptr size : BitVec 32) (p : Pool) : BitVec 32 × Pool :=
  let (offset, p) := myMemMalloc memx size p
  if offset = noOffset then (null, p)
  else
    let p := p.withMem (mymemcpy (L.membase memx + offset) ptr size p.mem)
    let p := myfree L memx ptr p
    (L.membase memx + offset, p)

/-- The addresses `myrealloc` reads. -/
def myreallocReads (memx : Bank) (ptr size : BitVec 32) (p : Pool) : List (BitVec 32) :=
  if (myMemMalloc memx size p).1 = noOffset then [] else mymemcpyReads ptr size

/-! ### What a call does -/

variable {memx : Bank} {p : Pool}

theorem nmemb_eq (memx : Bank) (size : BitVec 32) : nmemb memx size = (size.toNat + 63) / 64 := by
  simp only [nmemb, memx.memblksize_eq]
  split <;> omega

theorem nmemb_pos (memx : Bank) {size : BitVec 32} (h : size ≠ 0) : 0 < nmemb memx size := by
  have hsize : size.toNat ≠ 0 := fun h0 => h (BitVec.eq_of_toNat_eq h0)
  rw [nmemb_eq]
  omega

/-- An offset inside a pool fits a machine word. -/
theorem toNat_offset {n : Nat} (h : n < memx.memsize) : (BitVec.ofNat 32 n).toNat = n := by
  have hle := memx.memsize_le
  rw [BitVec.toNat_ofNat]
  exact Nat.mod_eq_of_lt (by omega)

/-- It is not the failure value. -/
theorem ofNat_ne_noOffset {n : Nat} (h : n < memx.memsize) : BitVec.ofNat 32 n ≠ noOffset := by
  have hle := memx.memsize_le
  intro heq
  have hn := congrArg BitVec.toNat heq
  rw [toNat_offset h, show noOffset.toNat = 4294967295 from rfl] at hn
  omega

/-- The two things `my_mem_malloc` can do in a pool that is ready: fail and change nothing, when
there is nothing to allocate or no room for it, or take the highest room there is. -/
theorem myMemMalloc_cases (memx : Bank) (h : p.memrdy = true) (size : BitVec 32) :
    ((size = 0 ∨ ¬ HasRun p.free memx.memtblsize (nmemb memx size)) ∧
        myMemMalloc memx size p = (noOffset, p)) ∨
      ∃ i, size ≠ 0 ∧ IsGreatest (runs p.free memx.memtblsize (nmemb memx size)) i ∧
        myMemMalloc memx size p = (BitVec.ofNat 32 (i * 64), { p with
          memmap :=
          fun c => if (Span.mk i (nmemb memx size)).Owns c then BitVec.ofNat 32 (nmemb memx size)
            else p.memmap c }) := by
  simp only [myMemMalloc, if_pos h, memx.memblksize_eq]
  by_cases hsize : size = 0
  · rw [if_pos hsize]
    exact .inl ⟨.inl hsize, rfl⟩
  · have hpos := nmemb_pos memx hsize
    rw [if_neg hsize]
    cases hs : searchDown p.free (nmemb memx size) memx.memtblsize 0 with
    | none => exact .inl ⟨.inr ((searchDown_eq_none_iff hpos).mp hs), rfl⟩
    | some i =>
      refine .inr ⟨i, hsize, (searchDown_eq_some_iff hpos i).mp hs, ?_⟩
      refine congrArg (fun m => (BitVec.ofNat 32 (i * 64), ({ p with memmap := m } : Pool))) ?_
      funext c
      rw [setCells_apply]
      exact if_congr mem_cellsFrom rfl rfl

/-- A pool that is ready stays so. -/
theorem memrdy_myMemMalloc (h : p.memrdy = true) (size : BitVec 32) :
    (myMemMalloc memx size p).2.memrdy = true := by
  rcases myMemMalloc_cases memx h size with ⟨-, hr⟩ | ⟨i, -, -, hr⟩ <;> rw [hr] <;> exact h

/-- What `my_mem_free` does in a pool that is ready. -/
theorem myMemFree_ready (h : p.memrdy = true) (offset : BitVec 32) :
    (myMemFree memx offset p).2 =
      { p with memmap := setCells 0 p.memmap (cleared memx offset p) } := by
  rw [myMemFree, if_pos h, cleared]
  by_cases hin : offset.toNat < memx.memsize
  · rw [if_pos hin, if_pos hin]
  · rw [if_neg hin, if_neg hin]
    rfl

end Stm32F4.Memory
