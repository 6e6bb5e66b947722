import Stm32F4.Lib.Run
import Stm32F4.Memory.Malloc

/-! Allocations and the table.

A `Heap` is a pool together with what its table forgets: the allocations that have
not been freed, each with the offset it was given and the size it was asked for. A run
is a sequence of `my_mem_malloc` and `my_mem_free` calls from `my_mem_init` on.

The invariant says that the table is the one a layout of these allocations asks for
(`Describes`). An allocation places a block in the layout and a `free` of its offset takes it out
(`describes_malloc`, `describes_free`); any other offset had better not reach a
block, for `my_mem_free` takes the number it finds there as if a block started at that
cell (`spares_iff`). -/
namespace Stm32F4.Memory
open Lib

/-- An allocation: what `my_mem_malloc` returned and what it was asked for. -/
structure Block where
  offset : BitVec 32
  size : BitVec 32
deriving DecidableEq, Repr

/-- The cells of the table it takes. -/
def Block.span (memx : Bank) (b : Block) : Span :=
  ⟨b.offset.toNat / memx.memblksize, nmemb memx b.size⟩

/-- The bytes it takes. -/
def Block.length (memx : Bank) (b : Block) : Nat := nmemb memx b.size * memx.memblksize

structure Heap where
  pool : Pool
  live : List Block

inductive Op where
  | malloc (size : BitVec 32)
  | free (offset : BitVec 32)
deriving DecidableEq, Repr

namespace Heap
variable (memx : Bank)

def malloc (size : BitVec 32) (h : Heap) : Heap :=
  let r := myMemMalloc memx size h.pool
  { pool := r.2, live := if r.1 = noOffset then h.live else ⟨r.1, size⟩ :: h.live }

/-- An allocation that starts at the offset is no longer live. -/
def free (offset : BitVec 32) (h : Heap) : Heap :=
  { pool := (myMemFree memx offset h.pool).2, live := h.live.filter (·.offset ≠ offset) }

def step (h : Heap) : Op → Heap
  | .malloc size => h.malloc memx size
  | .free offset => h.free memx offset

/-- The pool right after `my_mem_init`. -/
def init (p : Pool) : Heap := { pool := myMemInit memx p, live := [] }

def run (p : Pool) (ops : List Op) : Heap := ops.foldl (step memx) (init memx p)

/-- The offset is one that was returned and has not been freed. -/
def Legit (h : Heap) : Op → Prop
  | .malloc _ => True
  | .free offset => ∃ b ∈ h.live, b.offset = offset

/-- The offset is outside the pool, or an allocation starts there, or its cell is in no
allocation. -/
def Harmless (h : Heap) (offset : BitVec 32) : Prop :=
  memx.memsize ≤ offset.toNat ∨ (∃ b ∈ h.live, b.offset = offset) ∨
    ∀ b ∈ h.live, ¬ (b.span memx).Owns (offset.toNat / memx.memblksize)

/-- Every `free` is of such an offset. -/
def Careful (h : Heap) : Op → Prop
  | .malloc _ => True
  | .free offset => h.Harmless memx offset

instance (h : Heap) (offset : BitVec 32) : Decidable (h.Harmless memx offset) :=
  inferInstanceAs (Decidable (_ ∨ _ ∨ _))

instance (h : Heap) : (op : Op) → Decidable (Legit h op)
  | .malloc _ => inferInstanceAs (Decidable True)
  | .free _ => inferInstanceAs (Decidable (∃ b ∈ h.live, _))

instance (h : Heap) : (op : Op) → Decidable (Careful memx h op)
  | .malloc _ => inferInstanceAs (Decidable True)
  | .free offset => inferInstanceAs (Decidable (h.Harmless memx offset))

/-! ### The invariant -/

/-- The table is the one the layout of the live allocations asks for. -/
structure Describes (h : Heap) (L : Layout memx.memtblsize) : Prop where
  ready : h.pool.memrdy = true
  spans : L.spans = h.live.map (Block.span memx)
  aligned : ∀ b ∈ h.live, b.offset.toNat = (b.span memx).start * 64
  cell : ∀ c, c < memx.memtblsize → h.pool.memmap c = BitVec.ofNat 32 (L.cell c)

variable {memx} {h : Heap} {L : Layout memx.memtblsize}

theorem describes_init (p : Pool) : (init memx p).Describes memx (Layout.empty _) where
  ready := rfl
  spans := rfl
  aligned := fun _ hb => by cases hb
  cell := fun c hc => by
    show setCells 0 p.memmap _ c = _
    rw [setCells_apply, if_pos (mem_cellsFrom.mpr ⟨Nat.zero_le c, by omega⟩)]
    rfl

namespace Describes

theorem mem_spans (hd : h.Describes memx L) {b : Block} (hb : b ∈ h.live) :
    b.span memx ∈ L.spans := by
  rw [hd.spans]
  exact List.mem_map_of_mem hb

/-- A cell of the table holds a small number. -/
theorem cell_lt (L : Layout memx.memtblsize) (c : Nat) : L.cell c < 2 ^ 31 := by
  have hle := L.cell_le c
  have hmul := memx.memtblsize_mul
  have hsize := memx.memsize_le
  omega

/-- A cell is free exactly when the layout says so. -/
theorem free_iff (hd : h.Describes memx L) {c : Nat} (hc : c < memx.memtblsize) :
    h.pool.free c = true ↔ L.cell c = 0 := by
  have hlt := cell_lt L c
  rw [Pool.free, hd.cell c hc, beq_iff_eq]
  constructor
  · intro h0
    have hn := congrArg BitVec.toNat h0
    rw [BitVec.toNat_ofNat] at hn
    exact (Nat.mod_eq_of_lt (by omega)).symm.trans hn
  · intro h0
    rw [h0]
    rfl

/-- The count `my_mem_free` reads at a cell. -/
theorem count (hd : h.Describes memx L) {c : Nat} (hc : c < memx.memtblsize) :
    (h.pool.memmap c).toInt.toNat = L.cell c := by
  have hlt := cell_lt L c
  have hnat : (BitVec.ofNat 32 (L.cell c)).toNat = L.cell c := by
    rw [BitVec.toNat_ofNat]
    exact Nat.mod_eq_of_lt (by omega)
  rw [hd.cell c hc, BitVec.toInt_eq_toNat_of_lt (by omega), hnat, Int.toNat_natCast]

/-- An offset in the pool has its cell in the table. -/
theorem index_lt {offset : BitVec 32} (ho : offset.toNat < memx.memsize) :
    offset.toNat / memx.memblksize < memx.memtblsize := by
  have hmul := memx.memtblsize_mul
  rw [memx.memblksize_eq]
  omega

/-- A live allocation starts inside the pool. -/
theorem offset_lt (hd : h.Describes memx L) {b : Block} (hb : b ∈ h.live) :
    b.offset.toNat < memx.memsize := by
  have hpos := L.pos _ (hd.mem_spans hb)
  have hin := L.inside _ (hd.mem_spans hb)
  have hmul := memx.memtblsize_mul
  rw [hd.aligned b hb]
  omega

/-- Two live allocations at one offset are the same block of cells. -/
theorem span_eq_iff (hd : h.Describes memx L) {b b' : Block} (hb : b ∈ h.live) (hb' : b' ∈ h.live) :
    b.span memx = b'.span memx ↔ b.offset = b'.offset := by
  constructor
  · intro hs
    exact BitVec.eq_of_toNat_eq (by rw [hd.aligned b hb, hd.aligned b' hb', hs])
  · intro ho
    have hstart : (b.span memx).start = (b'.span memx).start := by simp only [Block.span, ho]
    refine L.owner_unique (hd.mem_spans hb) (hd.mem_spans hb')
      (Span.owns_start (L.pos _ (hd.mem_spans hb))) ?_
    rw [hstart]
    exact Span.owns_start (L.pos _ (hd.mem_spans hb'))

/-- The blocks of the table that `my_mem_free` clears: as many as the cell it lands in says. -/
theorem cleared_eq (hd : h.Describes memx L) (offset : BitVec 32) : cleared memx offset h.pool =
    if offset.toNat < memx.memsize then
      cellsFrom (offset.toNat / memx.memblksize) (L.cell (offset.toNat / memx.memblksize))
    else [] := by
  rw [cleared]
  by_cases ho : offset.toNat < memx.memsize
  · rw [if_pos ho, if_pos ho]
    exact congrArg (cellsFrom _) (hd.count (index_lt ho))
  · rw [if_neg ho, if_neg ho]

/-- For a live offset that is the whole allocation. -/
theorem cleared_live (hd : h.Describes memx L) {b : Block} (hb : b ∈ h.live) :
    cleared memx b.offset h.pool = cellsFrom (b.span memx).start (b.span memx).len := by
  have hs := hd.mem_spans hb
  rw [hd.cleared_eq, if_pos (hd.offset_lt hb)]
  exact congrArg (cellsFrom _) (L.cell_of_owns hs (Span.owns_start (L.pos _ hs)))

/-- For a cell that is free it is nothing. -/
theorem cleared_free (hd : h.Describes memx L) {offset : BitVec 32}
    (ho : memx.memsize ≤ offset.toNat ∨
    ∀ b ∈ h.live, ¬ (b.span memx).Owns (offset.toNat / memx.memblksize)) :
    cleared memx offset h.pool = [] := by
  rw [hd.cleared_eq]
  by_cases hin : offset.toNat < memx.memsize
  · have hfree : ∀ s ∈ L.spans, ¬ s.Owns (offset.toNat / memx.memblksize) := by
      rw [hd.spans]
      exact List.forall_mem_map.mpr (ho.resolve_left (by omega))
    rw [if_pos hin, L.cell_of_free hfree]
    rfl
  · rw [if_neg hin]

end Describes

/-! ### The calls keep it -/

/-- A successful `my_mem_malloc` places one block, on the highest free run. -/
theorem describes_malloc (hd : h.Describes memx L) (size : BitVec 32) :
    ∃ L', (h.malloc memx size).Describes memx L' := by
  rcases myMemMalloc_cases memx hd.ready size with ⟨-, hr⟩ | ⟨i, hsize, hi, hr⟩
  · refine ⟨L, ?_⟩
    rw [malloc, hr]
    exact hd
  · obtain ⟨hin, hrun⟩ := hi.1
    have hmul := memx.memtblsize_mul
    have hpos := nmemb_pos memx hsize
    have hi64 : i * 64 < memx.memsize := by omega
    have hoff := toNat_offset hi64
    have hspan : Block.span memx ⟨BitVec.ofNat 32 (i * 64), size⟩ = ⟨i, nmemb memx size⟩ := by
      rw [Block.span, hoff, memx.memblksize_eq, Nat.mul_div_cancel i (by decide)]
    have hfree : ∀ c, (Span.mk i (nmemb memx size)).Owns c → L.cell c = 0 := by
      rintro c ⟨hc, hc'⟩
      obtain ⟨j, rfl⟩ := Nat.exists_eq_add_of_le hc
      have hj : j < nmemb memx size := Nat.lt_of_add_lt_add_left hc'
      exact (hd.free_iff (Nat.lt_of_lt_of_le hc' hin)).mp (hrun j hj)
    refine ⟨L.place ⟨i, nmemb memx size⟩ hpos hin hfree, ?_⟩
    rw [malloc, hr, if_neg (ofNat_ne_noOffset hi64)]
    refine ⟨hd.ready, ?_, List.forall_mem_cons.mpr ⟨?_, hd.aligned⟩, fun c hc => ?_⟩
    · rw [List.map_cons, hspan, ← hd.spans]
      rfl
    · rw [hspan, hoff]
    · rw [Layout.cell_place]
      show (if _ then _ else _) = _
      rw [hd.cell c hc, apply_ite (BitVec.ofNat 32)]

/-- Freeing a live offset takes its block out of the table and nothing else. -/
theorem memmap_free (hd : h.Describes memx L) {b : Block} (hb : b ∈ h.live) (c : Nat) :
    (h.free memx b.offset).pool.memmap c = if (b.span memx).Owns c then 0 else h.pool.memmap c := by
  show (myMemFree memx b.offset h.pool).2.memmap c = _
  rw [myMemFree_ready hd.ready]
  show setCells 0 h.pool.memmap _ c = _
  rw [setCells_apply, hd.cleared_live hb]
  exact if_congr mem_cellsFrom rfl rfl

theorem describes_free_live (hd : h.Describes memx L) {b : Block} (hb : b ∈ h.live) :
    (h.free memx b.offset).Describes memx (L.release (b.span memx)) where
  ready := by
    show (myMemFree memx b.offset h.pool).2.memrdy = true
    rw [myMemFree_ready hd.ready]
    exact hd.ready
  spans := by
    show L.spans.filter _ = (h.live.filter _).map _
    rw [hd.spans, List.filter_map]
    refine congrArg (List.map _) (List.filter_congr fun b' hb' => ?_)
    simp only [Function.comp_apply, ne_eq, decide_not, hd.span_eq_iff hb' hb]
  aligned := fun b' hb' => hd.aligned b' (List.mem_filter.mp hb').1
  cell := fun c hc => by
    rw [memmap_free hd hb, Layout.cell_release (hd.mem_spans hb), hd.cell c hc,
      apply_ite (BitVec.ofNat 32)]
    rfl

/-- Freeing an offset that reaches no allocation does nothing. -/
theorem free_eq (hd : h.Describes memx L) {offset : BitVec 32} (ho : memx.memsize ≤ offset.toNat ∨
    ∀ b ∈ h.live, ¬ (b.span memx).Owns (offset.toNat / memx.memblksize)) :
      h.free memx offset = h := by
  have hlive : h.live.filter (·.offset ≠ offset) = h.live := by
    refine List.filter_eq_self.mpr fun b hb => decide_eq_true fun heq => ?_
    subst heq
    rcases ho with ho | ho
    · have hlt := hd.offset_lt hb
      omega
    · exact ho b hb (Span.owns_start (L.pos _ (hd.mem_spans hb)))
  rw [free, hlive, myMemFree_ready hd.ready, hd.cleared_free ho]
  rfl

theorem describes_free (hd : h.Describes memx L) {offset : BitVec 32}
    (ho : h.Harmless memx offset) :
    ∃ L', (h.free memx offset).Describes memx L' := by
  rcases ho with ho | ⟨b, hb, rfl⟩ | ho
  · exact ⟨L, by rwa [free_eq hd (.inl ho)]⟩
  · exact ⟨_, describes_free_live hd hb⟩
  · exact ⟨L, by rwa [free_eq hd (.inr ho)]⟩

/-- Some layout describes the table. -/
def Inv (memx : Bank) (h : Heap) : Prop := ∃ L, h.Describes memx L

theorem inv_step (h : Heap) (op : Op) (hi : h.Inv memx) (hok : Careful memx h op) :
    (h.step memx op).Inv memx := by
  obtain ⟨L, hd⟩ := hi
  cases op with
  | malloc size => exact describes_malloc hd size
  | free offset => exact describes_free hd hok

theorem inv_run {p : Pool} {ops : List Op}
    (h : Along (step memx) (Careful memx) (init memx p) ops) :
    (run memx p ops).Inv memx := h.invariant inv_step ⟨_, describes_init p⟩

end Heap

end Stm32F4.Memory
