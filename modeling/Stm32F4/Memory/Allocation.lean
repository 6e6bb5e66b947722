import Stm32F4.Memory.Heap

/-! What the allocator guarantees.

As long as only live offsets are freed, the allocations are apart and inside the
pool and the table says so cell by cell (`sound_run`). An allocation takes the highest
run of free cells that is long enough and fails only when there is none
(`placed_run`), however the table came about. A `free` clears nothing but the allocation at its
offset exactly when the offset is harmless; from the middle of an allocation it clears as many
cells as the allocation has, the neighbour's among them (`spares_iff`). -/
namespace Stm32F4.Memory
open Lib

/-- No byte of one is a byte of the other. -/
def Block.Apart (memx : Bank) (a b : Block) : Prop :=
  a.offset.toNat + a.length memx ≤ b.offset.toNat ∨ b.offset.toNat + b.length memx ≤ a.offset.toNat

namespace Heap
variable {memx : Bank} {h : Heap} {L : Layout memx.memtblsize}

/-! ### Soundness -/

structure Sound (memx : Bank) (h : Heap) : Prop where
  apart : h.live.Pairwise (Block.Apart memx)
  aligned : ∀ b ∈ h.live, memx.memblksize ∣ b.offset.toNat
  inside : ∀ b ∈ h.live, b.offset.toNat + b.length memx ≤ memx.memsize
  covers : ∀ b ∈ h.live, b.size.toNat ≤ b.length memx
  used_iff : ∀ c, c < memx.memtblsize → (h.pool.memmap c ≠ 0 ↔ ∃ b ∈ h.live, (b.span memx).Owns c)
  count : ∀ b ∈ h.live, ∀ c, (b.span memx).Owns c → (h.pool.memmap c).toNat = nmemb memx b.size
  freed : ∀ b ∈ h.live, ∀ c,
    (h.free memx b.offset).pool.memmap c = if (b.span memx).Owns c then 0 else h.pool.memmap c

/-- Blocks of cells that are apart are apart as bytes. -/
theorem Describes.apart (hd : h.Describes memx L) : h.live.Pairwise (Block.Apart memx) := by
  have hspans := L.apart
  rw [hd.spans, List.pairwise_map] at hspans
  refine hspans.imp_of_mem fun {a b} ha hb hab => ?_
  have hoa := hd.aligned a ha
  have hob := hd.aligned b hb
  simp only [Span.Apart, Block.Apart, Block.length, Block.span, memx.memblksize_eq] at *
  omega

theorem Describes.inside (hd : h.Describes memx L) {b : Block} (hb : b ∈ h.live) :
    b.offset.toNat + b.length memx ≤ memx.memsize := by
  have hin := L.inside _ (hd.mem_spans hb)
  have hob := hd.aligned b hb
  have hmul := memx.memtblsize_mul
  simp only [Block.length, Block.span, memx.memblksize_eq] at *
  omega

theorem Block.size_le (memx : Bank) (b : Block) : b.size.toNat ≤ b.length memx := by
  rw [Block.length, nmemb_eq, memx.memblksize_eq]
  omega

theorem Describes.owns_lt (hd : h.Describes memx L) {b : Block} (hb : b ∈ h.live) {c : Nat}
    (hc : (b.span memx).Owns c) : c < memx.memtblsize :=
  Nat.lt_of_lt_of_le hc.2 (L.inside _ (hd.mem_spans hb))

theorem Describes.sound (hd : h.Describes memx L) : h.Sound memx where
  apart := hd.apart
  aligned := fun b hb => by
    rw [hd.aligned b hb, memx.memblksize_eq]
    exact Nat.dvd_mul_left 64 _
  inside := fun b hb => hd.inside hb
  covers := fun b _ => Block.size_le memx b
  used_iff := fun c hc => by
    have hfree := hd.free_iff hc
    rw [Pool.free, beq_iff_eq] at hfree
    rw [Ne, hfree, ← Ne, Layout.cell_ne_zero_iff, hd.spans]
    simp only [List.mem_map, exists_exists_and_eq_and]
  count := fun b hb c hc => by
    have hlt := cell_lt L c
    rw [hd.cell c (hd.owns_lt hb hc), BitVec.toNat_ofNat, Nat.mod_eq_of_lt (by omega)]
    exact L.cell_of_owns (hd.mem_spans hb) hc
  freed := fun b hb c => memmap_free hd hb c

theorem careful_of_legit (h : Heap) (op : Op) (hop : Legit h op) : Careful memx h op := by
  cases op with
  | malloc size => trivial
  | free offset => exact .inr (.inl hop)

/-- Runs that free only what is live are runs that free with care. -/
theorem careful_run {p : Pool} {ops : List Op} (h : Along (step memx) Legit (init memx p) ops) :
    Along (step memx) (Careful memx) (init memx p) ops :=
  h.imp (I := fun _ => True) (fun _ _ _ _ => trivial) (fun h op _ hop =>
    careful_of_legit h op hop) trivial

/-- **The allocations and the table agree** after every sequence of calls that frees only
offsets which were returned and have not been freed. -/
theorem sound_run (memx : Bank) (p : Pool) (ops : List Op)
    (h : Along (step memx) Legit (init memx p) ops) : (run memx p ops).Sound memx := by
  obtain ⟨L, hd⟩ := inv_run (careful_run h)
  exact hd.sound

/-- A block of 100 bytes and one of 64 in the pool of 16 cells, the first freed again. -/
theorem sound_run_two : (run .sramex .unset
    [.malloc 100, .malloc 64, .free 896]).Sound .sramex :=
  sound_run .sramex .unset [.malloc 100, .malloc 64, .free 896]
    (by decide +kernel)

/-! ### Placement -/

theorem ready_step (h : Heap) (op : Op) (hr : h.pool.memrdy = true) :
    (h.step memx op).pool.memrdy = true := by
  cases op with
  | malloc size => exact memrdy_myMemMalloc hr size
  | free offset =>
    show (myMemFree memx offset h.pool).2.memrdy = true
    rw [myMemFree_ready hr]
    exact hr

/-- Whatever is freed, the pool stays ready. -/
theorem ready_run (p : Pool) (ops : List Op) : (run memx p ops).pool.memrdy = true :=
  (along_of_forall (p := fun _ => True) (init memx p) fun _ _ => trivial).invariant
    (fun h op hr _ => ready_step h op hr) rfl

/-- The cells of an allocation of `size` bytes. -/
def needed (memx : Bank) (size : BitVec 32) : Nat :=
  (size.toNat + (memx.memblksize - 1)) / memx.memblksize

theorem nmemb_eq_needed (memx : Bank) (size : BitVec 32) : nmemb memx size = needed memx size := by
  rw [nmemb_eq, needed, memx.memblksize_eq]

/-- There is nothing to allocate, or no room for it. -/
def Refuses (memx : Bank) (p : Pool) (size : BitVec 32) : Prop :=
  size = 0 ∨ ¬ HasRun p.free memx.memtblsize (needed memx size)

/-- What `my_mem_malloc` does with a pool: it fails and leaves the table alone exactly when it has
to, and otherwise it takes the highest run of free cells. -/
structure Placed (memx : Bank) (p : Pool) (size : BitVec 32) : Prop where
  refuses : (myMemMalloc memx size p).1 = noOffset ∧ (myMemMalloc memx size p).2.memmap = p.memmap ↔
    Refuses memx p size
  places :
    ¬ Refuses memx p size → ∃ i, IsGreatest (runs p.free memx.memtblsize (needed memx size)) i ∧
    (myMemMalloc memx size p).1.toNat = i * memx.memblksize ∧
    ∀ c, (myMemMalloc memx size p).2.memmap c =
      if i ≤ c ∧ c < i + needed memx size then BitVec.ofNat 32 (needed memx size) else p.memmap c

/-- A call that has to fail. -/
theorem myMemMalloc_refused {p : Pool} (hr : p.memrdy = true) {size : BitVec 32}
    (hno : Refuses memx p size) : myMemMalloc memx size p = (noOffset, p) := by
  rcases myMemMalloc_cases memx hr size with ⟨-, hcall⟩ | ⟨i, hsize, hi, -⟩
  · exact hcall
  · rw [nmemb_eq_needed] at hi
    exact absurd ⟨i, hi.1⟩ (hno.resolve_left hsize)

/-- A call that has not: it takes the cells from `i` on, which are in the table. -/
theorem myMemMalloc_granted {p : Pool} (hr : p.memrdy = true) {size : BitVec 32}
    (hyes : ¬ Refuses memx p size) : ∃ i, 0 < needed memx size ∧ i * 64 < memx.memsize ∧
      IsGreatest (runs p.free memx.memtblsize (needed memx size)) i ∧
      myMemMalloc memx size p = (BitVec.ofNat 32 (i * 64), { p with
        memmap :=
        fun c => if (Span.mk i (needed memx size)).Owns c then BitVec.ofNat 32 (needed memx size)
          else p.memmap c }) := by
  rcases myMemMalloc_cases memx hr size with ⟨hno, -⟩ | ⟨i, hsize, hi, hcall⟩
  · rw [nmemb_eq_needed] at hno
    exact absurd hno hyes
  · have hpos := nmemb_pos memx hsize
    have hin := hi.1.1
    have hmul := memx.memtblsize_mul
    rw [nmemb_eq_needed] at hpos hi hin hcall
    exact ⟨i, hpos, by omega, hi, hcall⟩

theorem placed {p : Pool} (hr : p.memrdy = true) (size : BitVec 32) : Placed memx p size := by
  by_cases hno : Refuses memx p size
  · refine ⟨?_, fun hroom => absurd hno hroom⟩
    rw [myMemMalloc_refused hr hno]
    exact ⟨fun _ => hno, fun _ => ⟨rfl, rfl⟩⟩
  · obtain ⟨i, -, hoff, hi, hcall⟩ := myMemMalloc_granted hr hno
    refine ⟨?_, fun _ => ⟨i, hi, ?_, fun c => ?_⟩⟩
    · rw [hcall]
      exact ⟨fun hfail => absurd hfail.1 (ofNat_ne_noOffset hoff), fun hno' => absurd hno' hno⟩
    · rw [hcall, memx.memblksize_eq]
      exact toNat_offset hoff
    · rw [hcall]
      rfl

/-- **Completeness and placement**, for the tables that any sequence of allocations and frees
leaves. -/
theorem placed_run (memx : Bank) (p : Pool) (ops : List Op) (size : BitVec 32) :
    Placed memx (run memx p ops).pool size := placed (ready_run p ops) size

/-! ### Stale offsets -/

/-- `my_mem_free` clears cells of the table only, and no cell of an allocation other than the
one at its offset. -/
def Spares (memx : Bank) (h : Heap) (offset : BitVec 32) : Prop :=
  ∀ c ∈ cleared memx offset h.pool,
    c < memx.memtblsize ∧ ∀ b ∈ h.live, (b.span memx).Owns c → b.offset = offset

instance (memx : Bank) (h : Heap) (offset : BitVec 32) : Decidable (Spares memx h offset) :=
  inferInstanceAs (Decidable (∀ c ∈ cleared memx offset h.pool, _ ∧ ∀ b ∈ h.live, _ → _))

theorem Describes.spares (hd : h.Describes memx L) (offset : BitVec 32) :
    Spares memx h offset ↔ h.Harmless memx offset := by
  constructor
  · intro hs
    by_cases ho : memx.memsize ≤ offset.toNat
    · exact .inl ho
    · by_cases hb : ∃ b ∈ h.live, (b.span memx).Owns (offset.toNat / memx.memblksize)
      · -- the first cell it clears is one of this allocation
        obtain ⟨b, hb, hc⟩ := hb
        have hcell := L.cell_of_owns (hd.mem_spans hb) hc
        have hpos := L.pos _ (hd.mem_spans hb)
        refine .inr (.inl ⟨b, hb, (hs (offset.toNat / memx.memblksize) ?_).2 b hb hc⟩)
        rw [hd.cleared_eq, if_pos (by omega), hcell]
        exact mem_cellsFrom.mpr ⟨Nat.le_refl _, by omega⟩
      · exact .inr (.inr fun b hb' hc => hb ⟨b, hb', hc⟩)
  · rintro (ho | ⟨b, hb, rfl⟩ | ho)
    · rw [Spares, hd.cleared_free (.inl ho)]
      exact fun c hc => by cases hc
    · rw [Spares, hd.cleared_live hb]
      intro c hc
      have hown : (b.span memx).Owns c := mem_cellsFrom.mp hc
      refine ⟨hd.owns_lt hb hown, fun b' hb' hc' => ?_⟩
      exact (hd.span_eq_iff hb' hb).mp
        (L.owner_unique (hd.mem_spans hb') (hd.mem_spans hb) hc' hown)
    · rw [Spares, hd.cleared_free (.inr ho)]
      exact fun c hc => by cases hc

/-- A `free` that spares the other allocations. -/
def SparesOthers (memx : Bank) (h : Heap) : Op → Prop
  | .malloc _ => True
  | .free offset => Spares memx h offset

instance (memx : Bank) (h : Heap) : (op : Op) → Decidable (SparesOthers memx h op)
  | .malloc _ => inferInstanceAs (Decidable True)
  | .free offset => inferInstanceAs (Decidable (Spares memx h offset))

/-- **Every `free` of a run spares the other allocations** exactly when the offset of each is
harmless in the state that the calls before it have left. -/
theorem spares_iff (memx : Bank) (p : Pool) (ops : List Op) :
    Along (step memx) (SparesOthers memx) (init memx p) ops ↔
      Along (step memx) (Careful memx) (init memx p) ops := by
  refine (along_congr (I := Inv memx) inv_step ?_ ⟨_, describes_init p⟩ ops).symm
  intro h op hi
  cases op with
  | malloc size => exact Iff.rfl
  | free offset =>
    obtain ⟨L, hd⟩ := hi
    exact (hd.spares offset).symm

/-- A block is freed twice. -/
theorem spares_freed : Along (step .sramex) (SparesOthers .sramex) (init .sramex .unset)
    [.malloc 100, .malloc 64, .free 896, .free 896] :=
  (spares_iff .sramex .unset [.malloc 100, .malloc 64, .free 896, .free 896]).mpr
    (by decide +kernel)

/-- Two allocations of two cells each, at cells 14 and 12. An offset one cell into the second clears
the first cell of the other; one cell into the first it clears a word behind the table. -/
theorem interior_unspared :
    Along (step .sramex) Legit (init .sramex .unset) [.malloc 128, .malloc 128] ∧
      cleared .sramex 832 (run .sramex .unset [.malloc 128, .malloc 128]).pool =
        [13, 14] ∧
      cleared .sramex 960 (run .sramex .unset [.malloc 128, .malloc 128]).pool =
        [15, 16] ∧
      ¬ Spares .sramex (run .sramex .unset [.malloc 128, .malloc 128]) 832 ∧
      ¬ Spares .sramex (run .sramex .unset [.malloc 128, .malloc 128]) 960 := by
  decide +kernel

end Heap

end Stm32F4.Memory
