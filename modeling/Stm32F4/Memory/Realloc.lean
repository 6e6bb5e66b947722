import Stm32F4.Memory.Allocation

/-! `myrealloc`.

It takes a second block, copies `size` bytes into it, the size of the new block and
not of the old one, and frees the old one. The two blocks are apart, so what was in the old
one arrives, and the neighbours are left alone. A larger request reads on behind the
old block: that nothing is read there holds exactly when the request fits the old block or cannot be
met (`reallocated_iff`). -/
namespace Stm32F4.Memory
open Lib

/-! ### Addresses -/

namespace Linked
variable (l : Linked) (memx : Bank)

theorem membase_ne_zero : (l.membase memx).toNat ≠ 0 := by
  cases memx with
  | sramin => exact fun h => l.ne_null (BitVec.eq_of_toNat_eq h)
  | sramex => exact show (0xC01F4000#32).toNat ≠ 0 by decide
  | sramccm => exact show (0x10000000#32).toNat ≠ 0 by decide

theorem membase_fits : (l.membase memx).toNat + memx.memsize ≤ 2 ^ 32 := by
  cases memx with
  | sramin => exact l.fits
  | sramex => exact show (0xC01F4000#32).toNat + 1024 ≤ 2 ^ 32 by decide
  | sramccm => exact show (0x10000000#32).toNat + 1024 ≤ 2 ^ 32 by decide

/-- No address inside a pool is null. -/
theorem membase_add_ne_null {offset : BitVec 32} (h : offset.toNat < memx.memsize) :
    l.membase memx + offset ≠ null := by
  have hne := l.membase_ne_zero memx
  have hfits := l.membase_fits memx
  intro heq
  have hn := congrArg BitVec.toNat heq
  rw [BitVec.toNat_add, show null.toNat = 0 from rfl, Nat.mod_eq_of_lt (by omega)] at hn
  omega

end Linked

/-- The address is one of the allocation's bytes. -/
def Block.Holds (l : Linked) (memx : Bank) (b : Block) (a : BitVec 32) : Prop :=
  b.offset.toNat ≤ (a - l.membase memx).toNat ∧
    (a - l.membase memx).toNat < b.offset.toNat + b.length memx

instance (l : Linked) (memx : Bank) (b : Block) (a : BitVec 32) : Decidable (b.Holds l memx a) :=
  inferInstanceAs (Decidable (_ ∧ _))

/-- The allocation's address. -/
def Block.ptr (l : Linked) (memx : Bank) (b : Block) : BitVec 32 := l.membase memx + b.offset

variable {l : Linked} {memx : Bank} {b : Block}

/-- Where byte `i` from an allocation's address on lies in the pool. -/
theorem Block.ptr_add_sub (hb : b.offset.toNat < memx.memsize) {i : Nat} (hi : i ≤ memx.memsize) :
    (b.ptr l memx + BitVec.ofNat 32 i - l.membase memx).toNat = b.offset.toNat + i := by
  have hmem := memx.memsize_le
  rw [Block.ptr, BitVec.add_assoc, BitVec.add_comm, BitVec.add_sub_cancel, BitVec.toNat_add,
    BitVec.toNat_ofNat, Nat.mod_eq_of_lt (show i < 2 ^ 32 by omega)]
  exact Nat.mod_eq_of_lt (by omega)

theorem Block.holds_ptr_add (hb : b.offset.toNat < memx.memsize) {i : Nat} (hi : i ≤ memx.memsize) :
    b.Holds l memx (b.ptr l memx + BitVec.ofNat 32 i) ↔ i < b.length memx := by
  rw [Block.Holds, Block.ptr_add_sub hb hi]
  omega

/-- Allocations that are apart have no address in common. -/
theorem Block.Apart.not_holds {b' : Block} (h : b.Apart memx b') {a : BitVec 32}
    (ha : b.Holds l memx a) :
    ¬ b'.Holds l memx a := by
  rintro ⟨hlo, hhi⟩
  obtain ⟨hlo', hhi'⟩ := ha
  rcases h with h | h <;> omega

/-! ### The call -/

namespace Heap
variable {h : Heap} {L : Layout memx.memtblsize}

/-- After the call returned the address `ptr` and left the pool `p`: what was in the allocation
`b` is there, `b` is free, and the other allocations are as they were. -/
structure Moved (l : Linked) (memx : Bank) (h : Heap) (b : Block) (size ptr : BitVec 32)
    (p : Pool) :
    Prop where
  kept : ∀ i, i < min (b.length memx) size.toNat →
    p.mem (ptr + BitVec.ofNat 32 i) = h.pool.mem (b.ptr l memx + BitVec.ofNat 32 i)
  contents : ∀ b' ∈ h.live, b'.offset ≠ b.offset → ∀ a, b'.Holds l memx a → p.mem a = h.pool.mem a
  cells : ∀ b' ∈ h.live, b'.offset ≠ b.offset →
    ∀ c, (b'.span memx).Owns c → p.memmap c = h.pool.memmap c
  freed : ∀ c, (b.span memx).Owns c → p.memmap c = 0

/-- What `myrealloc` owes the allocation `b`: it fails and changes nothing or moves it, and
reads nothing else. -/
structure Reallocated (l : Linked) (memx : Bank) (h : Heap) (b : Block)
    (size : BitVec 32) : Prop where
  fails : (myrealloc l memx (b.ptr l memx) size h.pool).1 = null →
    (myrealloc l memx (b.ptr l memx) size h.pool).2 = h.pool
  moves : (myrealloc l memx (b.ptr l memx) size h.pool).1 ≠ null →
    h.Moved l memx b size (myrealloc l memx (b.ptr l memx) size h.pool).1
      (myrealloc l memx (b.ptr l memx) size h.pool).2
  within : ∀ a ∈ myreallocReads memx (b.ptr l memx) size h.pool, b.Holds l memx a

/-- Freeing does not look at the contents and leaves them alone. -/
theorem myMemFree_withMem {p : Pool} (hr : p.memrdy = true) (offset : BitVec 32)
    (mem : BitVec 32 → UInt8) :
    (myMemFree memx offset (p.withMem mem)).2 = (myMemFree memx offset p).2.withMem mem := by
  rw [myMemFree_ready hr, myMemFree_ready (p := p.withMem mem) hr]
  rfl

theorem myfree_ptr (ho : b.offset.toNat < memx.memsize) (p : Pool) :
    myfree l memx (b.ptr l memx) p = (myMemFree memx b.offset p).2 := by
  rw [myfree, if_neg (show b.ptr l memx ≠ null from l.membase_add_ne_null memx ho), Block.ptr,
    BitVec.add_comm, BitVec.add_sub_cancel]

/-- A call that finds no room. -/
theorem myrealloc_refused (hr : h.pool.memrdy = true) {size : BitVec 32}
    (hno : Refuses memx h.pool size)
    (ptr : BitVec 32) : myrealloc l memx ptr size h.pool = (null, h.pool) ∧
      myreallocReads memx ptr size h.pool = [] := by
  have hcall := myMemMalloc_refused hr hno
  simp only [myrealloc, myreallocReads, hcall, if_true, and_self]

/-- A call that finds room: an allocation and, after the copy, a `free` of the old block. -/
theorem myrealloc_moved (hd : h.Describes memx L) (hb : b ∈ h.live) {size : BitVec 32}
    (hroom : ¬ Refuses memx h.pool size) :
    ∃ nb : Block, nb.size = size ∧ (h.malloc memx size).live = nb :: h.live ∧
      myrealloc l memx (b.ptr l memx) size h.pool = (nb.ptr l memx,
        ((h.malloc memx size).free memx b.offset).pool.withMem
          (mymemcpy (nb.ptr l memx) (b.ptr l memx) size h.pool.mem)) ∧
      myreallocReads memx (b.ptr l memx) size h.pool = mymemcpyReads (b.ptr l memx) size := by
  obtain ⟨i, -, hoff, -, hcall⟩ := myMemMalloc_granted hd.ready hroom
  have hne := ofNat_ne_noOffset hoff
  refine ⟨⟨BitVec.ofNat 32 (i * 64), size⟩, rfl, ?_, ?_, ?_⟩
  · rw [malloc, hcall, if_neg hne]
  · simp only [myrealloc, hcall, if_neg hne, myfree_ptr (hd.offset_lt hb), free, malloc]
    exact congrArg (Prod.mk _) (myMemFree_withMem (by exact hd.ready) b.offset _)
  · rw [myreallocReads, hcall, if_neg hne]

/-- Everything but the reads is as it should be, whatever the size. -/
theorem Describes.moved (hd : h.Describes memx L) (hb : b ∈ h.live) {size : BitVec 32}
    (hroom : ¬ Refuses memx h.pool size) :
    (myrealloc l memx (b.ptr l memx) size h.pool).1 ≠ null ∧
      h.Moved l memx b size (myrealloc l memx (b.ptr l memx) size h.pool).1
        (myrealloc l memx (b.ptr l memx) size h.pool).2 := by
  obtain ⟨nb, hsize, hlive, hcall, -⟩ := myrealloc_moved (l := l) hd hb hroom
  obtain ⟨L', hd'⟩ := describes_malloc hd size
  have hmem : ∀ b' ∈ h.live, b' ∈ (h.malloc memx size).live := fun b' hb' => by
    rw [hlive]
    exact List.mem_cons_of_mem _ hb'
  have hnb : nb ∈ (h.malloc memx size).live := by rw [hlive]; exact List.mem_cons_self
  have hnew := hd'.inside hnb
  have hnewlt := hd'.offset_lt hnb
  have hold := hd.inside hb
  have holdlt := hd.offset_lt hb
  have hsizele : size.toNat ≤ nb.length memx := hsize ▸ Block.size_le memx nb
  have hapart : ∀ b' ∈ h.live, nb.Apart memx b' := fun b' hb' => by
    have hall := hd'.apart
    rw [hlive] at hall
    exact (List.pairwise_cons.mp hall).1 b' hb'
  -- nothing is stored outside the new block
  have hkeep : ∀ b' ∈ h.live, ∀ a, b'.Holds l memx a → ∀ i, i < size.toNat →
      a ≠ nb.ptr l memx + BitVec.ofNat 32 i := by
    rintro b' hb' a ha i hi rfl
    exact (hapart b' hb').not_holds ((Block.holds_ptr_add hnewlt (by omega)).mpr (by omega)) ha
  rw [hcall]
  refine ⟨l.membase_add_ne_null memx hnewlt, fun i hi => ?_, fun b' hb' _ a ha => ?_,
    fun b' hb' hne c hc => ?_, fun c hc => ?_⟩
  · have hi' := Nat.lt_min.mp hi
    refine copyLoop_apply hi'.2 (fun j hj heq => ?_) (hkeep b hb _ ?_)
    · have hoff := congrArg (fun a => (a - l.membase memx).toNat) heq
      simp only [Block.ptr_add_sub hnewlt (show i ≤ memx.memsize by omega),
        Block.ptr_add_sub hnewlt (show j ≤ memx.memsize by omega)] at hoff
      omega
    · exact (Block.holds_ptr_add holdlt (by omega)).mpr hi'.1
  · exact copyLoop_of_ne (hkeep b' hb' a ha)
  · have hnot : ¬ (b.span memx).Owns c := fun hc' =>
      hne ((hd.span_eq_iff hb' hb).mp (L.owner_unique (hd.mem_spans hb') (hd.mem_spans hb) hc hc'))
    show ((h.malloc memx size).free memx b.offset).pool.memmap c = _
    rw [memmap_free hd' (hmem b hb), if_neg hnot, hd'.cell c (hd.owns_lt hb' hc),
      hd.cell c (hd.owns_lt hb' hc),
      L'.cell_of_owns (hd'.mem_spans (hmem b' hb')) hc, L.cell_of_owns (hd.mem_spans hb') hc]
  · show ((h.malloc memx size).free memx b.offset).pool.memmap c = 0
    rw [memmap_free hd' (hmem b hb), if_pos hc]

/-- The copy stays inside the old block when that is at least as long as the request. -/
theorem reads_within (hlt : b.offset.toNat < memx.memsize) (hle : b.length memx ≤ memx.memsize)
    (size : BitVec 32) : (∀ a ∈ mymemcpyReads (b.ptr l memx) size, b.Holds l memx a) ↔
      size.toNat ≤ b.length memx := by
  simp only [mymemcpyReads, List.forall_mem_map, List.mem_range]
  constructor
  · intro hin
    by_contra hgt
    have hout := hin (b.length memx) (by omega)
    exact absurd ((Block.holds_ptr_add hlt hle).mp hout) (Nat.lt_irrefl _)
  · intro hsize i hi
    exact (Block.holds_ptr_add hlt (by omega)).mpr (by omega)

theorem Describes.reallocated (hd : h.Describes memx L) (hb : b ∈ h.live) (size : BitVec 32) :
    Reallocated l memx h b size ↔ size.toNat ≤ b.length memx ∨ Refuses memx h.pool size := by
  by_cases hno : Refuses memx h.pool size
  · obtain ⟨hcall, hreads⟩ := myrealloc_refused (l := l) hd.ready hno (b.ptr l memx)
    refine ⟨fun _ => .inr hno, fun _ => ?_⟩
    have hnull : (myrealloc l memx (b.ptr l memx) size h.pool).1 = null := by rw [hcall]
    refine ⟨fun _ => by rw [hcall], fun hr => absurd hnull hr, ?_⟩
    rw [hreads]
    exact fun a ha => by cases ha
  · obtain ⟨hne, hmoved⟩ := hd.moved (l := l) hb hno
    obtain ⟨-, -, -, -, hreads⟩ := myrealloc_moved (l := l) hd hb hno
    have hin := hd.inside hb
    have hwithin := reads_within (l := l) (hd.offset_lt hb) (by omega) size
    rw [← hreads] at hwithin
    constructor
    · exact fun hr => .inl (hwithin.mp hr.within)
    · exact fun hcond =>
        ⟨fun hr => absurd hr hne, fun _ => hmoved, hwithin.mpr (hcond.resolve_right hno)⟩

/-- **`myrealloc` keeps what it should and reads nothing else** exactly when the request fits
into the old block or cannot be met. -/
theorem reallocated_iff (l : Linked) (memx : Bank) (p : Pool) (ops : List Op)
    (h : Along (step memx) Legit (init memx p) ops) (b : Block) (hb : b ∈ (run memx p ops).live)
    (size : BitVec 32) : Reallocated l memx (run memx p ops) b size ↔
      size.toNat ≤ b.length memx ∨ Refuses memx (run memx p ops).pool size := by
  obtain ⟨L, hd⟩ := inv_run (careful_run h)
  exact hd.reallocated hb size

end Heap

/-- The internal SRAM. -/
def sramLinked : Linked := ⟨0x20000000, by decide, by decide⟩

namespace Heap

/-- A block of 100 bytes cut down to 50. -/
theorem reallocated_shrunk :
    Reallocated sramLinked .sramex (run .sramex .unset [.malloc 100]) ⟨896, 100⟩ 50 :=
  (reallocated_iff sramLinked .sramex .unset [.malloc 100] (by decide +kernel) ⟨896, 100⟩
    (by decide +kernel) 50).mpr (.inl (by decide))

/-- A block of 64 bytes, the last of the pool, doubled: the copy reads on behind the pool. -/
theorem grown_reads_on : ⟨960, 64⟩ ∈ (run .sramex .unset [.malloc 64]).live ∧
    ¬ Reallocated sramLinked .sramex (run .sramex .unset [.malloc 64]) ⟨960, 64⟩ 128 := by
  refine ⟨by decide +kernel, fun h => ?_⟩
  have hin := h.within (0xC01F4000 + 1024) (by decide +kernel)
  revert hin
  decide +kernel

end Heap

end Stm32F4.Memory
