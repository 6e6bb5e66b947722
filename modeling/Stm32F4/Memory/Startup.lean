import Stm32F4.Memory.Realloc

/-! The allocations at start-up.

`lwip_comm_init` takes six blocks of the internal pool, four for the Ethernet driver and two for
lwIP, and main calls it again until it succeeds. Both functions that allocate
test afterwards whether something failed, but what they test are the addresses of the
pointer variables and not the pointers. No object is at address zero, so they never
see a failure and never clean up. Hence they are all-or-nothing exactly when
everything fits (`allOrNothing_iff`), and a later failure of `lwip_comm_init` leaves the
table as it was exactly when not one of the six blocks could be had (`retry_leakFree_iff`).

Outside the model: what `LAN8720_Init`, `lwip_init` and `netif_add` do besides returning, for
none of them allocates from the pool. -/
namespace Stm32F4.Memory
open Lib

/-- The pointer variables the blocks are assigned to. -/
inductive Global where
  | dmaRxDscrTab | dmaTxDscrTab | rxBuff | txBuff | mempMemory | ramHeap
deriving DecidableEq, Repr

/-- Where the linker puts the pool and the pointer variables. -/
structure Placement extends Linked where
  addr : Global → BitVec 32
  addr_ne_null : ∀ g, addr g ≠ null

structure Startup where
  pool : Pool
  ptr : Global → BitVec 32

/-! ### Sizes -/

def ethRxbufnb : Nat := 4
def ethTxbufnb : Nat := 4
def ethMaxPacketSize : Nat := 1524
def ethRxBufSize : Nat := ethMaxPacketSize
def ethTxBufSize : Nat := ethMaxPacketSize

/-- `sizeof(ETH_DMADescTypeDef)`: eight words. -/
def sizeofEthDmaDesc : Nat := 8 * 4

def memAlignment : BitVec 32 := 4
def memSize : BitVec 32 := 16000

def lwipMemAlignSize (size : BitVec 32) : BitVec 32 :=
  (size + memAlignment - 1) &&& ~~~(memAlignment - 1)

def ramheapsize : BitVec 32 :=
  lwipMemAlignSize memSize + 2 * lwipMemAlignSize (4 * 3) + memAlignment

namespace Startup
variable (l : Placement)

/-- `var = mymalloc(SRAMIN, size)` -/
def assign (var : Global) (size : BitVec 32) (s : Startup) : Startup :=
  let r := mymalloc l.toLinked .sramin size s.pool
  { pool := r.2, ptr := Function.update s.ptr var r.1 }

/-- `myfree(SRAMIN, var)` -/
def release (var : Global) (s : Startup) : Startup :=
  { s with pool := myfree l.toLinked .sramin (s.ptr var) s.pool }

/-! ### The Ethernet driver's blocks -/

def ethMemFree (s : Startup) : Startup :=
  let s := s.release l .dmaRxDscrTab
  let s := s.release l .dmaTxDscrTab
  let s := s.release l .rxBuff
  s.release l .txBuff

/-- `!(u32)&var`: it is the variable's address that is tested. -/
def addrIsNull (var : Global) : Bool := l.addr var == 0

def ethMemMalloc (s : Startup) : BitVec 8 × Startup :=
  let s := s.assign l .dmaRxDscrTab (BitVec.ofNat 32 (ethRxbufnb * sizeofEthDmaDesc))
  let s := s.assign l .dmaTxDscrTab (BitVec.ofNat 32 (ethTxbufnb * sizeofEthDmaDesc))
  let s := s.assign l .rxBuff (BitVec.ofNat 32 (ethRxBufSize * ethRxbufnb))
  let s := s.assign l .txBuff (BitVec.ofNat 32 (ethTxBufSize * ethTxbufnb))
  if addrIsNull l .dmaRxDscrTab || addrIsNull l .dmaTxDscrTab || addrIsNull l .rxBuff ||
      addrIsNull l .txBuff then
    (1, s.ethMemFree l)
  else (0, s)

/-! ### lwIP's blocks -/

def lwipCommMemFree (s : Startup) : Startup :=
  let s := s.release l .mempMemory
  s.release l .ramHeap

/-- `mempsize` is what `memp_get_memorysize` returns. -/
def lwipCommMemMalloc (mempsize : BitVec 32) (s : Startup) : BitVec 8 × Startup :=
  let s := s.assign l .mempMemory mempsize
  let s := s.assign l .ramHeap ramheapsize
  if addrIsNull l .mempMemory || addrIsNull l .ramHeap then (1, s.lwipCommMemFree l) else (0, s)

/-! ### `lwip_comm_init` -/

/-- What one call of `lwip_comm_init` gets from the hardware and from lwIP. -/
structure Attempt where
  /-- what `LAN8720_Init` returns, call by call -/
  lan8720Init : Nat → BitVec 8
  /-- `netif_add` does not return `NULL` -/
  netifAdd : Bool

/-- The loop over `LAN8720_Init`: whether it is left before `retry` exceeds 5. -/
def lan8720Loop (init : Nat → BitVec 8) (retry : Nat) : Bool :=
  if init retry = 0 then true
  else if 5 < retry + 1 then false
  else lan8720Loop init (retry + 1)
termination_by 6 - retry

def lwipCommInit (mempsize : BitVec 32) (s : Startup) (a : Attempt) : BitVec 8 × Startup :=
  let (r, s) := s.ethMemMalloc l
  if r ≠ 0 then (1, s)
  else
    let (r, s) := s.lwipCommMemMalloc l mempsize
    if r ≠ 0 then (2, s)
    else if !lan8720Loop a.lan8720Init 0 then (3, s)
    else if !a.netifAdd then (4, s)
    else (0, s)

/-- One round of main's loop: the state after the call. -/
def retry (mempsize : BitVec 32) (s : Startup) (a : Attempt) : Startup :=
  (s.lwipCommInit l mempsize a).2

/-- The call failed: main's loop goes on. -/
def Failing (mempsize : BitVec 32) (s : Startup) (a : Attempt) : Prop :=
  (s.lwipCommInit l mempsize a).1 ≠ 0

/-- The call left the table as it was. -/
def LeakFree (mempsize : BitVec 32) (s : Startup) (a : Attempt) : Prop :=
  (s.retry l mempsize a).pool.memmap = s.pool.memmap

/-! ### Assignments in a row -/

variable {l} {p : Pool} {s : Startup}

theorem refuses_iff (memx : Bank) (p : Pool) (size : BitVec 32) :
    Heap.Refuses memx p size ↔ ¬ (0 < Heap.needed memx size ∧
      HasRun p.free memx.memtblsize (Heap.needed memx size)) := by
  have hzero : size = 0 ↔ ¬ 0 < Heap.needed memx size := by
    rw [← Heap.nmemb_eq_needed]
    refine ⟨fun h => ?_, fun h => by_contra fun hne => h (nmemb_pos memx hne)⟩
    rw [h, nmemb_eq]
    decide
  rw [Heap.Refuses, hzero, ← not_and_or]

/-- An allocation that is refused changes nothing but the variable. -/
theorem assign_refused (hr : s.pool.memrdy = true) (var : Global) {size : BitVec 32}
    (hno : Heap.Refuses .sramin s.pool size) :
    (s.assign l var size).pool = s.pool ∧ (s.assign l var size).ptr var = null := by
  have hcall := Heap.myMemMalloc_refused hr hno
  simp only [assign, mymalloc, hcall, if_true, Function.update_self, and_self]

/-- After an allocation that is granted: the variable is set, and the highest run that was long
enough is no longer free. -/
structure Granted (s : Startup) (var : Global) (size : BitVec 32) (s' : Startup)
    (i : Nat) : Prop where
  pos : 0 < Heap.needed .sramin size
  highest : IsGreatest (runs s.pool.free Bank.sramin.memtblsize (Heap.needed .sramin size)) i
  ready : s'.pool.memrdy = true
  set : s'.ptr var ≠ null
  free : s'.pool.free =
    fun c => s.pool.free c && !decide ((Span.mk i (Heap.needed .sramin size)).Owns c)

theorem assign_granted (hr : s.pool.memrdy = true) (var : Global) {size : BitVec 32}
    (hyes : ¬ Heap.Refuses .sramin s.pool size) :
    ∃ i, Granted s var size (s.assign l var size) i := by
  obtain ⟨i, hpos, hoff, hi, hcall⟩ := Heap.myMemMalloc_granted hr hyes
  have hin := hi.1.1
  have htbl : Bank.sramin.memtblsize = 1024 := rfl
  have hne : BitVec.ofNat 32 (Heap.needed .sramin size) ≠ 0 := fun h0 => by
    have hn := congrArg BitVec.toNat h0
    rw [BitVec.toNat_ofNat, Nat.mod_eq_of_lt (by omega),
      show (0 : BitVec 32).toNat = 0 from rfl] at hn
    omega
  have hassign : s.assign l var size =
      { pool := { s.pool with
          memmap := fun c => if (Span.mk i (Heap.needed .sramin size)).Owns c
            then BitVec.ofNat 32 (Heap.needed .sramin size) else s.pool.memmap c }
        ptr := Function.update s.ptr var (l.membase .sramin + BitVec.ofNat 32 (i * 64)) } := by
    simp only [assign, mymalloc, hcall, if_neg (ofNat_ne_noOffset hoff)]
  rw [hassign]
  refine ⟨i, hpos, hi, hr, ?_, ?_⟩
  · show Function.update s.ptr var _ var ≠ null
    rw [Function.update_self]
    exact l.membase_add_ne_null .sramin (by rwa [toNat_offset hoff])
  · funext c
    show ((if (Span.mk i (Heap.needed .sramin size)).Owns c then _ else s.pool.memmap c) ==
      (0 : BitVec 32)) = _
    by_cases hc : (Span.mk i (Heap.needed .sramin size)).Owns c
    · rw [if_pos hc, decide_eq_true hc, Bool.not_true, Bool.and_false]
      exact beq_eq_false_iff_ne.mpr hne
    · rw [if_neg hc, decide_eq_false hc, Bool.not_false, Bool.and_true]
      rfl

/-- The variables assigned in order. -/
def assignAll (l : Placement) (reqs : List (Global × BitVec 32)) (s : Startup) : Startup :=
  reqs.foldl (fun s r => s.assign l r.1 r.2) s

theorem assignAll_ptr (reqs : List (Global × BitVec 32)) (s : Startup) {g : Global}
    (hg : g ∉ reqs.map Prod.fst) : (s.assignAll l reqs).ptr g = s.ptr g := by
  induction reqs generalizing s with
  | nil => rfl
  | cons r rest ih =>
    rw [List.map_cons, List.mem_cons, not_or] at hg
    show ((s.assign l r.1 r.2).assignAll l rest).ptr g = s.ptr g
    rw [ih _ hg.2]
    exact Function.update_of_ne hg.1 _ _

/-- All of the pointers are set exactly when the blocks fit one after the other. -/
theorem assignAll_ne_null (reqs : List (Global × BitVec 32)) (hnodup : (reqs.map Prod.fst).Nodup)
    (s : Startup) (hr : s.pool.memrdy = true) :
    (∀ g ∈ reqs.map Prod.fst, (s.assignAll l reqs).ptr g ≠ null) ↔
      Fits s.pool.free Bank.sramin.memtblsize (reqs.map fun r => Heap.needed .sramin r.2) := by
  induction reqs generalizing s with
  | nil => simp [Fits]
  | cons r rest ih =>
    obtain ⟨hnot, hrest⟩ := List.nodup_cons.mp hnodup
    have hfirst : (s.assignAll l (r :: rest)).ptr r.1 = (s.assign l r.1 r.2).ptr r.1 :=
      assignAll_ptr rest _ hnot
    rw [List.map_cons, List.forall_mem_cons, hfirst, List.map_cons, Fits]
    by_cases hno : Heap.Refuses .sramin s.pool r.2
    · rw [(assign_refused (l := l) hr r.1 hno).2]
      refine ⟨fun h => absurd rfl h.1, fun h => ?_⟩
      obtain ⟨hpos, i, hi, -⟩ := h
      exact absurd ⟨hpos, i, hi.1⟩ ((refuses_iff .sramin s.pool r.2).mp hno)
    · obtain ⟨i, hg⟩ := assign_granted (l := l) hr r.1 hno
      have hnext := ih hrest (s.assign l r.1 r.2) hg.ready
      rw [hg.free] at hnext
      constructor
      · exact fun h => ⟨hg.pos, i, hg.highest, hnext.mp h.2⟩
      · rintro ⟨-, j, hj, hfits⟩
        obtain rfl := hg.highest.unique hj
        exact ⟨hg.set, hnext.mpr hfits⟩

/-! ### All or nothing -/

def ethRequests : List (Global × BitVec 32) :=
  [(.dmaRxDscrTab, BitVec.ofNat 32 (ethRxbufnb * sizeofEthDmaDesc)),
    (.dmaTxDscrTab, BitVec.ofNat 32 (ethTxbufnb * sizeofEthDmaDesc)),
    (.rxBuff, BitVec.ofNat 32 (ethRxBufSize * ethRxbufnb)),
    (.txBuff, BitVec.ofNat 32 (ethTxBufSize * ethTxbufnb))]

def lwipRequests (mempsize : BitVec 32) : List (Global × BitVec 32) :=
  [(.mempMemory, mempsize), (.ramHeap, ramheapsize)]

theorem addrIsNull_eq (l : Placement) (var : Global) : addrIsNull l var = false :=
  beq_eq_false_iff_ne.mpr (l.addr_ne_null var)

/-- The test never fires. -/
theorem ethMemMalloc_eq (l : Placement) (s : Startup) :
    s.ethMemMalloc l = (0, s.assignAll l ethRequests) := by
  simp only [ethMemMalloc, addrIsNull_eq, Bool.or_self, Bool.false_eq_true, if_false]
  rfl

theorem lwipCommMemMalloc_eq (l : Placement) (mempsize : BitVec 32) (s : Startup) :
    s.lwipCommMemMalloc l mempsize = (0, s.assignAll l (lwipRequests mempsize)) := by
  simp only [lwipCommMemMalloc, addrIsNull_eq, Bool.or_self, Bool.false_eq_true, if_false]
  rfl

/-- The function that returned `r.1` and left `r.2` set the variables if it reported success,
and left the table as it was otherwise. -/
structure AllOrNothing (s : Startup) (vars : List Global) (r : BitVec 8 × Startup) : Prop where
  all : r.1 = 0 → ∀ var ∈ vars, r.2.ptr var ≠ null
  nothing : r.1 ≠ 0 → r.2.pool.memmap = s.pool.memmap

theorem allOrNothing_success (s : Startup) (reqs : List (Global × BitVec 32))
    (hnodup : (reqs.map Prod.fst).Nodup) (hr : s.pool.memrdy = true) :
    AllOrNothing s (reqs.map Prod.fst) (0, s.assignAll l reqs) ↔
      Fits s.pool.free Bank.sramin.memtblsize (reqs.map fun r => Heap.needed .sramin r.2) := by
  rw [← assignAll_ne_null (l := l) reqs hnodup s hr]
  exact ⟨fun h => h.all rfl, fun h => ⟨fun _ => h, fun hne => absurd rfl hne⟩⟩

/-- **The start-up allocations are all-or-nothing** exactly when everything fits, in whatever
state the allocator has been brought into. -/
theorem allOrNothing_iff (l : Placement) (mempsize : BitVec 32) (p : Pool) (ops : List Op)
    (ptr : Global → BitVec 32) :
    (AllOrNothing ⟨(Heap.run .sramin p ops).pool, ptr⟩ [.dmaRxDscrTab, .dmaTxDscrTab,
      .rxBuff, .txBuff]
        (ethMemMalloc l ⟨(Heap.run .sramin p ops).pool, ptr⟩) ↔
      Fits (Heap.run .sramin p ops).pool.free Bank.sramin.memtblsize
        (ethRequests.map fun r => Heap.needed .sramin r.2)) ∧
    (AllOrNothing ⟨(Heap.run .sramin p ops).pool, ptr⟩ [.mempMemory, .ramHeap]
        (lwipCommMemMalloc l mempsize ⟨(Heap.run .sramin p ops).pool, ptr⟩) ↔
      Fits (Heap.run .sramin p ops).pool.free Bank.sramin.memtblsize
        ((lwipRequests mempsize).map fun r => Heap.needed .sramin r.2)) := by
  rw [ethMemMalloc_eq, lwipCommMemMalloc_eq]
  exact ⟨allOrNothing_success ⟨_, ptr⟩ ethRequests (by decide) (Heap.ready_run p ops),
    allOrNothing_success ⟨_, ptr⟩ (lwipRequests mempsize) (by simp [lwipRequests])
      (Heap.ready_run p ops)⟩

/-! ### The retry loop -/

/-- A cell in use stays in use. -/
theorem assignAll_used (reqs : List (Global × BitVec 32)) (s : Startup) (hr : s.pool.memrdy = true)
    {c : Nat} (hc : s.pool.free c = false) : (s.assignAll l reqs).pool.free c = false := by
  induction reqs generalizing s with
  | nil => exact hc
  | cons r rest ih =>
    by_cases hno : Heap.Refuses .sramin s.pool r.2
    · have hpool := (assign_refused (l := l) hr r.1 hno).1
      exact ih (s.assign l r.1 r.2) (hpool ▸ hr) (hpool ▸ hc)
    · obtain ⟨i, hg⟩ := assign_granted (l := l) hr r.1 hno
      refine ih (s.assign l r.1 r.2) hg.ready ?_
      simp only [hg.free, hc, Bool.false_and]

/-- Requests that are all refused leave the pool alone. -/
theorem assignAll_refused (reqs : List (Global × BitVec 32)) (s : Startup)
    (hr : s.pool.memrdy = true)
    (h : ∀ r ∈ reqs, Heap.Refuses .sramin s.pool r.2) : (s.assignAll l reqs).pool = s.pool := by
  induction reqs generalizing s with
  | nil => rfl
  | cons r rest ih =>
    obtain ⟨hno, hrest⟩ := List.forall_mem_cons.mp h
    have hpool := (assign_refused (l := l) hr r.1 hno).1
    have hafter := ih (s.assign l r.1 r.2) (hpool ▸ hr) (hpool ▸ hrest)
    exact hafter.trans hpool

/-- The table is as before exactly when nothing was granted. -/
theorem assignAll_memmap_iff (reqs : List (Global × BitVec 32)) (s : Startup)
    (hr : s.pool.memrdy = true) : (s.assignAll l reqs).pool.memmap = s.pool.memmap ↔
      ∀ r ∈ reqs, Heap.Refuses .sramin s.pool r.2 := by
  induction reqs generalizing s with
  | nil => simp [assignAll]
  | cons r rest ih =>
    rw [List.forall_mem_cons]
    by_cases hno : Heap.Refuses .sramin s.pool r.2
    · have hpool := (assign_refused (l := l) hr r.1 hno).1
      have hrest := ih (s.assign l r.1 r.2) (hpool ▸ hr)
      rw [hpool] at hrest
      exact hrest.trans ⟨fun h => ⟨hno, h⟩, fun h => h.2⟩
    · obtain ⟨i, hg⟩ := assign_granted (l := l) hr r.1 hno
      refine ⟨fun heq => False.elim ?_, fun h => absurd h.1 hno⟩
      -- the first cell of the new block was free and is not any more
      have hbefore : s.pool.free i = true := hg.highest.1.2 0 hg.pos
      have hown : (Span.mk i (Heap.needed .sramin r.2)).Owns i := Span.owns_start hg.pos
      have hused : (s.assign l r.1 r.2).pool.free i = false := by
        simp only [hg.free, decide_eq_true hown, Bool.not_true, Bool.and_false]
      have hafter := assignAll_used (l := l) rest (s.assign l r.1 r.2) hg.ready hused
      have hsame : (s.assignAll l (r :: rest)).pool.free i = s.pool.free i := by
        rw [Pool.free, Pool.free, heq]
      rw [hbefore] at hsame
      exact absurd (hsame.symm.trans hafter) (by decide)

/-- The requests of one call of `lwip_comm_init`. -/
def requests (mempsize : BitVec 32) : List (Global × BitVec 32) :=
  ethRequests ++ lwipRequests mempsize

/-- Whatever goes wrong later, all six allocations have been made and none is taken back. -/
theorem retry_eq (l : Placement) (mempsize : BitVec 32) (s : Startup) (a : Attempt) :
    s.retry l mempsize a = s.assignAll l (requests mempsize) := by
  have hall : s.assignAll l (requests mempsize) =
      (s.assignAll l ethRequests).assignAll l (lwipRequests mempsize) := List.foldl_append
  simp only [retry, lwipCommInit, ethMemMalloc_eq, lwipCommMemMalloc_eq, hall, ne_eq,
    not_true_eq_false, if_false]
  split
  · rfl
  · split <;> rfl

/-- Not one of the six blocks can be had. -/
def Starved (mempsize : BitVec 32) (p : Pool) : Prop :=
  ∀ r ∈ requests mempsize, Heap.Refuses .sramin p r.2

theorem leakFree_iff (hr : s.pool.memrdy = true) (mempsize : BitVec 32) (a : Attempt) :
    LeakFree l mempsize s a ↔ Starved mempsize s.pool := by
  rw [LeakFree, retry_eq]
  exact assignAll_memmap_iff _ s hr

/-- A call that gets nothing leaves the pool to the next one. -/
theorem starved_retry (hr : s.pool.memrdy = true) {mempsize : BitVec 32}
    (h : Starved mempsize s.pool)
    (a : Attempt) : (s.retry l mempsize a).pool = s.pool := by
  rw [retry_eq]
  exact assignAll_refused _ s hr h

/-- Nor do the following ones get anything. -/
theorem starved_run (hr : s.pool.memrdy = true) {mempsize : BitVec 32} (h : Starved mempsize s.pool)
    (attempts : List Attempt) : Along (retry l mempsize)
      (fun s a => Failing l mempsize s a → LeakFree l mempsize s a) s attempts := by
  induction attempts generalizing s with
  | nil => trivial
  | cons a rest ih =>
    have hpool := starved_retry (l := l) hr h a
    exact ⟨fun _ => (leakFree_iff hr mempsize a).mpr h, ih (hpool ▸ hr) (hpool ▸ h)⟩

/-- **The retry loop leaks nothing** exactly when nothing is allocated in the first place. -/
theorem retry_leakFree_iff (l : Placement) (mempsize : BitVec 32) (p : Pool) (ops : List Op)
    (ptr : Global → BitVec 32) (attempts : List Attempt) (hne : attempts ≠ [])
    (hfail : Along (retry l mempsize) (Failing l mempsize) ⟨(Heap.run .sramin p ops).pool, ptr⟩
      attempts) :
    Along (retry l mempsize) (fun s a => Failing l mempsize s a → LeakFree l mempsize s a)
        ⟨(Heap.run .sramin p ops).pool, ptr⟩ attempts ↔
      Starved mempsize (Heap.run .sramin p ops).pool := by
  have hr : (Heap.run .sramin p ops).pool.memrdy = true := Heap.ready_run p ops
  refine ⟨fun h => ?_, fun h => starved_run hr h attempts⟩
  cases attempts with
  | nil => exact absurd rfl hne
  | cons a rest => exact (leakFree_iff hr mempsize a).mp (h.1 hfail.1)

/-! ### A fresh pool and a full one -/

theorem fresh_free {c : Nat} (hc : c < Bank.sramin.memtblsize) :
    (Heap.run .sramin .unset []).pool.free c = true :=
  ((Heap.describes_init .unset).free_iff hc).mpr rfl

theorem fresh_grants {size : BitVec 32} (hpos : 0 < Heap.needed .sramin size)
    (hle : Heap.needed .sramin size ≤ Bank.sramin.memtblsize) :
    ¬ Heap.Refuses .sramin (Heap.run .sramin .unset []).pool size := by
  rw [refuses_iff, not_not]
  refine ⟨hpos, 0, by rwa [Nat.zero_add], fun j hj => fresh_free ?_⟩
  omega

theorem run_malloc (memx : Bank) (p : Pool) (size : BitVec 32) :
    (Heap.run memx p [.malloc size]).pool = (myMemMalloc memx size (Heap.run memx p []).pool).2 :=
  rfl

/-- One allocation can take every cell. -/
theorem full_used {c : Nat} (hc : c < Bank.sramin.memtblsize) :
    (Heap.run .sramin .unset [.malloc 65536]).pool.free c = false := by
  have hneed : Heap.needed .sramin 65536 = Bank.sramin.memtblsize := rfl
  have hr : (Heap.run .sramin .unset []).pool.memrdy = true := Heap.ready_run _ _
  obtain ⟨i, hi, -, hmap⟩ := (Heap.placed hr 65536).places (fresh_grants (by decide) (by decide))
  have hin : i + Heap.needed .sramin 65536 ≤ Bank.sramin.memtblsize := hi.1.1
  have hown : i ≤ c ∧ c < i + Heap.needed .sramin 65536 := by omega
  rw [Pool.free, run_malloc, hmap, if_pos hown]
  decide

theorem full_refuses (size : BitVec 32) :
    Heap.Refuses .sramin (Heap.run .sramin .unset [.malloc 65536]).pool size := by
  rw [refuses_iff]
  rintro ⟨hpos, i, hin, hrun⟩
  exact absurd ((full_used (by omega)).symm.trans (hrun 0 hpos)) (by decide)

/-- The linker's choice: the pool and the six variables in the internal SRAM. -/
def sramPlacement : Placement where
  toLinked := sramLinked
  addr := fun
    | .dmaRxDscrTab => 0x20010000
    | .dmaTxDscrTab => 0x20010004
    | .rxBuff => 0x20010008
    | .txBuff => 0x2001000C
    | .mempMemory => 0x20010010
    | .ramHeap => 0x20010014
  addr_ne_null := fun g => by cases g <;> decide

/-- When nothing can be had, the success reported is wrong. -/
theorem unnoticed (hr : p.memrdy = true) (hno : ∀ size, Heap.Refuses .sramin p size)
    (ptr : Global → BitVec 32) (reqs : List (Global × BitVec 32)) (hne : reqs ≠ [])
    (hnodup : (reqs.map Prod.fst).Nodup) :
    ¬ AllOrNothing ⟨p, ptr⟩ (reqs.map Prod.fst) (0, assignAll l reqs ⟨p, ptr⟩) := by
  rw [allOrNothing_success ⟨p, ptr⟩ reqs hnodup hr]
  cases reqs with
  | nil => exact absurd rfl hne
  | cons r rest =>
    rintro ⟨hpos, i, hi, -⟩
    exact absurd ⟨hpos, i, hi.1⟩ ((refuses_iff .sramin p r.2).mp (hno r.2))

/-- With a full pool all six allocations fail, and both functions report success. -/
theorem fullPool_unnoticed :
    ¬ AllOrNothing ⟨(Heap.run .sramin .unset [.malloc 65536]).pool, fun _ => null⟩
        [.dmaRxDscrTab, .dmaTxDscrTab, .rxBuff, .txBuff]
        (ethMemMalloc sramPlacement ⟨(Heap.run .sramin .unset [.malloc 65536]).pool,
          fun _ => null⟩) ∧
      ¬ AllOrNothing ⟨(Heap.run .sramin .unset [.malloc 65536]).pool, fun _ => null⟩
        [.mempMemory, .ramHeap] (lwipCommMemMalloc sramPlacement 20000
          ⟨(Heap.run .sramin .unset [.malloc 65536]).pool, fun _ => null⟩) := by
  rw [ethMemMalloc_eq, lwipCommMemMalloc_eq]
  have hr : (Heap.run .sramin .unset [.malloc 65536]).pool.memrdy = true := Heap.ready_run _ _
  exact ⟨unnoticed hr full_refuses _ ethRequests (by decide) (by decide),
    unnoticed hr full_refuses _ (lwipRequests 20000) (by decide) (by decide)⟩

theorem lan8720Loop_dead {init : Nat → BitVec 8} (h : ∀ k, init k ≠ 0) (retry : Nat) :
    lan8720Loop init retry = false := by
  fun_induction lan8720Loop init retry with
  | case1 retry h0 => exact absurd h0 (h retry)
  | case2 => rfl
  | case3 retry _ _ ih => exact ih

/-- What makes a call fail. -/
theorem failing_iff (l : Placement) (mempsize : BitVec 32) (s : Startup) (a : Attempt) :
    Failing l mempsize s a ↔ lan8720Loop a.lan8720Init 0 = false ∨ a.netifAdd = false := by
  simp only [Failing, lwipCommInit, ethMemMalloc_eq, lwipCommMemMalloc_eq, ne_eq, not_true_eq_false,
    if_false]
  cases lan8720Loop a.lan8720Init 0 <;> cases a.netifAdd <;> simp

/-- The PHY does not answer. -/
def phyDead : Attempt := ⟨fun _ => 1, true⟩

theorem phyDead_failing (s : Startup) : Failing sramPlacement 20000 s phyDead :=
  (failing_iff sramPlacement 20000 s phyDead).mpr
    (.inl (lan8720Loop_dead (fun _ => (by decide : (1 : BitVec 8) ≠ 0)) 0))

/-- Two such calls on a full pool. -/
theorem retry_leakFree_full :
    Along (retry sramPlacement 20000)
        (fun s a => Failing sramPlacement 20000 s a → LeakFree sramPlacement 20000 s a)
        ⟨(Heap.run .sramin .unset [.malloc 65536]).pool, fun _ => null⟩ [phyDead, phyDead] ↔
      Starved 20000 (Heap.run .sramin .unset [.malloc 65536]).pool :=
  retry_leakFree_iff sramPlacement 20000 .unset [.malloc 65536] (fun _ => null)
    [phyDead, phyDead] (by simp)
    ⟨phyDead_failing _, phyDead_failing _, trivial⟩

/-- One on the pool main starts with. -/
theorem phyDead_leaks :
    ¬ Along (retry sramPlacement 20000)
      (fun s a => Failing sramPlacement 20000 s a → LeakFree sramPlacement 20000 s a)
      ⟨(Heap.run .sramin .unset []).pool, fun _ => null⟩ [phyDead] := by
  intro h
  have hleak := h.1 (phyDead_failing _)
  have hstarved := (leakFree_iff (Heap.ready_run .unset []) 20000 phyDead).mp hleak
  exact fresh_grants (by decide) (by decide) (hstarved _ List.mem_cons_self)

end Startup

end Stm32F4.Memory
