import Stm32F4.Ethernetif.Output

/-! `low_level_input`: a frame out of the receive ring into a chain of pbufs.

The copy is the mirror image of the one in `low_level_output`: the descriptor buffers are
read as one stream, and every segment gets the next bytes of it (`scatter_spec`). The
descriptors go back to the DMA whether or not there was a chain to copy to.

`pbuf_alloc` and what happens to a chain behind `netif->input` belong to the stack and are
parameters (`Netif`). -/
namespace Stm32F4.Ethernetif
open Hal Lib

/-- A call of `memcpy` from a descriptor buffer, to `off` behind a payload of `room` bytes. -/
structure RxCopy where
  src : Nat
  room : Nat
  off : Nat
  len : Nat

/-- The variables of the loops that go on from segment to segment, and the calls of `memcpy`. -/
structure Scatter where
  dmarxdesc : Nat
  buffer : Nat
  bufferoffset : Nat
  copies : List RxCopy

section Loops
variable (tab : Nat → EthDmaDesc) (mem : Nat → UInt8)

def Scatter.read (s : Scatter) (q : Pbuf) (payloadoffset n : Nat) : Pbuf :=
  { q with
    payload := memcpy q.payload payloadoffset (fun i => mem (s.buffer + s.bufferoffset + i)) n }

def Scatter.log (s : Scatter) (q : Pbuf) (payloadoffset n : Nat) : Scatter :=
  { s with copies := s.copies ++ [⟨s.buffer + s.bufferoffset, q.len, payloadoffset, n⟩] }

/-- The inner loop: the rest of a buffer, and whole ones. It comes back with
`byteslefttocopy` and `payloadoffset`. -/
def drainFull (q : Pbuf) (byteslefttocopy payloadoffset : Nat) (s : Scatter) :
    Nat × Nat × Pbuf × Scatter :=
  if _hmore : byteslefttocopy + s.bufferoffset > ethRxBufSize then
    let n := ethRxBufSize - s.bufferoffset
    let d := (tab s.dmarxdesc).buffer2NextDescAddr
    drainFull (s.read mem q payloadoffset n) (byteslefttocopy - n) (payloadoffset + n)
      { s.log q payloadoffset n with
        dmarxdesc := d, buffer := (tab d).buffer1Addr, bufferoffset := 0 }
  else (byteslefttocopy, payloadoffset, q, s)
termination_by byteslefttocopy + s.bufferoffset
decreasing_by
  show byteslefttocopy - (ethRxBufSize - s.bufferoffset) + 0 < byteslefttocopy + s.bufferoffset
  have := ethRxBufSize_pos
  omega

/-- One segment. -/
def drainSegment (q : Pbuf) (s : Scatter) : Pbuf × Scatter :=
  let (byteslefttocopy, payloadoffset, q, s) := drainFull tab mem q q.len 0 s
  (s.read mem q payloadoffset byteslefttocopy,
    { s.log q payloadoffset byteslefttocopy with bufferoffset := s.bufferoffset + byteslefttocopy })

def scatter : List Pbuf → Scatter → List Pbuf × Scatter
  | [], s => ([], s)
  | q :: p, s =>
    let (q, s) := drainSegment tab mem q s
    let (p, s) := scatter p s
    (q :: p, s)

end Loops

/-- The loop that gives `n` descriptors from `d` on back to the DMA, and which these were. -/
def release : Nat → Nat → (Nat → EthDmaDesc) → (Nat → EthDmaDesc) × List Nat
  | 0, _, tab => (tab, [])
  | n + 1, d, tab =>
    let tab := Function.update tab d ((tab d).setStatus ethDmaRxDescOwn)
    let r := release n (tab d).buffer2NextDescAddr tab
    (r.1, d :: r.2)

/-- Reception suspended for want of buffers goes on. -/
def resumeRx (h : Eth) : Eth :=
  if h.dmasr &&& ethDmasrRbus ≠ 0 then { h.writeDmasr ethDmasrRbus with dmarpdr := h.dmarpdr + 1 }
  else h

/-- The stack: `pbuf_alloc(PBUF_RAW, len, PBUF_POOL)`, `netif->input` and `pbuf_free`. -/
structure Netif (σ : Type) where
  pbufAlloc : σ → Nat → Option (List Pbuf) × σ
  /-- the segments add up to the length asked for -/
  totLen_pbufAlloc : ∀ s len p, (pbufAlloc s len).1 = some p → totLen p = len
  input : σ → List Pbuf → Err × σ
  pbufFree : σ → List Pbuf → σ

variable {σ : Type}

/-- `if(len>0) p=pbuf_alloc(PBUF_RAW,len,PBUF_POOL)` -/
def Netif.alloc (net : Netif σ) (s : σ) (len : Nat) : Option (List Pbuf) × σ :=
  if 0 < len then net.pbufAlloc s len else (none, s)

theorem Netif.totLen_alloc (net : Netif σ) {s : σ} {len : Nat} {p : List Pbuf}
    (h : (net.alloc s len).1 = some p) : totLen p = len := by
  rw [Netif.alloc] at h
  split at h
  · exact net.totLen_pbufAlloc s len p h
  · cases h

/-- What a call comes to: the chain it returns, the state it leaves, its calls of `memcpy` and the
descriptors it has given back. -/
structure Input (σ : Type) where
  p : Option (List Pbuf)
  eth : Eth
  stack : σ
  copies : List RxCopy
  released : List Nat

/-- `uint16_t len` -/
def frameLength (i : RxFrameInfos) : Nat := (i.length.setWidth 16).toNat

/-- What follows a successful `HAL_ETH_GetReceivedFrame`. -/
def takeFrame (net : Netif σ) (s : σ) (h : Eth) : Input σ :=
  let i := h.rxFrameInfos
  let a := net.alloc s (frameLength i)
  let c := a.1.map fun p => scatter h.rxTab h.mem p ⟨i.fsRxDesc, i.buffer, 0, []⟩
  let r := release i.segCount i.fsRxDesc h.rxTab
  let h := { h with rxTab := r.1, rxFrameInfos := { i with segCount := 0 } }
  ⟨c.map Prod.fst, resumeRx h, a.2, (c.map fun c => c.2.copies).getD [], r.2⟩

def lowLevelInput (net : Netif σ) (s : σ) (h : Eth) : Input σ :=
  let r := halEthGetReceivedFrame h
  if r.1 ≠ .ok then ⟨none, r.2, s, [], []⟩ else takeFrame net s r.2

/-! ### The stream out of the buffers -/

/-- `len` bytes of the descriptor buffers in ring order, from the start of that of `d` on. -/
def frameBytes (h : Eth) (d len : Nat) : List UInt8 :=
  firstCells (fun j => h.mem (cell ethRxBufSize (bufferAt h.rxTab d) j)) len

/-- A copy within its segment and within one descriptor buffer. -/
structure RxCopy.Within (tab : Nat → EthDmaDesc) (start : Nat) (c : RxCopy) : Prop where
  payload : c.off + c.len ≤ c.room
  buffer : ∃ i, bufferAt tab start i ≤ c.src ∧ c.src + c.len ≤ bufferAt tab start i + ethRxBufSize

/-- Between two copies: `pos` bytes have been read, and the next one is in the `i`-th buffer. -/
structure Scattering (tab : Nat → EthDmaDesc) (start pos i : Nat) (s : Scatter) : Prop where
  desc : s.dmarxdesc = walk tab start i
  buffer : s.buffer = bufferAt tab start i
  offset_le : s.bufferoffset ≤ ethRxBufSize
  pos : pos = ethRxBufSize * i + s.bufferoffset
  within : ∀ c ∈ s.copies, RxCopy.Within tab start c

variable {tab : Nat → EthDmaDesc} {mem : Nat → UInt8} {start pos i : Nat} {s : Scatter}

/-- The bytes of the ring from position `pos` on. -/
def onward (tab : Nat → EthDmaDesc) (mem : Nat → UInt8) (start pos : Nat) : Nat → UInt8 :=
  fun j => mem (cell ethRxBufSize (bufferAt tab start) (pos + j))

/-- A copy within the segment and within the buffer reads on. -/
theorem Scattering.read {off n : Nat} (h : Scattering tab start (pos + off) i s) (q : Pbuf)
    (hoff : off + n ≤ q.len) (hn : s.bufferoffset + n ≤ ethRxBufSize)
    (hq : firstCells q.payload off = firstCells (onward tab mem start pos) off) :
    firstCells (s.read mem q off n).payload (off + n) =
      firstCells (onward tab mem start pos) (off + n) ∧
      Scattering tab start (pos + (off + n)) i
        { s.log q off n with bufferoffset := s.bufferoffset + n } := by
  constructor
  · show firstCells (memcpy q.payload off (fun j => mem (s.buffer + s.bufferoffset + j)) n)
      (off + n) = _
    rw [firstCells_memcpy, hq, firstCells_add]
    congr 1
    rw [h.buffer, stream_read mem hn, ← h.pos]
    refine firstCells_congr fun j _ => ?_
    rw [onward, Nat.add_assoc]
  · refine ⟨h.desc, h.buffer, hn, ?_, fun c hc => ?_⟩
    · show pos + (off + n) = ethRxBufSize * i + (s.bufferoffset + n)
      have hpos := h.pos
      omega
    · rcases List.mem_append.mp hc with hc | hc
      · exact h.within c hc
      · rw [List.mem_singleton.mp hc]
        refine ⟨hoff, i, ?_, ?_⟩
        · show _ ≤ s.buffer + s.bufferoffset
          rw [h.buffer]
          exact Nat.le_add_right _ _
        · show s.buffer + s.bufferoffset + n ≤ _
          rw [h.buffer]
          omega

/-- With a buffer read to its end, the frame goes on at the start of the next. -/
theorem Scattering.advance (h : Scattering tab start pos i s)
    (hfull : s.bufferoffset = ethRxBufSize) :
    Scattering tab start pos (i + 1) { s with
      dmarxdesc := (tab s.dmarxdesc).buffer2NextDescAddr
      buffer := (tab (tab s.dmarxdesc).buffer2NextDescAddr).buffer1Addr, bufferoffset := 0 } := by
  have hnext : (tab s.dmarxdesc).buffer2NextDescAddr = walk tab start (i + 1) := by
    rw [h.desc, walk_succ]
  refine ⟨hnext, ?_, Nat.zero_le _, ?_, h.within⟩
  · show (tab (tab s.dmarxdesc).buffer2NextDescAddr).buffer1Addr = _
    rw [hnext, bufferAt]
  · show pos = ethRxBufSize * (i + 1) + 0
    rw [h.pos, hfull, Nat.mul_succ, Nat.add_zero]

/-- What the inner loop comes back with: `done` bytes of the segment are in, the rest is in the
buffer. -/
structure ReadOn (tab : Nat → EthDmaDesc) (mem : Nat → UInt8) (start pos len : Nat)
    (r : Nat × Nat × Pbuf × Scatter) : Prop where
  room : r.2.2.1.len = len
  segment : r.2.1 + r.1 = len
  fits : r.2.2.2.bufferoffset + r.1 ≤ ethRxBufSize
  payload : firstCells r.2.2.1.payload r.2.1 = firstCells (onward tab mem start pos) r.2.1
  scattering : ∃ i, Scattering tab start (pos + r.2.1) i r.2.2.2

theorem drainFull_spec (mem : Nat → UInt8) (q : Pbuf) (left done : Nat) (s : Scatter)
    (h : Scattering tab start (pos + done) i s) (hsegment : done + left = q.len)
    (hq : firstCells q.payload done = firstCells (onward tab mem start pos) done) :
    ReadOn tab mem start pos q.len (drainFull tab mem q left done s) := by
  fun_induction drainFull tab mem q left done s generalizing i with
  | case1 q left done s hmore n d =>
    rename_i ih
    have hoff := h.offset_le
    obtain ⟨hpayload, hread⟩ :=
      h.read (n := ethRxBufSize - s.bufferoffset) q (by omega) (by omega) hq
    have hnext := hread.advance (show s.bufferoffset + (ethRxBufSize - s.bufferoffset) = _ by omega)
    refine ih hnext ?_ hpayload
    show done + (ethRxBufSize - s.bufferoffset) + (left - (ethRxBufSize - s.bufferoffset)) = q.len
    omega
  | case2 q left done s hmore =>
    exact ⟨rfl, hsegment, by show s.bufferoffset + left ≤ _; omega, hq, i, h⟩

/-- A segment gets the next bytes of the ring. -/
theorem drainSegment_spec (mem : Nat → UInt8) (q : Pbuf) (h : Scattering tab start pos i s) :
    (drainSegment tab mem q s).1.len = q.len ∧
      (drainSegment tab mem q s).1.bytes = firstCells (onward tab mem start pos) q.len ∧
      ∃ i', Scattering tab start (pos + q.len) i' (drainSegment tab mem q s).2 := by
  have hfull := drainFull_spec mem q q.len 0 s h (Nat.zero_add _) rfl
  rw [drainSegment]
  generalize drainFull tab mem q q.len 0 s = r at hfull
  obtain ⟨left, done, q', s'⟩ := r
  obtain ⟨hlen, hsegment, hfits, hpayload, i', hs'⟩ := hfull
  simp only at hlen hsegment hfits hpayload hs'
  obtain ⟨hread, hlast⟩ := hs'.read (n := left) q' (by omega) hfits hpayload
  rw [hsegment] at hread hlast
  refine ⟨hlen, ?_, i', hlast⟩
  show firstCells (s'.read mem q' done left).payload q'.len = _
  rw [hlen]
  exact hread

/-- A chain gets the bytes of the ring, in order. -/
theorem scatter_spec (mem : Nat → UInt8) (p : List Pbuf) (h : Scattering tab start pos i s) :
    (scatter tab mem p s).1.map Pbuf.len = p.map Pbuf.len ∧
      payload (scatter tab mem p s).1 = firstCells (onward tab mem start pos) (totLen p) ∧
      ∀ c ∈ (scatter tab mem p s).2.copies, RxCopy.Within tab start c := by
  induction p generalizing pos i s with
  | nil => exact ⟨rfl, rfl, h.within⟩
  | cons q p ih =>
    obtain ⟨hlen, hbytes, i', hs'⟩ := drainSegment_spec mem q h
    obtain ⟨hlens, hpayload, hwithin⟩ := ih hs'
    refine ⟨?_, ?_, hwithin⟩
    · show (drainSegment tab mem q s).1.len :: _ = q.len :: _
      rw [hlen]
      exact congrArg _ hlens
    · show (drainSegment tab mem q s).1.bytes ++
        payload (scatter tab mem p (drainSegment tab mem q s).2).1 = _
      rw [hbytes, hpayload, show totLen (q :: p) = q.len + totLen p from List.sum_cons,
        firstCells_add]
      congr 1
      refine firstCells_congr fun j _ => ?_
      rw [onward, onward, Nat.add_assoc]

/-! ### The descriptors -/

theorem setStatus_setStatus (d : EthDmaDesc) (mask : BitVec 32) :
    (d.setStatus mask).setStatus mask = d.setStatus mask := by
  simp only [EthDmaDesc.setStatus, BitVec.or_assoc, BitVec.or_self]

/-- Who owns a descriptor does not matter to its links. -/
theorem update_links (tab : Nat → EthDmaDesc) (d : Nat) (mask : BitVec 32) (e : Nat) :
    (Function.update tab d ((tab d).setStatus mask) e).buffer2NextDescAddr =
      (tab e).buffer2NextDescAddr ∧
      (Function.update tab d ((tab d).setStatus mask) e).buffer1Addr = (tab e).buffer1Addr := by
  by_cases he : e = d
  · subst he
    rw [Function.update_self, EthDmaDesc.setStatus]
    exact ⟨rfl, rfl⟩
  · rw [Function.update_of_ne he]
    exact ⟨rfl, rfl⟩

theorem walk_update (tab : Nat → EthDmaDesc) (d : Nat) (mask : BitVec 32) :
    walk (Function.update tab d ((tab d).setStatus mask)) = walk tab :=
  walk_congr fun e => (update_links tab d mask e).1

/-- The descriptors go back in the order of the ring, and no other one does. -/
theorem release_eq (n d : Nat) (tab : Nat → EthDmaDesc) :
    (release n d tab).2 = (List.range n).map (walk tab d) ∧
      ∀ e, (release n d tab).1 e =
        if e ∈ (List.range n).map (walk tab d) then (tab e).setStatus ethDmaRxDescOwn
        else tab e := by
  induction n generalizing d tab with
  | zero => exact ⟨rfl, fun e => by simp [release]⟩
  | succ n ih =>
    have hnext : (Function.update tab d ((tab d).setStatus ethDmaRxDescOwn) d).buffer2NextDescAddr =
        (tab d).buffer2NextDescAddr := by
      rw [Function.update_self, EthDmaDesc.setStatus]
    have hlist : (List.range (n + 1)).map (walk tab d) =
        d :: (List.range n).map (walk tab (tab d).buffer2NextDescAddr) := by
      rw [List.range_succ_eq_map, List.map_cons, List.map_map]
      rfl
    obtain ⟨hreleased, htab⟩ := ih (tab d).buffer2NextDescAddr
      (Function.update tab d ((tab d).setStatus ethDmaRxDescOwn))
    rw [walk_update] at hreleased htab
    rw [hlist, release]
    simp only [hnext]
    refine ⟨congrArg (d :: ·) hreleased, fun e => ?_⟩
    rw [htab e]
    by_cases he : e = d
    · subst he
      rw [Function.update_self, setStatus_setStatus, if_pos List.mem_cons_self, ite_self]
    · simp only [Function.update_of_ne he, List.mem_cons, he, false_or]

/-! ### After a frame has been taken -/

theorem resumeRx_rest (h : Eth) : (resumeRx h).rxDesc = h.rxDesc ∧ (resumeRx h).rxTab = h.rxTab ∧
    (resumeRx h).lock = h.lock ∧ (resumeRx h).rxFrameInfos = h.rxFrameInfos ∧
    (resumeRx h).mem = h.mem := by
  rw [resumeRx]
  split <;> exact ⟨rfl, rfl, rfl, rfl, rfl⟩

/-- Whether or not there was a chain, the segments counted go back to the DMA. -/
structure Released (h : Eth) (r : Input σ) : Prop where
  released :
    r.released = (List.range h.rxFrameInfos.segCount).map (walk h.rxTab h.rxFrameInfos.fsRxDesc)
  rxTab : ∀ e, r.eth.rxTab e =
    if e ∈ (List.range h.rxFrameInfos.segCount).map (walk h.rxTab h.rxFrameInfos.fsRxDesc) then
      (h.rxTab e).setStatus ethDmaRxDescOwn
    else h.rxTab e
  segCount : r.eth.rxFrameInfos.segCount = 0
  rxDesc : r.eth.rxDesc = h.rxDesc
  lock : r.eth.lock = h.lock
  mem : r.eth.mem = h.mem

theorem takeFrame_released (net : Netif σ) (s : σ) (h : Eth) : Released h (takeFrame net s h) := by
  obtain ⟨hreleased, htab⟩ := release_eq h.rxFrameInfos.segCount h.rxFrameInfos.fsRxDesc h.rxTab
  obtain ⟨r1, r2, r3, r4, r5⟩ := resumeRx_rest { h with
    rxTab := (release h.rxFrameInfos.segCount h.rxFrameInfos.fsRxDesc h.rxTab).1
    rxFrameInfos := { h.rxFrameInfos with segCount := 0 } }
  refine ⟨hreleased, fun e => ?_, ?_, r1, r3, r5⟩
  · rw [← htab e]
    exact congrFun r2 e
  · exact congrArg RxFrameInfos.segCount r4

theorem takeFrame_stack (net : Netif σ) (s : σ) (h : Eth) :
    (takeFrame net s h).stack = (net.alloc s (frameLength h.rxFrameInfos)).2 := rfl

theorem takeFrame_none (net : Netif σ) {s : σ} {h : Eth}
    (ha : (net.alloc s (frameLength h.rxFrameInfos)).1 = none) : (takeFrame net s h).p = none := by
  rw [takeFrame]
  simp only [ha]
  rfl

/-- The chain that comes back has the segments it was allocated with, and the frame in them. -/
theorem takeFrame_some (net : Netif σ) {s : σ} {h : Eth} {p : List Pbuf}
    (ha : (net.alloc s (frameLength h.rxFrameInfos)).1 = some p)
    (hbuffer : h.rxFrameInfos.buffer = bufferAt h.rxTab h.rxFrameInfos.fsRxDesc 0) :
    ∃ p', (takeFrame net s h).p = some p' ∧ p'.map Pbuf.len = p.map Pbuf.len ∧
      payload p' = frameBytes h h.rxFrameInfos.fsRxDesc (frameLength h.rxFrameInfos) ∧
      ∀ c ∈ (takeFrame net s h).copies, RxCopy.Within h.rxTab h.rxFrameInfos.fsRxDesc c := by
  have hstart : Scattering h.rxTab h.rxFrameInfos.fsRxDesc 0 0
      ⟨h.rxFrameInfos.fsRxDesc, h.rxFrameInfos.buffer, 0, []⟩ :=
    ⟨rfl, hbuffer, Nat.zero_le _, rfl, fun c hc => by cases hc⟩
  obtain ⟨hlens, hpayload, hwithin⟩ := scatter_spec h.mem p hstart
  rw [net.totLen_alloc ha] at hpayload
  rw [takeFrame]
  simp only [ha]
  refine ⟨_, rfl, hlens, ?_, hwithin⟩
  rw [hpayload, frameBytes]
  refine firstCells_congr fun j _ => ?_
  rw [onward, Nat.zero_add]

end Stm32F4.Ethernetif
