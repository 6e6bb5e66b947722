import Mathlib.Logic.Function.Iterate
import Stm32F4.Hal.Dma
import Stm32F4.Lib.Blocks

/-! The Ethernet controller: its descriptors and the driver calls on them.

Frames travel through two rings of descriptors, one for each direction. A descriptor
has a buffer and says who may work on it: the DMA while the OWN bit is set, the
program otherwise. Each points to the next, the last to the first.

Pointers to descriptors are indices into the table of their ring, and addresses of
buffers are natural numbers. The handle, the registers the driver uses and the
memory the buffers lie in are one state. Left out: the extended words of a
descriptor and the list address registers, which nothing reads. -/
namespace Stm32F4.Hal
open Lib

def ethMaxPacketSize : Nat := 1524
def ethRxBufSize : Nat := ethMaxPacketSize
def ethTxBufSize : Nat := ethMaxPacketSize
def ethRxBufNb : Nat := 4
def ethTxBufNb : Nat := 4

theorem ethTxBufSize_pos : 0 < ethTxBufSize := by decide
theorem ethRxBufSize_pos : 0 < ethRxBufSize := by decide

/-! ### Bits -/

def ethDmaTxDescOwn : BitVec 32 := 0x80000000
def ethDmaTxDescLs : BitVec 32 := 0x20000000
def ethDmaTxDescFs : BitVec 32 := 0x10000000
def ethDmaTxDescTch : BitVec 32 := 0x00100000
def ethDmaTxDescChecksumTcpUdpIcmpFull : BitVec 32 := 0x00C00000
def ethDmaTxDescTbs1 : BitVec 32 := 0x00001FFF

def ethDmaRxDescOwn : BitVec 32 := 0x80000000
def ethDmaRxDescFl : BitVec 32 := 0x3FFF0000
def ethDmaRxDescEs : BitVec 32 := 0x00008000
def ethDmaRxDescFs : BitVec 32 := 0x00000200
def ethDmaRxDescLs : BitVec 32 := 0x00000100
def ethDmaRxDescFrameLengthShift : Nat := 16
def ethDmaRxDescDic : BitVec 32 := 0x80000000
def ethDmaRxDescRch : BitVec 32 := 0x00004000

def ethDmasrTbus : BitVec 32 := 0x00000004
def ethDmasrTus : BitVec 32 := 0x00000020
def ethDmasrRbus : BitVec 32 := 0x00000080
def ethDmaItR : BitVec 32 := 0x00000040
def ethDmaItNis : BitVec 32 := 0x00010000

/-! ### Descriptors -/

structure EthDmaDesc where
  status : BitVec 32
  controlBufferSize : BitVec 32
  buffer1Addr : Nat
  buffer2NextDescAddr : Nat

/-- `(Status & mask) != RESET` -/
def flagged (status mask : BitVec 32) : Bool := status &&& mask != 0

def EthDmaDesc.flag (d : EthDmaDesc) (mask : BitVec 32) : Bool := flagged d.status mask

def EthDmaDesc.setStatus (d : EthDmaDesc) (mask : BitVec 32) : EthDmaDesc :=
  { d with status := d.status ||| mask }

/-- The descriptor `i` places after `d`. -/
def walk (tab : Nat → EthDmaDesc) (d i : Nat) : Nat := (fun d => (tab d).buffer2NextDescAddr)^[i] d

/-- Where the buffer of that descriptor lies. -/
def bufferAt (tab : Nat → EthDmaDesc) (d i : Nat) : Nat := (tab (walk tab d i)).buffer1Addr

/-- The `count` descriptors of a table form a ring over buffers of one size, side by side from
`buff` on. -/
structure Linked (tab : Nat → EthDmaDesc) (buff size count : Nat) : Prop where
  next : ∀ i, i < count → (tab i).buffer2NextDescAddr = (i + 1) % count
  buffer : ∀ i, i < count → (tab i).buffer1Addr = buff + i * size

section Ring
variable {tab : Nat → EthDmaDesc} {buff size count d : Nat}

theorem walk_zero (tab : Nat → EthDmaDesc) (d : Nat) : walk tab d 0 = d := rfl

theorem walk_succ (tab : Nat → EthDmaDesc) (d i : Nat) :
    walk tab d (i + 1) = (tab (walk tab d i)).buffer2NextDescAddr :=
  Function.iterate_succ_apply' _ i d

theorem walk_add (tab : Nat → EthDmaDesc) (d i j : Nat) :
    walk tab d (i + j) = walk tab (walk tab d i) j := by
  rw [Nat.add_comm, walk, Function.iterate_add_apply]
  rfl

theorem walk_eq (h : Linked tab buff size count) (hd : d < count) (i : Nat) :
    walk tab d i = (d + i) % count := by
  induction i with
  | zero => exact (Nat.mod_eq_of_lt hd).symm
  | succ i ih =>
    rw [walk_succ, ih, h.next _ (Nat.mod_lt _ (by omega)), Nat.mod_add_mod, Nat.add_assoc]

theorem walk_lt (h : Linked tab buff size count) (hd : d < count) (i : Nat) :
    walk tab d i < count := by
  rw [walk_eq h hd]
  exact Nat.mod_lt _ (by omega)

/-- One round visits each descriptor once. -/
theorem walk_inj (h : Linked tab buff size count) (hd : d < count) {i j : Nat} (hi : i < count)
    (hj : j < count) (heq : walk tab d i = walk tab d j) : i = j := by
  have hwrap : ∀ k, k < count →
      (d + k) % count = if d + k < count then d + k else d + k - count := by
    intro k hk
    split
    · next hlt => exact Nat.mod_eq_of_lt hlt
    · next hge => rw [Nat.mod_eq_sub_mod (by omega), Nat.mod_eq_of_lt (by omega)]
  rw [walk_eq h hd, walk_eq h hd, hwrap i hi, hwrap j hj] at heq
  split at heq <;> split at heq <;> omega

/-- It reaches every descriptor. -/
theorem exists_walk (h : Linked tab buff size count) (hd : d < count) {e : Nat} (he : e < count) :
    ∃ i, i < count ∧ walk tab d i = e := by
  refine ⟨(e + (count - d)) % count, Nat.mod_lt _ (by omega), ?_⟩
  rw [walk_eq h hd, Nat.add_mod_mod, show d + (e + (count - d)) = e + count by omega,
    Nat.add_mod_right, Nat.mod_eq_of_lt he]

/-- After a round the walk starts again. -/
theorem walk_count (h : Linked tab buff size count) (hd : d < count) : walk tab d count = d := by
  rw [walk_eq h hd, Nat.add_mod_right, Nat.mod_eq_of_lt hd]

/-- The buffers of one round do not overlap. -/
theorem separate_walk (h : Linked tab buff size count) (hd : d < count) :
    Separate size (bufferAt tab d) count := by
  intro i j hi hj hne
  have hwalk : walk tab d i ≠ walk tab d j := fun heq => hne (walk_inj h hd hi hj heq)
  rw [bufferAt, bufferAt, h.buffer _ (walk_lt h hd i), h.buffer _ (walk_lt h hd j)]
  rcases Nat.lt_or_gt_of_ne hwalk with hlt | hlt
  · left
    have hmul := Nat.mul_le_mul_right size (Nat.succ_le_of_lt hlt)
    rw [Nat.succ_mul] at hmul
    omega
  · right
    have hmul := Nat.mul_le_mul_right size (Nat.succ_le_of_lt hlt)
    rw [Nat.succ_mul] at hmul
    omega

/-- The order of the ring is a matter of its links alone. -/
theorem walk_congr {tab' : Nat → EthDmaDesc}
    (h : ∀ d, (tab' d).buffer2NextDescAddr = (tab d).buffer2NextDescAddr) :
    walk tab' = walk tab := by
  funext d i
  rw [walk, walk, funext h]

theorem bufferAt_congr {tab' : Nat → EthDmaDesc}
    (h : ∀ d, (tab' d).buffer2NextDescAddr = (tab d).buffer2NextDescAddr)
    (hb : ∀ d, (tab' d).buffer1Addr = (tab d).buffer1Addr) : bufferAt tab' = bufferAt tab := by
  funext d i
  rw [bufferAt, bufferAt, walk_congr h, hb]

end Ring

/-! ### The handle -/

inductive EthState where
  | reset | ready | busy | busyTx
deriving DecidableEq, Repr

structure RxFrameInfos where
  fsRxDesc : Nat
  /-- `none` is `NULL` -/
  lsRxDesc : Option Nat
  segCount : Nat
  length : BitVec 32
  buffer : Nat

/-- `ETH_HandleTypeDef`, with what its pointers lead to. -/
structure Eth where
  /-- `Init.ChecksumMode` is `ETH_CHECKSUM_BY_HARDWARE` -/
  checksumByHardware : Bool
  /-- `Init.RxMode` is `ETH_RXINTERRUPT_MODE` -/
  rxInterruptMode : Bool
  rxDesc : Nat
  txDesc : Nat
  rxFrameInfos : RxFrameInfos
  state : EthState
  lock : HalLock
  dmasr : BitVec 32
  /-- how often the poll demand registers have been written -/
  dmatpdr : Nat
  dmarpdr : Nat
  /-- `DMARxDscrTab` and `DMATxDscrTab` -/
  rxTab : Nat → EthDmaDesc
  txTab : Nat → EthDmaDesc
  mem : Nat → UInt8

namespace Eth

/-- The bits of `DMASR` are cleared by writing ones. -/
def writeDmasr (h : Eth) (bits : BitVec 32) : Eth := { h with dmasr := h.dmasr &&& ~~~bits }

/-- `__HAL_UNLOCK`, after the state has been set to ready. -/
def ready (h : Eth) : Eth := { h with state := .ready, lock := .unlocked }

/-- `__HAL_LOCK`, and the state set to busy. -/
def busy (h : Eth) : Eth := { h with lock := .locked, state := .busy }

end Eth

/-! ### Setting the rings up -/

def txDescInit (h : Eth) (txBuff txBuffCount i : Nat) (d : EthDmaDesc) : EthDmaDesc :=
  let d := { d with status := ethDmaTxDescTch, buffer1Addr := txBuff + i * ethTxBufSize }
  let d := if h.checksumByHardware then d.setStatus ethDmaTxDescChecksumTcpUdpIcmpFull else d
  { d with buffer2NextDescAddr := if i < txBuffCount - 1 then i + 1 else 0 }

def halEthDmaTxDescListInit (txBuff txBuffCount : Nat) (h : Eth) : HalStatus × Eth :=
  if h.lock = .locked then (.busy, h)
  else
    let h := { h.busy with txDesc := 0 }
    let tab := (List.range txBuffCount).foldl
      (fun tab i => Function.update tab i (txDescInit h txBuff txBuffCount i (tab i))) h.txTab
    (.ok, { h with txTab := tab }.ready)

def rxDescInit (h : Eth) (rxBuff rxBuffCount i : Nat) (d : EthDmaDesc) : EthDmaDesc :=
  let d := { d with
    status := ethDmaRxDescOwn, controlBufferSize := ethDmaRxDescRch ||| BitVec.ofNat 32 ethRxBufSize
    buffer1Addr := rxBuff + i * ethRxBufSize }
  let d :=
    if h.rxInterruptMode then { d with
    controlBufferSize := d.controlBufferSize &&& ~~~ethDmaRxDescDic }
    else d
  { d with buffer2NextDescAddr := if i < rxBuffCount - 1 then i + 1 else 0 }

def halEthDmaRxDescListInit (rxBuff rxBuffCount : Nat) (h : Eth) : HalStatus × Eth :=
  if h.lock = .locked then (.busy, h)
  else
    let h := { h.busy with rxDesc := 0 }
    let tab := (List.range rxBuffCount).foldl
      (fun tab i => Function.update tab i (rxDescInit h rxBuff rxBuffCount i (tab i))) h.rxTab
    (.ok, { h with rxTab := tab }.ready)

theorem linked_of_init {f : Nat → EthDmaDesc → EthDmaDesc} {tab : Nat → EthDmaDesc}
    {buff size count : Nat}
    (hnext : ∀ i d, (f i d).buffer2NextDescAddr = if i < count - 1 then i + 1 else 0)
    (hbuffer : ∀ i d, (f i d).buffer1Addr = buff + i * size) :
    Linked ((List.range count).foldl (fun tab i => Function.update tab i (f i (tab i))) tab)
      buff size count := by
  rw [foldl_update_range]
  refine ⟨fun i hi => ?_, fun i hi => ?_⟩
  · simp only [if_pos hi, hnext]
    split
    · next hlt => exact (Nat.mod_eq_of_lt (by omega)).symm
    · next hge =>
      obtain rfl : i + 1 = count := by omega
      exact (Nat.mod_self _).symm
  · simp only [if_pos hi, hbuffer]

/-- The transmit descriptors form a ring, and the next one to use is in it. -/
theorem halEthDmaTxDescListInit_linked {h : Eth} (hl : h.lock = .unlocked) (txBuff : Nat)
    {count : Nat}
    (hc : 0 < count) :
    Linked (halEthDmaTxDescListInit txBuff count h).2.txTab txBuff ethTxBufSize count ∧
      (halEthDmaTxDescListInit txBuff count h).2.txDesc < count := by
  rw [halEthDmaTxDescListInit, if_neg (by rw [hl]; decide)]
  refine ⟨linked_of_init (fun i d => rfl) fun i d => ?_, hc⟩
  simp only [txDescInit]
  split <;> rfl

/-- So do the receive descriptors. -/
theorem halEthDmaRxDescListInit_linked {h : Eth} (hl : h.lock = .unlocked) (rxBuff : Nat)
    {count : Nat}
    (hc : 0 < count) :
    Linked (halEthDmaRxDescListInit rxBuff count h).2.rxTab rxBuff ethRxBufSize count ∧
      (halEthDmaRxDescListInit rxBuff count h).2.rxDesc < count := by
  rw [halEthDmaRxDescListInit, if_neg (by rw [hl]; decide)]
  refine ⟨linked_of_init (fun i d => rfl) fun i d => ?_, hc⟩
  simp only [rxDescInit]
  split <;> rfl

/-! ### Sending a frame -/

/-- How many buffers a frame takes, as `HAL_ETH_TransmitFrame` counts them. -/
def bufcount (frameLength : Nat) : Nat :=
  if frameLength > ethTxBufSize then
    frameLength / ethTxBufSize + if frameLength % ethTxBufSize ≠ 0 then 1 else 0
  else 1

/-- Writes to `*heth->TxDesc`. -/
def Eth.setTxDesc (h : Eth) (f : EthDmaDesc → EthDmaDesc) : Eth :=
  { h with txTab := Function.update h.txTab h.txDesc (f (h.txTab h.txDesc)) }

/-- `heth->TxDesc = heth->TxDesc->Buffer2NextDescAddr` -/
def Eth.nextTxDesc (h : Eth) : Eth := { h with txDesc := (h.txTab h.txDesc).buffer2NextDescAddr }

/-- A frame that fits one buffer. -/
def transmitSingle (frameLength : Nat) (h : Eth) : Eth :=
  let h := h.setTxDesc fun d => { d.setStatus (ethDmaTxDescFs ||| ethDmaTxDescLs) with
    controlBufferSize := BitVec.ofNat 32 frameLength &&& ethDmaTxDescTbs1 }
  (h.setTxDesc fun d => d.setStatus ethDmaTxDescOwn).nextTxDesc

/-- The `i`-th pass of the loop over the buffers of a longer one. -/
def transmitSegment (frameLength : Nat) (h : Eth) (i : Nat) : Eth :=
  let h :=
    h.setTxDesc fun d => { d with status := d.status &&& ~~~(ethDmaTxDescFs ||| ethDmaTxDescLs) }
  let h := if i = 0 then h.setTxDesc fun d => d.setStatus ethDmaTxDescFs else h
  let h := h.setTxDesc fun d => { d with
    controlBufferSize := BitVec.ofNat 32 ethTxBufSize &&& ethDmaTxDescTbs1 }
  let h := if i = bufcount frameLength - 1 then
      h.setTxDesc fun d => { d.setStatus ethDmaTxDescLs with
        controlBufferSize :=
          BitVec.ofNat 32 (frameLength - (bufcount frameLength - 1) * ethTxBufSize) &&&
            ethDmaTxDescTbs1 }
    else h
  (h.setTxDesc fun d => d.setStatus ethDmaTxDescOwn).nextTxDesc

/-- The buffers of a frame go to the DMA. -/
def transmitBuffers (frameLength : Nat) (h : Eth) : Eth :=
  if bufcount frameLength = 1 then transmitSingle frameLength h
  else (List.range (bufcount frameLength)).foldl (transmitSegment frameLength) h

/-- A transmission suspended for want of buffers goes on. -/
def resumeTbus (h : Eth) : Eth :=
  if h.dmasr &&& ethDmasrTbus ≠ 0 then { h.writeDmasr ethDmasrTbus with dmatpdr := h.dmatpdr + 1 }
    else h

def halEthTransmitFrame (frameLength : Nat) (h : Eth) : HalStatus × Eth :=
  if h.lock = .locked then (.busy, h)
  else
    let h := h.busy
    if frameLength = 0 then (.error, h.ready)
    else if (h.txTab h.txDesc).flag ethDmaTxDescOwn then
      (.error, { h with state := .busyTx, lock := .unlocked })
    else (.ok, (resumeTbus (transmitBuffers frameLength h)).ready)

/-! ### Receiving one -/

/-- `heth->RxDesc = heth->RxDesc->Buffer2NextDescAddr` -/
def Eth.nextRxDesc (h : Eth) : Eth := { h with rxDesc := (h.rxTab h.rxDesc).buffer2NextDescAddr }

/-- Looks at the next descriptor. Only one with the last-segment bit is a frame; any other
one of the program's is counted as a segment. -/
def halEthGetReceivedFrame (h : Eth) : HalStatus × Eth :=
  if h.lock = .locked then (.busy, h)
  else
    let h := h.busy
    let d := h.rxTab h.rxDesc
    let i := h.rxFrameInfos
    if d.flag ethDmaRxDescOwn then (.error, h.ready)
    else if d.flag ethDmaRxDescLs then
      let i := { i with segCount := i.segCount + 1 }
      let i := if i.segCount = 1 then { i with fsRxDesc := h.rxDesc } else i
      let i := { i with
        lsRxDesc := some h.rxDesc
        length := ((d.status &&& ethDmaRxDescFl) >>> ethDmaRxDescFrameLengthShift) - 4
        buffer := (h.rxTab i.fsRxDesc).buffer1Addr }
      (.ok, { h with rxFrameInfos := i }.nextRxDesc.ready)
    else if d.flag ethDmaRxDescFs then
      let i := { i with fsRxDesc := h.rxDesc, lsRxDesc := none, segCount := 1 }
      (.error, { h with rxFrameInfos := i }.nextRxDesc.ready)
    else
      let i := { i with segCount := i.segCount + 1 }
      (.error, { h with rxFrameInfos := i }.nextRxDesc.ready)

end Stm32F4.Hal
