import Stm32F4.Usart.Window

/-! What holds after `com_init` and after every event.

`Inv` joins the window of the port, the mode of its transmit side and what the four
flags say: a user buffer that has been processed is empty, bits 0 and 2 are set
only during a call of `com->func`, and during one bit 1 is clear and there is
something to process. No event breaks it, line errors included (`inv_step`), so it
holds in every state a run reaches (`inv_run`). -/
namespace Stm32F4.Usart
open Hal Lib

namespace Port
variable {p : Port} {m : RxMode} {t : TxMode}

/-! ### The transmit side, under the receive side's handlers -/

theorem rearm_inTxMode {r : Port × Nat} (h : r.1.huart.InTxMode t) : (rearm r).2.huart.InTxMode t :=
  halUartReceiveDma_inTxMode h _ _

theorem idlePrepare_huart (h : p.Window m) : p.idlePrepare.1.huart = halUartDmaStop p.huart := by
  rw [idlePrepare_eq h]
  split <;> rfl

/-- The mode of the transmit side after an interrupt of the UART. -/
def txAfterIrq (sr : Sr) (m : RxMode) (t : TxMode) : TxMode :=
  if sr.errors && m.receiving then t else if sr.tc then t.finish else t

theorem usartIrqHandler_inTxMode (h : p.Window m) (ht : p.huart.InTxMode t) (sr : Sr) :
    (p.usartIrqHandler sr).huart.InTxMode
      (if sr.idle then (txAfterIrq sr m t).stop else txAfterIrq sr m t) := by
  have hirq := halUartIrqHandler_inTxMode h.mode ht sr
  unfold usartIrqHandler
  split
  · refine rearm_inTxMode ?_
    rw [idlePrepare_huart (h.usartIrq sr)]
    exact halUartDmaStop_inTxMode hirq
  · exact hirq

theorem manageSwap_inTxMode (ht : p.huart.InTxMode t) :
    p.manageSwap.huart.InTxMode (if p.swaps then t.stop else t) := by
  unfold manageSwap
  split
  · exact rearm_inTxMode (halUartDmaStop_inTxMode ht)
  · exact ht

theorem dmaRxIrqHandler_inTxMode (h : p.Window m) (ht : p.huart.InTxMode t)
    (hp : p.huart.hdmarx.pending = true) : p.dmaRxIrqHandler.huart.InTxMode t := by
  rcases h.pending_cases hp with rfl | hm
  · rw [dmaRxIrqHandler_complete h]
    exact rearm_inTxMode (ht.congr rfl rfl rfl rfl)
  · rw [(dmaRxIrqHandler_aborting h hm).1]
    exact ht.congr rfl rfl rfl rfl

/-! ### Sending -/

/-- Only the handle changes. -/
theorem comSendStr_port (waited : BitVec 32) (str : Option Addr) (len : Nat) (p : Port) :
    (p.comSendStr waited str len).2 =
      { p with huart := (p.comSendStr waited str len).2.huart } := by
  unfold comSendStr
  split <;> rfl

/-- The receive stream does not notice a transmission. -/
theorem comSendStr_window (waited : BitVec 32) (str : Option Addr) (len : Nat) (p : Port) :
    (p.comSendStr waited str len).2.huart.hdmarx.window = p.huart.hdmarx.window := by
  unfold comSendStr
  split
  · rfl
  · rfl
  · exact congrArg DmaHandle.window (halUartTransmitDma_hdmarx p.huart str len)

theorem Window.comSendStr (h : p.Window m) (waited : BitVec 32) (str : Option Addr) (len : Nat) :
    (p.comSendStr waited str len).2.Window m := by
  rw [comSendStr_port]
  refine h.setHuart ?_ (comSendStr_window waited str len p)
  unfold Port.comSendStr
  split
  · exact h.mode
  · exact h.mode
  · exact halUartTransmitDma_inMode h.mode str len

/-- The stream has fetched everything: the driver waits for the line. -/
theorem dmaTxIrqHandler_drained (ht : p.huart.InTxMode .drained) : p.dmaTxIrqHandler =
    { p with huart := uartDmaTransmitCplt { p.huart with hdmatx := afterIrq p.huart.hdmatx } } := by
  have hpend : p.huart.hdmatx.pending = true := by rw [ht.pending]; rfl
  have hstate : p.huart.hdmatx.state ≠ .abort := by rw [ht.state]; decide
  unfold dmaTxIrqHandler halDmaIrqHandler
  simp only [show dmaTx.hdma p = p.huart.hdmatx from rfl, hpend, if_true, if_neg hstate]
  unfold reportError
  rw [if_neg]
  · rfl
  · exact fun hne => hne ht.clean

theorem txPending (ht : p.huart.InTxMode t) (hp : p.huart.hdmatx.pending = true) :
    t = .drained := by
  rw [ht.pending] at hp
  cases t <;> simp_all [TxMode.tcif]

/-- The stream's next fetch. -/
theorem txDmaRead_sending (ht : p.huart.InTxMode .sending) : p.txDmaRead =
    some (p.huart.hdmatx.m0ar.add p.huart.hdmatx.pos,
      { p with huart := { p.huart with hdmatx := p.huart.hdmatx.transfer } }) := by
  unfold txDmaRead
  rw [ht.en, ht.dmat]
  rfl

theorem txDmaRead_of_ne (ht : p.huart.InTxMode t) (hne : t ≠ .sending) : p.txDmaRead = none := by
  unfold txDmaRead
  rw [ht.en_eq_false hne]
  rfl

theorem comSendStr_inTxMode (h : p.Window m) (ht : p.huart.InTxMode t) (waited : BitVec 32)
    (str : Option Addr) (len : Nat) : ∃ t', (p.comSendStr waited str len).2.huart.InTxMode t' := by
  unfold comSendStr
  split
  · exact ⟨t, ht⟩
  · exact ⟨t, ht⟩
  · by_cases hr : t ≠ .idle ∨ str = none ∨ len = 0
    · refine ⟨t, ?_⟩
      show (halUartTransmitDma p.huart str len).2.InTxMode t
      rw [(halUartTransmitDma_refused ht hr).2]
      exact ht
    · obtain ⟨rfl, hstr, hlen⟩ : t = .idle ∧ str ≠ none ∧ len ≠ 0 := by simpa using hr
      obtain ⟨a, rfl⟩ := Option.ne_none_iff_exists'.mp hstr
      exact ⟨_, (halUartTransmitDma_idle ht h.mode.lock a (Nat.pos_of_ne_zero hlen)).2.1⟩

end Port

namespace World

/-! ### The flags -/

/-- What the flags say about the user's byte count and about a call under way. -/
structure Flags (s : BitVec 8) (receiveCount : Nat) (busy : Bool) : Prop where
  processed : s.getLsbD 1 = true → receiveCount = 0
  idle : busy = false → s.getLsbD 0 = false ∧ s.getLsbD 2 = false
  call : busy = true → s.getLsbD 0 = true ∧ s.getLsbD 1 = false ∧ 0 < receiveCount

namespace Flags
variable {s : BitVec 8} {n : Nat} {busy : Bool}

/-- Buffers are exchanged with no call under way. -/
theorem exchanged (h : Flags s n false) (n' : Nat) : Flags (s &&& ~~~0x2 &&& ~~~0x8) n' false := by
  obtain ⟨f0, f1, f2, -⟩ := Port.getLsbD_exchanged s
  refine ⟨fun h1 => ?_, fun _ => ?_, fun hb => by cases hb⟩
  · rw [f1] at h1
    cases h1
  · rw [f0, f2]
    exact h.idle rfl

/-- The flags are the same as far as the first three bits go. -/
theorem of_bits {s' : BitVec 8} (h : Flags s n busy) (h0 : s'.getLsbD 0 = s.getLsbD 0)
    (h1 : s'.getLsbD 1 = s.getLsbD 1) (h2 : s'.getLsbD 2 = s.getLsbD 2) : Flags s' n busy := by
  refine ⟨fun hp => ?_, fun hb => ?_, fun hb => ?_⟩
  · exact h.processed (h1.symm.trans hp)
  · rw [h0, h2]
    exact h.idle hb
  · rw [h0, h1]
    exact h.call hb

theorem appended (h : Flags s n busy) : Flags (s ||| 0x8) n busy := by
  obtain ⟨f0, f1, f2, -⟩ := Port.getLsbD_appended s
  exact h.of_bits f0 f1 f2

/-- A full window leaves bit 1 clear, and bit 2 set during a call only. -/
theorem filled (h : Flags s n busy) {n' : Nat} (hn : 0 < n') :
    Flags ((if s.getLsbD 0 = true then s ||| 0x4 else s) &&& ~~~0x2) n' busy := by
  obtain ⟨f0, f1, f2, -⟩ := Port.getLsbD_filled s (s.getLsbD 0)
  refine ⟨fun hp => ?_, fun hb => ?_, fun hb => ?_⟩
  · rw [f1] at hp
    cases hp
  · obtain ⟨hbusy, hrefilled⟩ := h.idle hb
    rw [f0, f2, hbusy, hrefilled]
    exact ⟨rfl, rfl⟩
  · rw [f0, f1]
    exact ⟨(h.call hb).1, rfl, hn⟩

/-- A call begins with something to process. -/
theorem enter (h : Flags s n false) (hn : n ≠ 0) : Flags (s ||| 0x1) n true := by
  obtain ⟨f0, f1, f2, -⟩ := Port.getLsbD_busy s
  have hproc : s.getLsbD 1 = false := by
    cases h1 : s.getLsbD 1
    · rfl
    · exact absurd (h.processed h1) hn
  refine ⟨fun hp => ?_, (by intro hb; cases hb), fun _ => ?_⟩
  · rw [f1, hproc] at hp
    cases hp
  · rw [f0, f1]
    exact ⟨rfl, hproc, Nat.pos_of_ne_zero hn⟩

/-- A call ends: what arrived in a full window is kept for the next one. -/
theorem leave_refilled (h : Flags s n true) : Flags (s &&& ~~~0x4 &&& ~~~0x1) n false := by
  obtain ⟨f0, f1, f2, -⟩ := Port.getLsbD_refilled s
  refine ⟨fun hp => ?_, fun _ => ⟨f0, f2⟩, by intro hb; cases hb⟩
  rw [f1, (h.call rfl).2.1] at hp
  cases hp

theorem leave_finished (hr : s.getLsbD 2 = false) : Flags ((s ||| 0x2) &&& ~~~0x1) 0 false := by
  obtain ⟨f0, f1, f2, -⟩ := Port.getLsbD_finished s
  exact ⟨fun _ => rfl, fun _ => ⟨f0, f2.trans hr⟩, by intro hb; cases hb⟩

end Flags

/-! ### The invariant -/

structure Inv (w : World) : Prop where
  window : ∃ m, w.port.Window m
  tx : ∃ t, w.port.huart.InTxMode t
  flags : Flags w.port.usartState w.port.receiveCount w.main.isSome

theorem inv_init (com : Com) : (init com).Inv := by
  have hrx : (init com).port.huart.InMode .running := by
    constructor <;> cases com <;> decide
  have htx : (init com).port.huart.InTxMode .idle := by
    constructor <;> cases com <;> decide
  have hwin : (init com).port.Window .running :=
    ⟨hrx, Buf.noConfusion, Nat.zero_le _, rfl, Nat.le_refl _, fun _ => ⟨rfl, rfl⟩⟩
  have hflags :
      Flags (init com).port.usartState (init com).port.receiveCount (init com).main.isSome := by
    constructor <;> cases com <;> decide
  exact ⟨⟨_, hwin⟩, ⟨_, htx⟩, hflags⟩

variable {w : World}

/-! ### The events -/

/-- A byte is stored by a running stream, in the DMA buffer. -/
theorem rxByte_cases {m : RxMode} (hm : w.port.Window m) (b : UInt8) :
    m ≠ .running ∧ w.rxByte b = w ∨
      m = .running ∧ w.rxByte b = { w with
        port := { w.port with
          bytes := Function.update w.port.bytes w.port.dmaBuff
            (Function.update (w.port.bytes w.port.dmaBuff) w.port.counted b)
          huart := { w.port.huart with hdmarx := w.port.huart.hdmarx.transfer } }
        stored := w.stored ++ [b] } := by
  by_cases hr : m = .running
  · subst hr
    rw [rxByte, Port.rxDmaStore_running hm]
    exact .inr ⟨rfl, rfl⟩
  · rw [rxByte, Port.rxDmaStore_of_ne hm hr]
    exact .inl ⟨hr, rfl⟩

/-- One is fetched by a sending stream. -/
theorem txByte_cases {t : TxMode} (ht : w.port.huart.InTxMode t) :
    t ≠ .sending ∧ w.txByte = w ∨
      t = .sending ∧ w.txByte = { w with
        port :=
        { w.port with huart := { w.port.huart with hdmatx := w.port.huart.hdmatx.transfer } }
        wire := w.wire ++ [w.port.huart.hdmatx.m0ar.add w.port.huart.hdmatx.pos] } := by
  by_cases hs : t = .sending
  · subst hs
    rw [txByte, Port.txDmaRead_sending ht]
    exact .inr ⟨rfl, rfl⟩
  · rw [txByte, Port.txDmaRead_of_ne ht hs]
    exact .inl ⟨hs, rfl⟩

/-- The transmit stream's interrupt is that of a drained stream. -/
theorem dmaTxIrq_cases {t : TxMode} (ht : w.port.huart.InTxMode t) :
    w.dmaTxIrq = w ∨
      t = .drained ∧ w.dmaTxIrq = { w with port := { w.port with
        huart :=
          uartDmaTransmitCplt { w.port.huart with hdmatx := afterIrq w.port.huart.hdmatx } } } := by
  by_cases hp : w.port.huart.hdmatx.pending = true
  · obtain rfl := Port.txPending ht hp
    rw [dmaTxIrq, if_pos hp, Port.dmaTxIrqHandler_drained ht]
    exact .inr ⟨rfl, rfl⟩
  · exact .inl (if_neg hp)

theorem inv_rxByte (h : w.Inv) (b : UInt8) : (w.step (.rxByte b)).Inv := by
  obtain ⟨m, hm⟩ := h.window
  obtain ⟨t, ht⟩ := h.tx
  show (w.rxByte b).Inv
  rcases rxByte_cases hm b with ⟨-, heq⟩ | ⟨rfl, heq⟩
  · rw [heq]
    exact h
  · rw [heq]
    exact ⟨⟨_, hm.transfer _⟩, ⟨t, ht.congr rfl rfl rfl rfl⟩, h.flags⟩

/-- Bit 1 is clear during a call. -/
theorem Inv.idle_of_processed (h : w.Inv) (hp : w.port.processed = true) :
    w.main.isSome = false := by
  cases hb : w.main.isSome
  · rfl
  · have hclear := (h.flags.call hb).2.1
    exact absurd (hp.symm.trans hclear) (by decide)

theorem inv_usartIrq (h : w.Inv) (sr : Sr) : (w.step (.usartIrq sr)).Inv := by
  obtain ⟨m, hm⟩ := h.window
  obtain ⟨t, ht⟩ := h.tx
  refine ⟨hm.usartIrqHandler sr, ⟨_, Port.usartIrqHandler_inTxMode hm ht sr⟩, ?_⟩
  show Flags (w.port.usartIrqHandler sr).usartState (w.port.usartIrqHandler sr).receiveCount
    w.main.isSome
  obtain ⟨u, ⟨-, heq⟩ | ⟨-, hp, heq⟩ | ⟨-, -, heq⟩⟩ := Port.usartIrqHandler_cases hm sr
  · rw [heq]
    exact h.flags
  · rw [heq, h.idle_of_processed hp]
    have hflags := h.flags
    rw [h.idle_of_processed hp] at hflags
    exact hflags.exchanged _
  · rw [heq]
    exact h.flags.appended

theorem inv_dmaRxIrq (h : w.Inv) : (w.step .dmaRxIrq).Inv := by
  obtain ⟨m, hm⟩ := h.window
  obtain ⟨t, ht⟩ := h.tx
  show w.dmaRxIrq.Inv
  by_cases hp : w.port.huart.hdmarx.pending = true
  · rw [dmaRxIrq_of_pending hp]
    have htx := Port.dmaRxIrqHandler_inTxMode hm ht hp
    rcases hm.pending_cases hp with rfl | hab
    · have hwin :=
        hm.full
          ((if w.port.processing then w.port.usartState ||| 0x4 else w.port.usartState) &&& ~~~0x2)
      have heq := Port.dmaRxIrqHandler_complete hm
      refine ⟨⟨_, heq ▸ hwin⟩, ⟨t, htx⟩, ?_⟩
      rw [heq]
      exact h.flags.filled (show 0 < usartReceiveMax by decide)
    · obtain ⟨heq, hwin⟩ := Port.dmaRxIrqHandler_aborting hm hab
      refine ⟨⟨_, hwin⟩, ⟨t, htx⟩, ?_⟩
      rw [heq]
      exact h.flags
  · rw [dmaRxIrq_of_not hp]
    exact h

theorem inv_dmaTxIrq (h : w.Inv) : (w.step .dmaTxIrq).Inv := by
  obtain ⟨m, hm⟩ := h.window
  obtain ⟨t, ht⟩ := h.tx
  show w.dmaTxIrq.Inv
  rcases dmaTxIrq_cases ht with heq | ⟨rfl, heq⟩
  · rw [heq]
    exact h
  · rw [heq]
    exact ⟨⟨m, hm.setHuart (hm.mode.congr rfl rfl rfl rfl rfl rfl) rfl⟩,
      ⟨_, uartDmaTransmitCplt_inTxMode ht⟩, h.flags⟩

theorem inv_txByte (h : w.Inv) : (w.step .txByte).Inv := by
  obtain ⟨m, hm⟩ := h.window
  obtain ⟨t, ht⟩ := h.tx
  show w.txByte.Inv
  rcases txByte_cases ht with ⟨-, heq⟩ | ⟨rfl, heq⟩
  · rw [heq]
    exact h
  · rw [heq]
    exact ⟨⟨m, hm.setHuart (hm.mode.congr rfl rfl rfl rfl rfl rfl) rfl⟩,
      ⟨_, txTransfer_inTxMode ht⟩, h.flags⟩

theorem inv_sendStr (h : w.Inv) (waited : BitVec 32) (str : Option Addr) (len : Nat) :
    (w.step (.sendStr waited str len)).Inv := by
  obtain ⟨m, hm⟩ := h.window
  obtain ⟨t, ht⟩ := h.tx
  refine ⟨⟨m, hm.comSendStr waited str len⟩, Port.comSendStr_inTxMode hm ht waited str len, ?_⟩
  show Flags (w.port.comSendStr waited str len).2.usartState
    (w.port.comSendStr waited str len).2.receiveCount w.main.isSome
  rw [Port.comSendStr_port]
  exact h.flags

/-- The exchange in the main loop, with no call under way. -/
theorem Inv.manageSwap (h : w.Inv) (hm : w.main = none) :
    { w with port := w.port.manageSwap }.Inv := by
  obtain ⟨m, hwin⟩ := h.window
  obtain ⟨t, ht⟩ := h.tx
  have hflags := h.flags
  rw [hm] at hflags
  refine ⟨hwin.manageSwap, ⟨_, Port.manageSwap_inTxMode ht⟩, ?_⟩
  show Flags w.port.manageSwap.usartState w.port.manageSwap.receiveCount w.main.isSome
  rw [hm]
  obtain ⟨u, ⟨-, heq⟩ | ⟨-, heq⟩⟩ := Port.manageSwap_cases w.port
  · rw [heq]
    exact hflags
  · rw [heq]
    exact hflags.exchanged _

theorem inv_enter (h : w.Inv) : (w.step .enter).Inv := by
  show w.enter.Inv
  cases hm : w.main with
  | some c =>
    rw [enter_of_main hm]
    exact h
  | none =>
    have hswap := h.manageSwap hm
    by_cases hr : w.port.manageSwap.receiveCount = 0
    · rw [enter_of_empty hm hr]
      exact hswap
    · rw [hm] at hswap
      obtain ⟨m, hwin⟩ := hswap.window
      obtain ⟨t, ht⟩ := hswap.tx
      rw [enter_of_filled hm hr]
      exact ⟨⟨m, hwin.setState _⟩, ⟨t, ht⟩, Flags.enter hswap.flags hr⟩

theorem inv_leave (h : w.Inv) : (w.step .leave).Inv := by
  show w.leave.Inv
  cases hm : w.main with
  | none =>
    rw [leave_of_none hm]
    exact h
  | some c =>
    rw [leave_of_main hm]
    obtain ⟨m, hwin⟩ := h.window
    obtain ⟨t, ht⟩ := h.tx
    have hflags := h.flags
    rw [hm] at hflags
    have heq := Port.manageFinish_eq w.port
    refine ⟨⟨m, hwin.manageFinish⟩, ⟨t, ?_⟩, ?_⟩
    · simp only [heq]
      split <;> exact ht
    · simp only [heq]
      split
      · exact hflags.leave_refilled
      · next hr => exact Flags.leave_finished (by simpa [Port.refilled] using hr)

theorem inv_step (w : World) (e : Event) (h : w.Inv) : (w.step e).Inv := by
  cases e with
  | rxByte b => exact inv_rxByte h b
  | usartIrq sr => exact inv_usartIrq h sr
  | dmaRxIrq => exact inv_dmaRxIrq h
  | dmaTxIrq => exact inv_dmaTxIrq h
  | txByte => exact inv_txByte h
  | sendStr waited str len => exact inv_sendStr h waited str len
  | enter => exact inv_enter h
  | leave => exact inv_leave h

/-- Every state a run reaches satisfies the invariant. -/
theorem inv_run (com : Com) (es : List Event) : (run com es).Inv :=
  Along.invariant (fun w e h _ => inv_step w e h)
    (along_of_forall (p := fun _ => True) _ fun _ _ => trivial)
    (inv_init com)

end World

/-! ### The receive window of every run -/

/-- The arrays, the counts and the armed window fit together; no operation of the
handlers wraps or truncates; and a received byte only ever goes to the DMA buffer. -/
structure Port.Bounded (p : Port) : Prop where
  distinct : p.buff ≠ p.dmaBuff
  receiveCount_le : p.receiveCount ≤ usartReceiveMax
  sum : p.dmaReceiveCount + p.dmaReceiveSize = usartReceiveMax
  armed : p.huart.hdmarx.en = true →
    p.huart.hdmarx.m0ar = p.addr p.dmaBuff p.dmaReceiveCount ∧ p.huart.hdmarx.len = p.dmaReceiveSize
  /-- `_DMA_Receive_Count += _DMA_Receive_Size - NDTR` -/
  count_exact : p.ndtr ≤ p.dmaReceiveSize ∧
    u16 (p.dmaReceiveCount + subU32 p.dmaReceiveSize p.ndtr) = p.counted
  /-- `buff_shift = _DMA_Receive_Count` -/
  shift_exact : u8 p.counted = p.counted
  /-- `_DMA_Receive_Size = USART_RECEIVE_MAX - buff_shift` -/
  size_exact : p.counted ≤ usartReceiveMax ∧
    u16 (subU32 usartReceiveMax p.counted) = usartReceiveMax - p.counted
  /-- `_DMA_Receive_Count += _DMA_Receive_Size` -/
  full_exact : u16 (p.dmaReceiveCount + p.dmaReceiveSize) = p.dmaReceiveCount + p.dmaReceiveSize
  stored : ∀ b p', p.rxDmaStore b = some p' → ∃ i, i < usartReceiveMax ∧
    p'.bytes = Function.update p.bytes p.dmaBuff (Function.update (p.bytes p.dmaBuff) i b)

theorem Port.Window.bounded {p : Port} {m : RxMode} (h : p.Window m) : p.Bounded := by
  obtain ⟨hsub, hcount, hshift, hsize, hfull⟩ := h.machine
  refine ⟨h.distinct, h.receiveCount_le, h.sum, fun hen => h.target (.inl ?_),
    ⟨h.ndtr_le, hcount⟩, hshift,
    ⟨h.counted_le, hsize⟩, hfull.trans h.sum.symm, fun b p' hstore => ?_⟩
  · rw [h.mode.en] at hen
    cases m <;> first | rfl | cases hen
  · by_cases hm : m = .running
    · subst hm
      have hroom : 0 < p.ndtr := h.mode.room rfl
      have hadd := h.counted_add_ndtr
      rw [rxDmaStore_running h] at hstore
      cases hstore
      exact ⟨p.counted, by omega, rfl⟩
    · rw [rxDmaStore_of_ne h hm] at hstore
      cases hstore

/-- Whatever happens to a port after `com_init`, its receive window stays in bounds. -/
theorem bounded_run (com : Com) (es : List Event) : (World.run com es).port.Bounded := by
  obtain ⟨m, hm⟩ := (World.inv_run com es).window
  exact hm.bounded

end Stm32F4.Usart
