import Stm32F4.Hal.Reception

/-! What the transmit side of a handle can be in the middle of, and what the two
sides leave of each other.

A transmission goes through three modes after it is accepted: the stream fetches
(`sending`), it has fetched everything and its interrupt is pending (`drained`), and
the driver waits for the last byte to leave the shift register (`finishing`). The
calls on the receive side keep the transmit side's mode, except for
`HAL_UART_DMAStop`, which ends a transmission along with the reception it is
called for (`TxMode.stop`). -/
namespace Stm32F4.Hal

inductive TxMode where
  | idle
  /-- the stream runs and has something left to fetch -/
  | sending
  /-- everything is fetched; the stream's interrupt is pending -/
  | drained
  /-- waiting for the transmission-complete interrupt -/
  | finishing
deriving DecidableEq, Repr

namespace TxMode

def gState : TxMode → UartState
  | .idle => .ready
  | _ => .busyTx

/-- The stream belongs to a transmission. -/
def streaming : TxMode → Bool
  | .sending | .drained => true
  | _ => false

def dmaState (m : TxMode) : DmaState := if m.streaming then .busy else .ready

def en : TxMode → Bool
  | .sending => true
  | _ => false

def tcif : TxMode → Bool
  | .drained => true
  | _ => false

def tcie : TxMode → Bool
  | .finishing => true
  | _ => false

/-- After `HAL_UART_DMAStop`. -/
def stop : TxMode → TxMode
  | .finishing => .finishing
  | _ => .idle

/-- After the transmission-complete interrupt. -/
def finish : TxMode → TxMode
  | .finishing => .idle
  | m => m

end TxMode

variable {α : Type}

/-- The transmit side of the handle is in mode `m`. -/
structure UartHandle.InTxMode (u : UartHandle α) (m : TxMode) : Prop where
  gState : u.gState = m.gState
  dmat : u.dmat = m.streaming
  tcie : u.tcie = m.tcie
  state : u.hdmatx.state = m.dmaState
  en : u.hdmatx.en = m.en
  tcif : u.hdmatx.tcif = m.tcif
  dmaTcie : m.streaming = true → u.hdmatx.tcie = true
  dmaLock : m.streaming = false → u.hdmatx.lock = .unlocked
  clean : u.hdmatx.errorCode = halDmaErrorNone
  room : m = .sending → 0 < u.hdmatx.ndtr
  drained : m = .drained → u.hdmatx.ndtr = 0

namespace UartHandle.InTxMode
variable {u u' : UartHandle α} {m : TxMode}

/-- The stream's interrupt is pending once everything is fetched. -/
theorem pending (h : u.InTxMode m) : u.hdmatx.pending = m.tcif := by
  have := h.dmaTcie
  cases m <;> simp_all [DmaHandle.pending, h.tcif, TxMode.tcif, TxMode.streaming]

/-- In any other mode than `sending` the stream does not run. -/
theorem en_eq_false (h : u.InTxMode m) (hm : m ≠ .sending) : u.hdmatx.en = false := by
  rw [h.en]
  cases m <;> first | rfl | exact absurd rfl hm

/-- The mode is a matter of the transmit side's fields alone. -/
theorem congr (h : u.InTxMode m) (hg : u'.gState = u.gState) (hd : u'.dmat = u.dmat)
    (ht : u'.tcie = u.tcie) (hs : u'.hdmatx = u.hdmatx) : u'.InTxMode m := by
  obtain ⟨gState, dmat, tcie, state, en, tcif, dmaTcie, dmaLock, clean, room, drained⟩ := h
  constructor <;> simp only [hg, hd, ht, hs] <;> assumption

end UartHandle.InTxMode

/-- The mode of the receive side is a matter of its fields and the common lock alone. -/
theorem UartHandle.InMode.congr {u u' : UartHandle α} {m : RxMode} (h : u.InMode m)
    (hl : u'.lock = u.lock) (hr : u'.rxState = u.rxState) (hp : u'.peie = u.peie)
    (he : u'.eie = u.eie)
    (hd : u'.dmar = u.dmar) (hs : u'.hdmarx = u.hdmarx) : u'.InMode m := by
  obtain ⟨lock, rxState, peie, eie, dmar, state, en, tcif, tcie, dmaLock, clean, room, full⟩ := h
  constructor <;> simp only [hl, hr, hp, he, hd, hs] <;> assumption

/-! ### The receive side's calls -/

theorem dmaStopTx_inTxMode {u : UartHandle α} {m : TxMode} (h : u.InTxMode m) :
    (dmaStopTx u).InTxMode m.stop := by
  obtain ⟨gState, dmat, tcie, state, en, tcif, dmaTcie, dmaLock, clean, room, drained⟩ := h
  cases m <;>
    (constructor <;>
      simp_all [dmaStopTx, uartEndTxTransfer, halDmaAbort, TxMode.stop, TxMode.gState,
        TxMode.streaming, TxMode.dmaState, TxMode.en, TxMode.tcif, TxMode.tcie])

theorem dmaStopRx_inTxMode {u : UartHandle α} {m : TxMode} (h : u.InTxMode m) :
    (dmaStopRx u).InTxMode m := by
  unfold dmaStopRx uartEndRxTransfer
  split
  · exact h.congr rfl rfl rfl rfl
  · exact h

/-- Stopping the reception also ends a transmission whose stream still runs. -/
theorem halUartDmaStop_inTxMode {u : UartHandle α} {m : TxMode} (h : u.InTxMode m) :
    (halUartDmaStop u).InTxMode m.stop := dmaStopRx_inTxMode (dmaStopTx_inTxMode h)

theorem halUartReceiveDma_inTxMode {u : UartHandle α} {m : TxMode} (h : u.InTxMode m) (a : Option α)
    (size : Nat) : (halUartReceiveDma u a size).2.InTxMode m := by
  unfold halUartReceiveDma
  split
  · split
    · exact h
    · split_ifs
      · exact h
      · exact h
      · exact h.congr rfl rfl rfl rfl
  · exact h

theorem abortOnError_inTxMode {u : UartHandle α} {m : TxMode} (h : u.InTxMode m) (e : BitVec 32) :
    (abortOnError { u with errorCode := e }).InTxMode m := by
  unfold abortOnError uartDmaAbortOnError uartEndRxTransfer
  cases u.dmar <;> exact h.congr (by simp) (by simp) (by simp) (by simp)

/-- The interrupt handler ends a transmission only by the transmission-complete flag. -/
theorem halUartIrqHandler_inTxMode {u : UartHandle α} {m : RxMode} {t : TxMode} (h : u.InMode m)
    (ht : u.InTxMode t) (sr : Sr) :
    (halUartIrqHandler sr u).InTxMode
      (if sr.errors && m.receiving then t else if sr.tc then t.finish else t) := by
  rw [halUartIrqHandler_eq h sr]
  split
  · exact abortOnError_inTxMode ht _
  · rw [ht.tcie]
    obtain ⟨gState, dmat, tcie, state, en, tcif, dmaTcie, dmaLock, clean, room, drained⟩ := ht
    cases sr.tc <;> cases t <;>
      (constructor <;>
        simp_all [uartEndTransmitIt, TxMode.finish, TxMode.gState, TxMode.streaming,
          TxMode.dmaState, TxMode.en, TxMode.tcif, TxMode.tcie])

theorem halUartReceiveDma_hdmatx (u : UartHandle α) (a : Option α) (size : Nat) :
    (halUartReceiveDma u a size).2.hdmatx = u.hdmatx := by
  unfold halUartReceiveDma
  split
  · split
    · rfl
    · split_ifs <;> rfl
  · rfl

/-- The interrupt handler does not touch the transmit stream. -/
theorem halUartIrqHandler_hdmatx {u : UartHandle α} {m : RxMode} (h : u.InMode m) (sr : Sr) :
    (halUartIrqHandler sr u).hdmatx = u.hdmatx := by
  rw [halUartIrqHandler_eq h sr]
  split
  · unfold abortOnError uartDmaAbortOnError uartEndRxTransfer
    cases u.dmar <;> simp
  · split <;> rfl

/-! ### Sending -/

theorem halUartTransmitDma_inMode {u : UartHandle α} {m : RxMode} (h : u.InMode m) (a : Option α)
    (size : Nat) : (halUartTransmitDma u a size).2.InMode m := by
  unfold halUartTransmitDma
  split
  · split
    · exact h
    · split_ifs
      · exact h
      · exact h
      · exact h.congr h.lock.symm rfl rfl rfl rfl rfl
  · exact h

theorem halUartTransmitDma_hdmarx (u : UartHandle α) (a : Option α) (size : Nat) :
    (halUartTransmitDma u a size).2.hdmarx = u.hdmarx := by
  unfold halUartTransmitDma
  split
  · split
    · rfl
    · split_ifs <;> rfl
  · rfl

/-- A transmission is accepted when none is under way and there is something to send. -/
theorem halUartTransmitDma_idle {u : UartHandle α} (h : u.InTxMode .idle)
    (hl : u.lock = .unlocked) (a : α)
    {size : Nat} (hs : 0 < size) :
    (halUartTransmitDma u (some a) size).1 = .ok ∧
      (halUartTransmitDma u (some a) size).2.InTxMode .sending ∧
      (halUartTransmitDma u (some a) size).2.hdmatx.window = (size, a, size) := by
  have hg : u.gState = .ready := h.gState
  have hstate : u.hdmatx.state = .ready := h.state
  have hdma : u.hdmatx.lock = .unlocked := h.dmaLock rfl
  have htcie : u.tcie = false := h.tcie
  have hne : size ≠ 0 := by omega
  refine ⟨?_, ?_, ?_⟩
  · simp [halUartTransmitDma, hg, hne, hl]
  · constructor <;>
      simp [halUartTransmitDma, halDmaStartIt, hg, hne, hl, hstate, hdma, htcie, hs, TxMode.gState,
        TxMode.streaming, TxMode.dmaState, TxMode.en, TxMode.tcif, TxMode.tcie]
  · simp [halUartTransmitDma, halDmaStartIt, hg, hne, hl, hstate, hdma, DmaHandle.window]

/-- During a transmission the answer is `HAL_BUSY`. -/
theorem halUartTransmitDma_busy {u : UartHandle α} {m : TxMode} (h : u.InTxMode m) (hm : m ≠ .idle)
    (a : Option α) (size : Nat) : halUartTransmitDma u a size = (.busy, u) := by
  have hg : u.gState ≠ .ready := by
    rw [h.gState]
    cases m <;> simp_all [TxMode.gState]
  exact if_neg hg

/-- Otherwise the call is refused and changes nothing. -/
theorem halUartTransmitDma_refused {u : UartHandle α} {m : TxMode} (h : u.InTxMode m)
    {a : Option α} {size : Nat} (hr : m ≠ .idle ∨ a = none ∨ size = 0) :
    (halUartTransmitDma u a size).1 ≠ .ok ∧ (halUartTransmitDma u a size).2 = u := by
  rcases hr with hm | rfl | rfl
  · rw [halUartTransmitDma_busy h hm]
    simp
  · unfold halUartTransmitDma
    split <;> simp
  · unfold halUartTransmitDma
    split
    · split <;> simp
    · simp

theorem txTransfer_inTxMode {u : UartHandle α} (h : u.InTxMode .sending) :
    { u with hdmatx := u.hdmatx.transfer }.InTxMode
      (if u.hdmatx.ndtr = 1 then .drained else .sending) := by
  obtain ⟨gState, dmat, tcie, state, en, tcif, dmaTcie, dmaLock, clean, room, drained⟩ := h
  have := room rfl
  by_cases h1 : u.hdmatx.ndtr = 1 <;>
    (constructor <;>
      simp_all [DmaHandle.transfer, TxMode.gState, TxMode.streaming, TxMode.dmaState, TxMode.en,
        TxMode.tcif, TxMode.tcie])
  omega

/-- The stream's interrupt hands a drained transmission over to the transmission-complete
interrupt. -/
theorem uartDmaTransmitCplt_inTxMode {u : UartHandle α} (h : u.InTxMode .drained) :
    (uartDmaTransmitCplt { u with hdmatx := afterIrq u.hdmatx }).InTxMode .finishing := by
  obtain ⟨gState, dmat, tcie, state, en, tcif, dmaTcie, dmaLock, clean, room, drained⟩ := h
  constructor <;>
    simp_all [uartDmaTransmitCplt, afterIrq, TxMode.gState, TxMode.streaming, TxMode.dmaState,
      TxMode.en, TxMode.tcif, TxMode.tcie]

end Stm32F4.Hal
