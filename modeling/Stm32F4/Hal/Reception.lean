import Mathlib.Tactic.SplitIfs
import Stm32F4.Hal.Uart

/-! What the receive side of a handle can be in the middle of.

The driver's state, the control bits, the stream's handle and the stream's own
registers can only be combined in six ways (`RxMode`), and each driver call moves
between them as a table (`RxMode.stop`, `RxMode.start`, …). Every fact about
reception is read off the mode from here on; the calls themselves are not unfolded
again. Two of the modes are the aftermath of an aborted transfer: `aborting`, the
stream's interrupt is still to come, and `stale`, the driver believes it receives
while no stream runs. -/
namespace Stm32F4.Hal

inductive RxMode where
  /-- the stream runs and has room -/
  | running
  /-- the stream has filled its window; its interrupt is pending -/
  | complete
  /-- nothing is armed -/
  | stopped
  /-- `BUSY_RX` with no stream running -/
  | stale
  /-- an abort is outstanding, reception is ended -/
  | aborting
  /-- an abort is outstanding, yet the driver has gone to `BUSY_RX` -/
  | staleAborting
deriving DecidableEq, Repr

namespace RxMode

def receiving : RxMode → Bool
  | .running | .complete | .stale | .staleAborting => true
  | .stopped | .aborting => false

def rxState (m : RxMode) : UartState := if m.receiving then .busyRx else .ready

def dmaState : RxMode → DmaState
  | .running | .complete => .busy
  | .stopped | .stale => .ready
  | .aborting | .staleAborting => .abort

def en : RxMode → Bool
  | .running => true
  | _ => false

def tcif : RxMode → Bool
  | .complete | .aborting | .staleAborting => true
  | _ => false

/-- After `HAL_UART_DMAStop`. -/
def stop : RxMode → RxMode
  | .aborting | .staleAborting => .aborting
  | _ => .stopped

/-- After `HAL_UART_Receive_DMA` with a positive length. -/
def start : RxMode → RxMode
  | .stopped => .running
  | .aborting => .staleAborting
  | m => m

/-- After `HAL_UART_IRQHandler` has seen a receive error. -/
def fail : RxMode → RxMode
  | .running | .complete | .staleAborting => .aborting
  | .stale => .stopped
  | m => m

end RxMode

variable {α : Type}

/-- The receive side of the handle is in mode `m`. -/
structure UartHandle.InMode (u : UartHandle α) (m : RxMode) : Prop where
  lock : u.lock = .unlocked
  rxState : u.rxState = m.rxState
  peie : u.peie = m.receiving
  eie : u.eie = m.receiving
  dmar : u.dmar = m.receiving
  state : u.hdmarx.state = m.dmaState
  en : u.hdmarx.en = m.en
  tcif : u.hdmarx.tcif = m.tcif
  tcie : m.dmaState ≠ .ready → u.hdmarx.tcie = true
  dmaLock : m.dmaState = .ready → u.hdmarx.lock = .unlocked
  clean : m.dmaState = .busy → u.hdmarx.errorCode = halDmaErrorNone
  room : m = .running → 0 < u.hdmarx.ndtr
  full : m = .complete → u.hdmarx.ndtr = 0

namespace UartHandle.InMode
variable {u : UartHandle α} {m : RxMode}

/-- The stream's interrupt is pending in the modes that raise its flag. -/
theorem pending (h : u.InMode m) : u.hdmarx.pending = m.tcif := by
  have := h.tcie
  cases m <;> simp_all [DmaHandle.pending, h.tcif, RxMode.tcif, RxMode.dmaState]

end UartHandle.InMode

/-! ### Stopping -/

theorem dmaStopTx_inMode {u : UartHandle α} {m : RxMode} (h : u.InMode m) :
    (dmaStopTx u).InMode m := by
  unfold dmaStopTx uartEndTxTransfer
  split
  · exact ⟨h.lock, h.rxState, h.peie, h.eie, h.dmar, h.state, h.en, h.tcif, h.tcie,
      h.dmaLock, h.clean,
      h.room, h.full⟩
  · exact h

theorem dmaStopRx_inMode {u : UartHandle α} {m : RxMode} (h : u.InMode m) :
    (dmaStopRx u).InMode m.stop := by
  obtain ⟨lock, rxState, peie, eie, dmar, state, en, tcif, tcie, dmaLock, clean, room, full⟩ := h
  cases m <;>
    (constructor <;>
      simp_all [dmaStopRx, uartEndRxTransfer, halDmaAbort, RxMode.stop, RxMode.rxState,
        RxMode.receiving, RxMode.dmaState, RxMode.en, RxMode.tcif])

theorem halUartDmaStop_inMode {u : UartHandle α} {m : RxMode} (h : u.InMode m) :
    (halUartDmaStop u).InMode m.stop := dmaStopRx_inMode (dmaStopTx_inMode h)

/-- Stopping leaves the counter, the address and the programmed length as they are. -/
theorem halUartDmaStop_window (u : UartHandle α) :
    (halUartDmaStop u).hdmarx.window = u.hdmarx.window := by
  have htx : (dmaStopTx u).hdmarx = u.hdmarx := by unfold dmaStopTx uartEndTxTransfer; split <;> rfl
  unfold halUartDmaStop
  rw [← htx]
  unfold dmaStopRx uartEndRxTransfer halDmaAbort
  split
  · split <;> rfl
  · rfl

/-! ### Starting -/

/-- With nothing armed and nothing outstanding, a positive length starts the stream
on the window asked for. -/
theorem halUartReceiveDma_stopped {u : UartHandle α} (h : u.InMode .stopped) (a : α) {size : Nat}
    (hs : 0 < size) :
    (halUartReceiveDma u (some a) size).1 = .ok ∧
      (halUartReceiveDma u (some a) size).2.InMode .running ∧
      (halUartReceiveDma u (some a) size).2.hdmarx.ndtr = size ∧
      (halUartReceiveDma u (some a) size).2.hdmarx.m0ar = a ∧
      (halUartReceiveDma u (some a) size).2.hdmarx.len = size := by
  have hlock := h.lock
  have hrx : u.rxState = .ready := h.rxState
  have hdma : u.hdmarx.lock = .unlocked := h.dmaLock rfl
  have hstate : u.hdmarx.state = .ready := h.state
  have hne : size ≠ 0 := by omega
  refine ⟨?_, ?_, ?_, ?_, ?_⟩
  case refine_2 =>
    constructor <;>
      simp [halUartReceiveDma, halDmaStartIt, hrx, hne, hlock, hdma, hstate, RxMode.rxState,
        RxMode.receiving, RxMode.dmaState, RxMode.en, RxMode.tcif, hs]
  all_goals simp [halUartReceiveDma, halDmaStartIt, hrx, hne, hlock, hdma, hstate]

/-- With an abort outstanding the call succeeds, but no stream is started. -/
theorem halUartReceiveDma_aborting {u : UartHandle α} (h : u.InMode .aborting) (a : α) {size : Nat}
    (hs : 0 < size) :
    (halUartReceiveDma u (some a) size).1 = .ok ∧
      (halUartReceiveDma u (some a) size).2.InMode .staleAborting ∧
      (halUartReceiveDma u (some a) size).2.hdmarx.ndtr = u.hdmarx.ndtr := by
  have hlock := h.lock
  have hrx : u.rxState = .ready := h.rxState
  have hstate : u.hdmarx.state = .abort := h.state
  have hne : size ≠ 0 := by omega
  have hen := h.en
  have htcif := h.tcif
  have htcie := h.tcie (by decide)
  cases hdma : u.hdmarx.lock
  all_goals
    refine ⟨?_, ?_, ?_⟩
    case refine_2 =>
      constructor <;>
        simp_all [halUartReceiveDma, halDmaStartIt, RxMode.rxState, RxMode.receiving,
          RxMode.dmaState, RxMode.en, RxMode.tcif]
    all_goals simp [halUartReceiveDma, halDmaStartIt, hrx, hne, hlock, hdma, hstate]

/-- A zero length is refused. -/
theorem halUartReceiveDma_zero (u : UartHandle α) (hrx : u.rxState = .ready) (a : α) :
    halUartReceiveDma u (some a) 0 = (.error, u) := by
  simp [halUartReceiveDma, hrx]

/-- While the driver receives, starting again is refused. -/
theorem halUartReceiveDma_busy (u : UartHandle α) (hrx : u.rxState = .busyRx) (a : Option α)
    (size : Nat) :
    halUartReceiveDma u a size = (.busy, u) := by
  simp [halUartReceiveDma, hrx]

/-! ### Interrupts -/

/-- While both error interrupts are enabled a flagged error leaves its bit in the error code. -/
theorem reportedErrors_ne {u : UartHandle α} {sr : Sr} (hp : u.peie = true) (he : u.eie = true)
    (hs : sr.errors = true) : reportedErrors sr u ≠ halUartErrorNone := by
  have hflag : sr.pe = true ∨ sr.fe = true ∨ sr.ore = true ∨ sr.ne = true := by
    simpa [Sr.errors, or_assoc] using hs
  intro h
  rcases hflag with hf | hf | hf | hf
  · have := congrArg (BitVec.getLsbD · 0) h
    simp [reportedErrors, hf, hp, halUartErrorPe, halUartErrorNone] at this
  · have := congrArg (BitVec.getLsbD · 2) h
    simp [reportedErrors, hf, he, halUartErrorFe, halUartErrorNone] at this
  · have := congrArg (BitVec.getLsbD · 3) h
    simp [reportedErrors, hf, he, halUartErrorOre, halUartErrorNone] at this
  · have := congrArg (BitVec.getLsbD · 1) h
    simp [reportedErrors, hf, he, halUartErrorNe, halUartErrorNone] at this

theorem abortOnError_inMode {u : UartHandle α} {m : RxMode} (h : u.InMode m)
    (hm : m.receiving = true)
    (e : BitVec 32) : (abortOnError { u with errorCode := e }).InMode m.fail := by
  obtain ⟨lock, rxState, peie, eie, dmar, state, en, tcif, tcie, dmaLock, clean, room, full⟩ := h
  cases m <;> simp only [RxMode.receiving, Bool.false_eq_true] at hm <;>
    (constructor <;>
      simp_all [abortOnError, uartEndRxTransfer, uartDmaAbortOnError, halDmaAbortIt,
        DmaHandle.disable, RxMode.fail, RxMode.rxState, RxMode.receiving, RxMode.dmaState,
        RxMode.en, RxMode.tcif])

/-- What the interrupt handler does to a handle in mode `m`: a receive error aborts a
reception under way, and is not looked at otherwise. -/
theorem halUartIrqHandler_eq {u : UartHandle α} {m : RxMode} (h : u.InMode m) (sr : Sr) :
    halUartIrqHandler sr u =
      if sr.errors && m.receiving then abortOnError { u with errorCode := reportedErrors sr u }
      else if sr.tc && u.tcie then uartEndTransmitIt u else u := by
  unfold halUartIrqHandler
  rw [h.eie, h.peie, Bool.or_self]
  split
  · next hs =>
    have hm : m.receiving = true := (Bool.and_eq_true_iff.mp hs).2
    have hne := reportedErrors_ne (h.peie.trans hm) (h.eie.trans hm) (Bool.and_eq_true_iff.mp hs).1
    simp only [ne_eq, hne, not_false_eq_true, if_true, h.dmar, hm, or_true]
  · rfl

theorem halUartIrqHandler_inMode {u : UartHandle α} {m : RxMode} (h : u.InMode m) (sr : Sr) :
    (halUartIrqHandler sr u).InMode (if sr.errors && m.receiving then m.fail else m) := by
  rw [halUartIrqHandler_eq h sr]
  split
  · next hs => exact abortOnError_inMode h (Bool.and_eq_true_iff.mp hs).2 _
  · split
    · exact ⟨h.lock, h.rxState, h.peie, h.eie, h.dmar, h.state, h.en, h.tcif, h.tcie,
        h.dmaLock, h.clean,
        h.room, h.full⟩
    · exact h

theorem abortOnError_window (u : UartHandle α) :
    (abortOnError u).hdmarx.window = u.hdmarx.window := by
  unfold abortOnError uartDmaAbortOnError uartEndRxTransfer
  cases u.dmar
  · rfl
  · simp only [if_true, ite_self]
    unfold halDmaAbortIt
    split <;> rfl

/-- The stream's counter is not touched, whatever is flagged. -/
theorem halUartIrqHandler_window (sr : Sr) (u : UartHandle α) :
    (halUartIrqHandler sr u).hdmarx.window = u.hdmarx.window := by
  simp only [halUartIrqHandler, uartEndTransmitIt]
  split_ifs
  · rw [abortOnError_window]
  all_goals rfl

/-! ### The stream -/

/-- One more item: the window is full when the counter reaches zero. -/
theorem transfer_inMode {u : UartHandle α} (h : u.InMode .running) :
    { u with hdmarx := u.hdmarx.transfer }.InMode
      (if u.hdmarx.ndtr = 1 then .complete else .running) := by
  obtain ⟨lock, rxState, peie, eie, dmar, state, en, tcif, tcie, dmaLock, clean, room, full⟩ := h
  have := room rfl
  by_cases h1 : u.hdmarx.ndtr = 1 <;>
    (constructor <;>
      simp_all [DmaHandle.transfer, RxMode.rxState, RxMode.receiving, RxMode.dmaState, RxMode.en,
        RxMode.tcif])
  omega

/-- The stream's interrupt finds its handle free again. -/
def afterIrq (h : DmaHandle α) : DmaHandle α :=
  { h with tcif := false, tcie := false, lock := .unlocked, state := .ready }

/-- The end of an outstanding abort. -/
theorem afterIrq_aborting {u : UartHandle α} {m : RxMode} (h : u.InMode m)
    (hm : m.dmaState = .abort) :
    { u with hdmarx := afterIrq u.hdmarx }.InMode (if m.receiving then .stale else .stopped) := by
  obtain ⟨lock, rxState, peie, eie, dmar, state, en, tcif, tcie, dmaLock, clean, room, full⟩ := h
  cases m <;> simp only [RxMode.dmaState, reduceCtorEq] at hm <;>
    (constructor <;>
      simp_all [afterIrq, RxMode.rxState, RxMode.receiving, RxMode.dmaState, RxMode.en,
        RxMode.tcif])

/-- A completed transfer, handed to `UART_DMAReceiveCplt`. -/
theorem afterIrq_complete {u : UartHandle α} (h : u.InMode .complete) :
    (uartDmaReceiveCplt { u with hdmarx := afterIrq u.hdmarx }).InMode .stopped := by
  obtain ⟨lock, rxState, peie, eie, dmar, state, en, tcif, tcie, dmaLock, clean, room, full⟩ := h
  constructor <;>
    simp_all [afterIrq, uartDmaReceiveCplt, RxMode.rxState, RxMode.receiving, RxMode.dmaState,
      RxMode.en, RxMode.tcif]

end Stm32F4.Hal
