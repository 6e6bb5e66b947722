import Stm32F4.Usart.Invariant

/-! Line errors.

A receive error makes the driver abort the transfer under way, from the same interrupt
that goes on to stop and re-arm the stream when the line is idle as well. The abort is only
started there: the handle stays in `ABORT` until the stream's own interrupt, so the
re-arming is refused by `HAL_DMA_Start_IT`, whose answer is not looked at, and the driver
goes to `BUSY_RX` over a stream that nobody starts. `recovered_iff` says from which states
and flags the stream is running again. -/
namespace Stm32F4.Usart
open Hal Lib

namespace World

/-- `w'` is `w` recovered: the stream runs on the window the port accounts for, and every byte
that was pending in `w` is counted. -/
structure Recovered (w w' : World) : Prop where
  busy : w'.port.huart.hdmarx.state = .busy
  en : w'.port.huart.hdmarx.en = true
  window : w'.port.huart.hdmarx.m0ar = w'.port.addr w'.port.dmaBuff w'.port.dmaReceiveCount ∧
    w'.port.huart.hdmarx.len = w'.port.dmaReceiveSize ∧ w'.port.ndtr = w'.port.dmaReceiveSize
  rxState : w'.port.huart.rxState = .busyRx
  counted : firstCells (w'.port.bytes w'.port.buff) w'.port.receiveCount ++
      firstCells (w'.port.bytes w'.port.dmaBuff) w'.port.dmaReceiveCount =
    firstCells (w.port.bytes w.port.buff) w.port.receiveCount ++
      firstCells (w.port.bytes w.port.dmaBuff) w.port.counted
  receives : ∀ b, (w'.port.rxDmaStore b).isSome = true

/-- There is room to receive into, no abort is outstanding, and the flags do not abort a transfer
under way. -/
structure Recoverable (w : World) (sr : Sr) : Prop where
  room : w.port.processed = true ∨ w.port.counted < usartReceiveMax
  settled : w.port.huart.hdmarx.state ≠ .abort
  kept : ¬ (sr.errors = true ∧ w.port.huart.rxState = .busyRx ∧ w.port.huart.hdmarx.state = .busy)

variable {w : World} {m : RxMode} {sr : Sr}

/-! ### The stream after the handler -/

/-- The mode the driver's interrupt handler leaves to the idle branch. -/
def irqMode (m : RxMode) (sr : Sr) : RxMode := if sr.errors && m.receiving then m.fail else m

/-- The idle branch finds the stream stopped unless an abort is outstanding or has just been
started. -/
theorem stop_irqMode (h : w.port.Window m) : (irqMode m sr).stop = .stopped ↔
    w.port.huart.hdmarx.state ≠ .abort ∧
      ¬ (sr.errors = true ∧ w.port.huart.rxState = .busyRx ∧
        w.port.huart.hdmarx.state = .busy) := by
  rw [h.mode.state, h.mode.rxState]
  unfold irqMode
  cases sr.errors <;> cases m <;> decide

/-- Otherwise the abort is still outstanding. -/
theorem stop_irqMode_of_ne (h : (irqMode m sr).stop ≠ .stopped) :
    (irqMode m sr).stop = .aborting := by
  revert h
  unfold irqMode
  cases sr.errors <;> cases m <;> decide

/-- The port after the handler, and the mode it is in. -/
theorem idle_window (h : w.port.Window m) (hi : sr.idle = true) :
    (w.port.usartIrqHandler sr).Window (Port.rearmed (irqMode m sr).stop
      (if w.port.processed then usartReceiveMax else w.port.ndtr)) := by
  have hwin := h.usartIrq sr
  have hndtr :
      ({ w.port with huart := halUartIrqHandler sr w.port.huart } : Port).ndtr = w.port.ndtr :=
    congrArg Prod.fst (halUartIrqHandler_window sr w.port.huart)
  have hbranch := hwin.idleBranch
  rw [Port.idlePrepare_size hwin, hndtr] at hbranch
  unfold Port.usartIrqHandler
  rw [if_pos hi]
  exact hbranch

/-- If the stream has been stopped, its counter is set to the port's size. -/
theorem idle_ndtr (h : w.port.Window m) (hi : sr.idle = true)
    (hstop : (irqMode m sr).stop = .stopped) :
    (w.port.usartIrqHandler sr).ndtr = (w.port.usartIrqHandler sr).dmaReceiveSize := by
  have hprep := (h.usartIrq sr).idlePrepare.1
  unfold irqMode at hstop
  rw [hstop] at hprep
  have hn := (Port.rearm_cases hprep rfl
    (Port.idlePrepare { w.port with huart := halUartIrqHandler sr w.port.huart }).2).2.2.2.1 rfl
  unfold Port.usartIrqHandler
  rw [if_pos hi]
  exact hn

/-- Whatever becomes of the stream, every pending byte is counted. -/
theorem idle_counted (h : w.Inv) (hi : sr.idle = true) :
    let p := w.port.usartIrqHandler sr
    firstCells (p.bytes p.buff) p.receiveCount ++ firstCells (p.bytes p.dmaBuff) p.dmaReceiveCount =
      firstCells (w.port.bytes w.port.buff) w.port.receiveCount ++
        firstCells (w.port.bytes w.port.dmaBuff) w.port.counted := by
  obtain ⟨m, hm⟩ := h.window
  obtain ⟨u, ⟨hi', -⟩ | ⟨-, hp, heq⟩ | ⟨-, -, heq⟩⟩ := Port.usartIrqHandler_cases hm sr
  · rw [hi] at hi'
    cases hi'
  · rw [heq, h.flags.processed hp]
    exact List.append_nil _
  · rw [heq]
    rfl

/-! ### Recovery -/

/-- A stream that is running has been started on the port's window. -/
theorem recovered_of_running (h : w.Inv) (hi : sr.idle = true)
    (hrun : (w.port.usartIrqHandler sr).Window .running)
    (hn : (w.port.usartIrqHandler sr).ndtr = (w.port.usartIrqHandler sr).dmaReceiveSize) :
    Recovered w ((w.step (.usartIrq sr)).step .dmaRxIrq) := by
  have hstep : (w.step (.usartIrq sr)).step .dmaRxIrq = w.usartIrq sr := by
    show (w.usartIrq sr).dmaRxIrq = w.usartIrq sr
    have hpend : (w.usartIrq sr).port.huart.hdmarx.pending = false := hrun.mode.pending
    exact dmaRxIrq_of_not (by rw [hpend]; decide)
  obtain ⟨hm0ar, hlen⟩ := hrun.target (.inl rfl)
  rw [hstep]
  refine ⟨hrun.mode.state, hrun.mode.en, ⟨hm0ar, hlen, hn⟩, hrun.mode.rxState, idle_counted h hi,
    fun b => ?_⟩
  show ((w.port.usartIrqHandler sr).rxDmaStore b).isSome = true
  rw [Port.rxDmaStore_running hrun]
  rfl

/-- An abort outstanding after the handler ends with no stream running. -/
theorem not_recovered_of_aborting (h : (w.port.usartIrqHandler sr).Window m)
    (hm : m.dmaState = .abort) :
    ¬ Recovered w ((w.step (.usartIrq sr)).step .dmaRxIrq) := by
  intro hrec
  have hpend : (w.usartIrq sr).port.huart.hdmarx.pending = true := by
    show (w.port.usartIrqHandler sr).huart.hdmarx.pending = true
    rw [h.mode.pending]
    cases m <;> first | rfl | cases hm
  have hstep : ((w.step (.usartIrq sr)).step .dmaRxIrq).port =
      (w.port.usartIrqHandler sr).dmaRxIrqHandler := by
    exact congrArg World.port (dmaRxIrq_of_pending hpend)
  have hen := hrec.en
  rw [hstep, (Port.dmaRxIrqHandler_aborting h hm).2.mode.en] at hen
  cases hr : m.receiving
  · rw [hr] at hen
    cases hen
  · rw [hr] at hen
    cases hen

/-- A stopped port stays stopped. -/
theorem not_recovered_of_stopped (h : (w.port.usartIrqHandler sr).Window .stopped) :
    ¬ Recovered w ((w.step (.usartIrq sr)).step .dmaRxIrq) := by
  intro hrec
  have hstep : (w.step (.usartIrq sr)).step .dmaRxIrq = w.usartIrq sr := by
    show (w.usartIrq sr).dmaRxIrq = w.usartIrq sr
    have hpend : (w.usartIrq sr).port.huart.hdmarx.pending = false := h.mode.pending
    exact dmaRxIrq_of_not (by rw [hpend]; decide)
  have hen := hrec.en
  rw [hstep] at hen
  exact absurd (hen.symm.trans h.mode.en) (by decide)

/-- **Recovery from line errors.** From any state a run reaches, an idle line and the stream's
interrupt after it leave the stream running exactly when there is room, no abort is
outstanding and none is started. -/
theorem recovered_iff (com : Com) (es : List Event) (sr : Sr) (hi : sr.idle = true) :
    Recovered (run com es) (((run com es).step (.usartIrq sr)).step .dmaRxIrq) ↔
      Recoverable (run com es) sr := by
  have h := inv_run com es
  generalize run com es = w at h
  obtain ⟨m, hm⟩ := h.window
  have hwin := idle_window hm hi
  have hcount := hm.counted_add_ndtr
  have hsize : (if w.port.processed then usartReceiveMax else w.port.ndtr) = 0 ↔
      ¬ (w.port.processed = true ∨ w.port.counted < usartReceiveMax) := by
    cases hp : w.port.processed
    · simp only [Bool.false_eq_true, if_false, false_or]
      omega
    · simp [usartReceiveMax]
  by_cases hstop : (irqMode m sr).stop = .stopped
  · rw [hstop] at hwin
    obtain ⟨hsettled, hkept⟩ := (stop_irqMode hm).mp hstop
    by_cases hroom : w.port.processed = true ∨ w.port.counted < usartReceiveMax
    · have hne : (if w.port.processed then usartReceiveMax else w.port.ndtr) ≠ 0 :=
        fun h0 => hsize.mp h0 hroom
      rw [Port.rearmed, if_neg hne] at hwin
      exact ⟨fun _ => ⟨hroom, hsettled, hkept⟩,
        fun _ => recovered_of_running h hi hwin (idle_ndtr hm hi hstop)⟩
    · rw [Port.rearmed, if_pos (hsize.mpr hroom)] at hwin
      exact ⟨fun hrec => absurd hrec (not_recovered_of_stopped hwin),
        fun hre => absurd hre.room hroom⟩
  · have habort := stop_irqMode_of_ne hstop
    rw [habort] at hwin
    exact ⟨fun hrec => absurd hrec (not_recovered_of_aborting hwin (Port.rearmed_aborting _)),
      fun hre => absurd ((stop_irqMode hm).mpr ⟨hre.settled, hre.kept⟩) hstop⟩

/-- A byte, a parity error and the end of its abort, then an idle line with an overrun. -/
theorem recovered_overrun : Recovered (run .usart1 [.rxByte 1, .usartIrq { pe := true }, .dmaRxIrq])
    (((run .usart1 [.rxByte 1, .usartIrq { pe := true }, .dmaRxIrq]).step
      (.usartIrq { idle := true, ore := true })).step .dmaRxIrq) :=
  (recovered_iff .usart1 [.rxByte 1, .usartIrq { pe := true }, .dmaRxIrq]
    { idle := true, ore := true } rfl).mpr ⟨by decide, by decide, by decide⟩

/-- A byte, then an idle line with a framing error: the stream is not running again, though the
driver says it receives. -/
theorem framing_not_recovered :
    ¬ Recovered (run .usart1 [.rxByte 1])
        (((run .usart1 [.rxByte 1]).step (.usartIrq { idle := true, fe := true })).step .dmaRxIrq) ∧
      (((run .usart1 [.rxByte 1]).step (.usartIrq { idle := true, fe := true })).step
        .dmaRxIrq).port.huart.rxState = .busyRx := by
  refine ⟨fun h => ?_, by decide⟩
  have hen := h.en
  revert hen
  decide

end World

end Stm32F4.Usart
