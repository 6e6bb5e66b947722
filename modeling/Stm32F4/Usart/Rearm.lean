import Stm32F4.Usart.Clean

/-! Does reception stay armed?

Three pieces of code end with `HAL_UART_Receive_DMA` and ignore what it returns. Without
line errors the driver is always ready to receive when they get there; what can be
wrong is the length. It is zero when an idle line is served before the
transfer-complete interrupt of a window that has just filled up, while the user
buffer is still to be processed: aborting the stream has cleared the flag, the
array is full, and nothing starts the stream again. `rearms_run` says that this is the
only way. -/
namespace Stm32F4.Usart
open Hal Lib

namespace World

/-- The port and the offset the final `HAL_UART_Receive_DMA` is called with, when the event
makes that call. -/
def rearmCall (w : World) : Event → Option (Port × Nat)
  | .usartIrq sr =>
    if sr.idle then
      some (Port.idlePrepare { w.port with huart := halUartIrqHandler sr w.port.huart })
    else none
  | .dmaRxIrq =>
    if w.port.huart.hdmarx.pending ∧ w.port.huart.hdmarx.state ≠ .abort then
      some w.port.completed.rxCpltPrepare
    else none
  | .enter => if w.main = none ∧ w.port.swaps then some w.port.swapPrepare else none
  | _ => none

/-- The final call of the event, if it makes one, finds the driver ready and a length to
receive, succeeds, and leaves the stream running: the next byte is stored. -/
def Rearms (w : World) (e : Event) : Prop :=
  ∀ r, w.rearmCall e = some r →
    r.1.huart.rxState = .ready ∧ 0 < r.1.dmaReceiveSize ∧ (Port.rearm r).1 = .ok ∧
      (w.step e).port.armed = true ∧ ∀ b, ((w.step e).port.rxDmaStore b).isSome = true

/-- An idle line is not served over a full DMA buffer while the user buffer waits. -/
def KeepsRoom (w : World) : Event → Prop
  | .usartIrq sr => sr.idle = true → w.port.processed = true ∨ 0 < w.port.ndtr
  | _ => True

instance (w : World) : (e : Event) → Decidable (KeepsRoom w e)
  | .usartIrq _ => inferInstanceAs (Decidable (_ → _ ∨ _))
  | .rxByte _ | .dmaRxIrq | .dmaTxIrq | .txByte | .sendStr .. | .enter | .leave =>
    inferInstanceAs (Decidable True)

variable {w : World}

/-- The call is the last thing the event does to the port, up to entering `com->func`. -/
theorem rearmCall_port (h : w.Clean) {e : Event} {r : Port × Nat} (hr : w.rearmCall e = some r) :
    (w.step e).port = (Port.rearm r).2 ∨ (w.step e).port = (Port.rearm r).2.manageBusy := by
  cases e with
  | usartIrq sr =>
    left
    cases hi : sr.idle
    · simp [rearmCall, hi] at hr
    · simp only [rearmCall, hi, if_true, Option.some.injEq] at hr
      show w.port.usartIrqHandler sr = _
      unfold Port.usartIrqHandler
      simp only [hi, if_true, ← hr]
      rfl
  | dmaRxIrq =>
    left
    obtain ⟨m, hm, hs⟩ := h.sound
    by_cases hp : w.port.huart.hdmarx.pending = true ∧ w.port.huart.hdmarx.state ≠ .abort
    · simp only [rearmCall, if_pos hp, Option.some.injEq] at hr
      obtain rfl := (hm.pending_sound hs).mp hp.1
      show w.dmaRxIrq.port = _
      rw [dmaRxIrq_of_pending hp.1, Port.dmaRxIrqHandler_complete hm, ← hr,
        Port.rxCpltPrepare_eq hm.completed]
      rfl
    · simp [rearmCall, if_neg hp] at hr
  | enter =>
    by_cases hp : w.main = none ∧ w.port.swaps = true
    · simp only [rearmCall, if_pos hp, Option.some.injEq] at hr
      have hswap : w.port.manageSwap = (Port.rearm r).2 := by
        unfold Port.manageSwap
        rw [if_pos hp.2, ← hr]
      show w.enter.port = _ ∨ w.enter.port = _
      by_cases hc : w.port.manageSwap.receiveCount = 0
      · rw [enter_of_empty hp.1 hc]
        exact .inl hswap
      · rw [enter_of_filled hp.1 hc]
        exact .inr (congrArg Port.manageBusy hswap)
    · simp [rearmCall, if_neg hp] at hr
  | rxByte | dmaTxIrq | txByte | sendStr | leave => simp [rearmCall] at hr

/-- Without line errors the call finds the driver stopped; its length is the whole array
unless bytes stay in it. -/
theorem rearmCall_window (h : w.Clean) {e : Event} (he : e.clean = true) {r : Port × Nat}
    (hr : w.rearmCall e = some r) : r.1.Window .stopped ∧ r.2 = r.1.dmaReceiveCount ∧
      (0 < r.1.dmaReceiveSize ↔ KeepsRoom w e) := by
  obtain ⟨m, hm, hs⟩ := h.sound
  cases e with
  | usartIrq sr =>
    cases hi : sr.idle
    · simp [rearmCall, hi] at hr
    · simp only [rearmCall, hi, if_true, Option.some.injEq] at hr
      obtain ⟨hm', hs'⟩ := hs.usartIrq (by simpa [Event.clean] using he) hm
      have hwin := hm'.idlePrepare
      rw [hs'.stop] at hwin
      rw [← hr]
      refine ⟨hwin.1, hwin.2, ?_⟩
      have hndtr :
          ({ w.port with huart := halUartIrqHandler sr w.port.huart } : Port).ndtr = w.port.ndtr :=
        congrArg Prod.fst (halUartIrqHandler_window sr w.port.huart)
      have hsize := Port.idlePrepare_size hm'
      rw [hndtr] at hsize
      rw [hsize]
      show (0 < if w.port.processed = true then usartReceiveMax else w.port.ndtr) ↔
        (sr.idle = true → w.port.processed = true ∨ 0 < w.port.ndtr)
      cases hp : w.port.processed
      · simp [hi]
      · simp [usartReceiveMax]
  | dmaRxIrq =>
    by_cases hp : w.port.huart.hdmarx.pending = true ∧ w.port.huart.hdmarx.state ≠ .abort
    · simp only [rearmCall, if_pos hp, Option.some.injEq] at hr
      obtain rfl := (hm.pending_sound hs).mp hp.1
      rw [← hr, Port.rxCpltPrepare_eq hm.completed]
      exact ⟨(hm.completed.exchange rfl (Nat.le_refl _)).setState _, rfl, fun _ => trivial,
        fun _ => usartReceiveMax_pos⟩
    · simp [rearmCall, if_neg hp] at hr
  | enter =>
    by_cases hp : w.main = none ∧ w.port.swaps = true
    · simp only [rearmCall, if_pos hp, Option.some.injEq] at hr
      have hwin := hm.swapPrepare
      rw [hs.stop] at hwin
      rw [← hr]
      exact ⟨hwin, rfl, fun _ => trivial, fun _ => usartReceiveMax_pos⟩
    · simp [rearmCall, if_neg hp] at hr
  | rxByte | dmaTxIrq | txByte | sendStr | leave => simp [rearmCall] at hr

/-- On a stopped port the final call succeeds exactly when it has a length. -/
theorem rearms_iff (h : w.Clean) {e : Event} (he : e.clean = true) :
    Rearms w e ↔ KeepsRoom w e := by
  constructor
  · intro hre
    cases hr : w.rearmCall e with
    | some r => exact (rearmCall_window h he hr).2.2.mp (hre r hr).2.1
    | none =>
      cases e with
      | usartIrq sr =>
        intro hi
        simp [rearmCall, hi] at hr
      | _ => trivial
  · intro hroom r hr
    obtain ⟨hwin, hoff, hsize⟩ := rearmCall_window h he hr
    have hpos := hsize.mpr hroom
    have hne : r.1.dmaReceiveSize ≠ 0 := Nat.pos_iff_ne_zero.mp hpos
    have hok := (Port.rearm_cases hwin rfl r.2).1
    have hrun := hwin.rearm rfl hoff
    rw [Port.rearmed, if_neg hne] at hrun
    rw [if_neg hne] at hok
    have hrun' : (w.step e).port.Window .running := by
      rcases rearmCall_port h hr with heq | heq
      · rw [heq]
        exact hrun
      · rw [heq]
        exact hrun.setState _
    refine ⟨hwin.mode.rxState, hpos, hok, ?_, fun b => ?_⟩
    · unfold Port.armed
      rw [hrun'.mode.en, hrun'.mode.dmar]
      rfl
    · rw [Port.rxDmaStore_running hrun']
      rfl

/-! ### Every run -/

/-- **Reception stays armed.** The handlers of a run all end with the stream running exactly
when no idle line is served over a full DMA buffer while the user buffer waits. -/
theorem rearms_run (com : Com) (es : List Event) (hclean : ∀ e ∈ es, e.clean = true) :
    Along step Rearms (init com) es ↔ Along step KeepsRoom (init com) es := by
  have hall : Along step (fun _ e => Event.clean e = true) (init com) es :=
    along_of_forall (p := fun e : Event => e.clean = true) _ hclean
  have hiff : Along step (fun w e => e.clean = true ∧ Rearms w e) (init com) es ↔
      Along step (fun w e => e.clean = true ∧ KeepsRoom w e) (init com) es :=
    along_congr (fun w e h he => clean_step w e h he.1)
      (fun w e h => and_congr_right fun he => rearms_iff h he) (clean_init com) es
  rw [along_and, along_and] at hiff
  exact ⟨fun h => (hiff.mp ⟨hall, h⟩).2, fun h => (hiff.mpr ⟨hall, h⟩).2⟩

/-- A byte, an idle line, another byte and another idle line. -/
theorem rearms_frame : Along step Rearms (init .usart1) [.rxByte 1, .usartIrq { idle := true },
    .rxByte 2, .usartIrq { idle := true }] :=
  (rearms_run .usart1 _ (by decide)).mpr (by decide)

/-- A frame of one byte that is not processed yet, and fifty more bytes. -/
def fullArray : List Event :=
  [.rxByte 1, .usartIrq { idle := true }] ++
    (List.range usartReceiveMax).map (fun i => .rxByte (UInt8.ofNat i))

/-- The transfer-complete interrupt is pending; the idle line is served first, and the stream is
not started again. -/
theorem fullArray_disarmed :
    (∀ e ∈ fullArray, e.clean = true) ∧ (run .usart1 fullArray).port.huart.hdmarx.pending = true ∧
      ¬ Rearms (run .usart1 fullArray) (.usartIrq { idle := true }) := by
  refine ⟨by decide +kernel, by decide +kernel, fun h => ?_⟩
  have hsize := (h _ rfl).2.1
  revert hsize
  decide +kernel

end World

end Stm32F4.Usart
