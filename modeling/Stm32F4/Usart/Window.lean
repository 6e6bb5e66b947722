import Stm32F4.Hal.Transmission
import Stm32F4.Usart.World

/-! The receive window.

Whatever the receive side of the handle is in the middle of (`RxMode`), the port
keeps its books straight (`Window`): the two arrays stay apart, the accounted bytes
and the programmed size add up to the whole array, and a running stream fills
exactly the part behind the accounted bytes. The counter never exceeds the
programmed size, so no subtraction in the handlers wraps and no `uint8_t` or
`uint16_t` truncates: with the window in place each handler is one of two moves on
a stopped port, `exchange` or `append`, followed by the re-arming
(`idlePrepare_eq`, `rxCpltPrepare_eq`, `swapPrepare_eq`). -/
namespace Stm32F4.Usart
open Hal Lib

namespace Port

/-! ### Flags -/

theorem processing_iff (p : Port) : p.usartState &&& 0x1 ≠ 0 ↔ p.processing = true := by
  unfold processing
  generalize p.usartState = s
  revert s
  decide

theorem processed_iff (p : Port) : p.usartState &&& 0x2 ≠ 0 ↔ p.processed = true := by
  unfold processed
  generalize p.usartState = s
  revert s
  decide

theorem refilled_iff (p : Port) : p.usartState &&& 0x4 ≠ 0 ↔ p.refilled = true := by
  unfold refilled
  generalize p.usartState = s
  revert s
  decide

/-- The exchange in the main loop asks for two bits at once. -/
theorem processed_waiting (p : Port) :
    (p.usartState &&& 0xA == 0xA) = (p.processed && p.waiting) := by
  unfold processed waiting
  generalize p.usartState = s
  revert s
  decide

/-- An exchange of the buffers clears bits 1 and 3. -/
theorem getLsbD_exchanged (s : BitVec 8) :
    (s &&& ~~~0x2 &&& ~~~0x8).getLsbD 0 = s.getLsbD 0 ∧
      (s &&& ~~~0x2 &&& ~~~0x8).getLsbD 1 = false ∧
      (s &&& ~~~0x2 &&& ~~~0x8).getLsbD 2 = s.getLsbD 2 ∧
        (s &&& ~~~0x2 &&& ~~~0x8).getLsbD 3 = false := by
  simp

/-- Bytes that stay in the DMA buffer set bit 3. -/
theorem getLsbD_appended (s : BitVec 8) :
    (s ||| 0x8).getLsbD 0 = s.getLsbD 0 ∧ (s ||| 0x8).getLsbD 1 = s.getLsbD 1 ∧
      (s ||| 0x8).getLsbD 2 = s.getLsbD 2 ∧ (s ||| 0x8).getLsbD 3 = true := by
  simp

/-- A full window clears bit 1, and sets bit 2 if the user is at work. -/
theorem getLsbD_filled (s : BitVec 8) (b : Bool) :
    ((if b = true then s ||| 0x4 else s) &&& ~~~0x2).getLsbD 0 = s.getLsbD 0 ∧
      ((if b = true then s ||| 0x4 else s) &&& ~~~0x2).getLsbD 1 = false ∧
      ((if b = true then s ||| 0x4 else s) &&& ~~~0x2).getLsbD 2 = (s.getLsbD 2 || b) ∧
      ((if b = true then s ||| 0x4 else s) &&& ~~~0x2).getLsbD 3 = s.getLsbD 3 := by
  cases b <;> simp

/-- Entering `com->func` sets bit 0. -/
theorem getLsbD_busy (s : BitVec 8) :
    (s ||| 0x1).getLsbD 0 = true ∧ (s ||| 0x1).getLsbD 1 = s.getLsbD 1 ∧
      (s ||| 0x1).getLsbD 2 = s.getLsbD 2 ∧ (s ||| 0x1).getLsbD 3 = s.getLsbD 3 := by
  simp

/-- Leaving it after the window has filled up clears bits 0 and 2. -/
theorem getLsbD_refilled (s : BitVec 8) :
    (s &&& ~~~0x4 &&& ~~~0x1).getLsbD 0 = false ∧
      (s &&& ~~~0x4 &&& ~~~0x1).getLsbD 1 = s.getLsbD 1 ∧
      (s &&& ~~~0x4 &&& ~~~0x1).getLsbD 2 = false ∧
        (s &&& ~~~0x4 &&& ~~~0x1).getLsbD 3 = s.getLsbD 3 := by
  simp

/-- Leaving it otherwise clears bit 0 and sets bit 1. -/
theorem getLsbD_finished (s : BitVec 8) :
    ((s ||| 0x2) &&& ~~~0x1).getLsbD 0 = false ∧ ((s ||| 0x2) &&& ~~~0x1).getLsbD 1 = true ∧
      ((s ||| 0x2) &&& ~~~0x1).getLsbD 2 = s.getLsbD 2 ∧
        ((s ||| 0x2) &&& ~~~0x1).getLsbD 3 = s.getLsbD 3 := by
  simp

/-! ### The two moves -/

/-- The bytes in the DMA buffer. -/
def counted (p : Port) : Nat := p.dmaReceiveCount + (p.dmaReceiveSize - p.ndtr)

/-- The buffers trade places and `n` bytes are handed to the user. -/
def exchange (p : Port) (n : Nat) : Port :=
  { p with
    buff := p.dmaBuff, dmaBuff := p.buff, receiveCount := n
    dmaReceiveCount := 0, dmaReceiveSize := usartReceiveMax }

/-- The DMA buffer is kept and `n` of its bytes are accounted for. -/
def append (p : Port) (n : Nat) : Port :=
  { p with dmaReceiveCount := n, dmaReceiveSize := usartReceiveMax - n }

/-- `HAL_UART_DMAStop`. -/
def stop (p : Port) : Port := { p with huart := halUartDmaStop p.huart }

/-! ### The window -/

structure Window (p : Port) (m : RxMode) : Prop where
  mode : p.huart.InMode m
  distinct : p.buff ≠ p.dmaBuff
  receiveCount_le : p.receiveCount ≤ usartReceiveMax
  sum : p.dmaReceiveCount + p.dmaReceiveSize = usartReceiveMax
  ndtr_le : p.ndtr ≤ p.dmaReceiveSize
  target : m = .running ∨ m = .complete →
    p.huart.hdmarx.m0ar = p.addr p.dmaBuff p.dmaReceiveCount ∧ p.huart.hdmarx.len = p.dmaReceiveSize

variable {p : Port} {m : RxMode}

namespace Window

/-- The counter and the bytes in the DMA buffer add up to the array. -/
theorem counted_add_ndtr (h : p.Window m) : p.counted + p.ndtr = usartReceiveMax := by
  have := h.sum
  have := h.ndtr_le
  unfold counted
  omega

/-- One byte more is counted when the counter goes down by one. -/
theorem counted_succ (h : p.Window m) {n : Nat} (hn : n + 1 = p.ndtr) :
    p.dmaReceiveCount + (p.dmaReceiveSize - n) = p.counted + 1 := by
  have := h.ndtr_le
  unfold counted
  omega

theorem counted_le (h : p.Window m) : p.counted ≤ usartReceiveMax := by
  have := h.counted_add_ndtr
  omega

theorem size_le (h : p.Window m) : p.dmaReceiveSize ≤ usartReceiveMax := by
  have := h.sum
  omega

/-- The flags are no part of it. -/
theorem setState (h : p.Window m) (s : BitVec 8) : { p with usartState := s }.Window m :=
  ⟨h.mode, h.distinct, h.receiveCount_le, h.sum, h.ndtr_le, h.target⟩

/-- The handle may change as long as the receive side's mode and registers stay. -/
theorem setHuart {u : UartHandle Addr} (h : p.Window m) (hm : u.InMode m)
    (hw : u.hdmarx.window = p.huart.hdmarx.window) : { p with huart := u }.Window m := by
  obtain ⟨hndtr, hm0ar, hlen⟩ : u.hdmarx.ndtr = p.huart.hdmarx.ndtr ∧
      u.hdmarx.m0ar = p.huart.hdmarx.m0ar ∧ u.hdmarx.len = p.huart.hdmarx.len := by
    simpa [DmaHandle.window] using hw
  refine ⟨hm, h.distinct, h.receiveCount_le, h.sum, ?_, fun hrun => ?_⟩
  · show u.hdmarx.ndtr ≤ p.dmaReceiveSize
    rw [hndtr]
    exact h.ndtr_le
  · show u.hdmarx.m0ar = p.addr p.dmaBuff p.dmaReceiveCount ∧ u.hdmarx.len = p.dmaReceiveSize
    rw [hm0ar, hlen]
    exact h.target hrun

/-- With no stream running the handle is all that matters. -/
theorem setIdle {u : UartHandle Addr} {m' : RxMode} (h : p.Window m) (hm : u.InMode m')
    (hr : m' ≠ .running ∧ m' ≠ .complete) (hn : u.hdmarx.ndtr = p.ndtr) :
    { p with huart := u }.Window m' := by
  refine ⟨hm, h.distinct, h.receiveCount_le, h.sum, ?_, fun hrun => ?_⟩
  · show u.hdmarx.ndtr ≤ p.dmaReceiveSize
    rw [hn]
    exact h.ndtr_le
  · rcases hrun with rfl | rfl
    · exact absurd rfl hr.1
    · exact absurd rfl hr.2

theorem stop_ndtr (p : Port) : p.stop.ndtr = p.ndtr :=
  congrArg Prod.fst (halUartDmaStop_window p.huart)

theorem stop (h : p.Window m) : p.stop.Window m.stop :=
  h.setIdle (halUartDmaStop_inMode h.mode) (by cases m <;> decide) (stop_ndtr p)

theorem exchange (h : p.Window m) (hm : m.receiving = false) {n : Nat} (hn : n ≤ usartReceiveMax) :
    (p.exchange n).Window m := by
  refine ⟨h.mode, h.distinct.symm, hn, Nat.zero_add _, ?_, ?_⟩
  · exact Nat.le_trans h.ndtr_le h.size_le
  · rintro (rfl | rfl) <;> cases hm

theorem append (h : p.Window m) (hm : m.receiving = false) {n : Nat}
    (hn : n + p.ndtr = usartReceiveMax) :
    (p.append n).Window m := by
  refine ⟨h.mode, h.distinct, h.receiveCount_le, ?_, ?_, ?_⟩
  · show n + (usartReceiveMax - n) = usartReceiveMax
    omega
  · show p.ndtr ≤ usartReceiveMax - n
    omega
  · rintro (rfl | rfl) <;> cases hm

end Window

/-! ### What comes before the re-arming -/

/-- No subtraction in the handlers wraps and nothing is truncated. -/
theorem Window.machine (h : p.Window m) :
    subU32 p.dmaReceiveSize p.ndtr = p.dmaReceiveSize - p.ndtr ∧
      u16 (p.dmaReceiveCount + subU32 p.dmaReceiveSize p.ndtr) = p.counted ∧
      u8 p.counted = p.counted ∧
      u16 (subU32 usartReceiveMax p.counted) = usartReceiveMax - p.counted ∧
      u16 (p.dmaReceiveCount + p.dmaReceiveSize) = usartReceiveMax := by
  have hsum := h.sum
  have hndtr := h.ndtr_le
  have hc := h.counted_le
  simp only [usartReceiveMax] at hsum hc ⊢
  have hsub : subU32 p.dmaReceiveSize p.ndtr = p.dmaReceiveSize - p.ndtr := by
    unfold subU32
    omega
  refine ⟨hsub, ?_, ?_, ?_, ?_⟩
  · rw [hsub]
    exact Nat.mod_eq_of_lt (show p.counted < 2 ^ 16 by omega)
  · exact Nat.mod_eq_of_lt (by omega)
  · unfold u16 subU32
    omega
  · unfold u16
    omega

/-- Whether or not there is a new byte, an idle line exchanges the buffers if the user
buffer has been processed and accounts for what has arrived otherwise. -/
theorem idlePrepare_eq (h : p.Window m) : p.idlePrepare =
    if p.processed then
      ({ p.stop.exchange p.counted with usartState := p.usartState &&& ~~~0x2 &&& ~~~0x8 }, 0)
    else ({ p.stop.append p.counted with usartState := p.usartState ||| 0x8 }, p.counted) := by
  obtain ⟨-, hcount, hshift, hsize, -⟩ := h.machine
  unfold idlePrepare
  simp only [hcount, processed_iff, swapBuffers]
  by_cases hp : p.processed = true
  · simp only [hp, if_true]
    rfl
  · simp only [hp, hshift, hsize]
    rfl

/-- The length of the final call after an idle line: the whole array, or what is left of it. -/
theorem idlePrepare_size (h : p.Window m) :
    p.idlePrepare.1.dmaReceiveSize = if p.processed then usartReceiveMax else p.ndtr := by
  have hcount := h.counted_add_ndtr
  rw [idlePrepare_eq h]
  split
  · rfl
  · show usartReceiveMax - p.counted = p.ndtr
    omega

/-- A full window is handed to the user, processed or not. -/
theorem rxCpltPrepare_eq (h : p.Window m) : p.rxCpltPrepare =
    ({ p.exchange usartReceiveMax with
        usartState :=
          (if p.processing then p.usartState ||| 0x4 else p.usartState) &&& ~~~0x2 }, 0) := by
  obtain ⟨-, -, -, -, hfull⟩ := h.machine
  unfold rxCpltPrepare
  simp only [hfull, processing_iff, swapBuffers]
  by_cases hp : p.processing = true
  · simp only [hp, if_true]
    rfl
  · simp only [hp]
    rfl

theorem swapPrepare_eq (p : Port) : p.swapPrepare =
    ({ p.stop.exchange p.dmaReceiveCount with
      usartState := p.usartState &&& ~~~0x2 &&& ~~~0x8 }, 0) := rfl

/-- The exchange in the main loop: nothing has arrived since the stream was armed. -/
theorem swaps_iff (p : Port) :
    p.swaps = true ↔ p.processed = true ∧ p.waiting = true ∧ p.dmaReceiveSize = p.ndtr := by
  rw [swaps, processed_waiting]
  simp [and_assoc]

/-- After `com->func` the user buffer is done with, unless the window filled up meanwhile. -/
theorem manageFinish_eq (p : Port) : p.manageFinish =
    if p.refilled then { p with usartState := p.usartState &&& ~~~0x4 &&& ~~~0x1 }
    else { p with receiveCount := 0, usartState := (p.usartState ||| 0x2) &&& ~~~0x1 } := by
  unfold manageFinish
  simp only [refilled_iff]
  by_cases hp : p.refilled = true
  · simp only [hp, if_true]
  · simp only [hp]
    rfl

/-! ### Re-arming -/

/-- Mode `m` after a re-arming with the given length. -/
def rearmed (m : RxMode) (size : Nat) : RxMode := if size = 0 then m else m.start

/-- An abort stays outstanding. -/
theorem rearmed_aborting (size : Nat) : (rearmed .aborting size).dmaState = .abort := by
  unfold rearmed
  split <;> rfl

/-- What the final call does. Nothing armed and nothing outstanding: the stream starts
on the window asked for unless that is empty. An abort outstanding: the call
succeeds, but no stream is started. -/
theorem rearm_cases {p : Port} {m : RxMode} (h : p.Window m) (hm : m.receiving = false)
    (off : Nat) :
    ((rearm (p, off)).1 = if p.dmaReceiveSize = 0 then .error else .ok) ∧
      (rearm (p, off)).2.huart.InMode (rearmed m p.dmaReceiveSize) ∧
      (m = .aborting → (rearm (p, off)).2.ndtr = p.ndtr) ∧
      (m = .stopped → (rearm (p, off)).2.ndtr = p.dmaReceiveSize) ∧
      (m = .stopped → 0 < p.dmaReceiveSize →
        (rearm (p, off)).2.huart.hdmarx.m0ar = p.addr p.dmaBuff off ∧
          (rearm (p, off)).2.huart.hdmarx.len = p.dmaReceiveSize) := by
  have hrx : p.huart.rxState = .ready := by rw [h.mode.rxState, RxMode.rxState, hm]; rfl
  by_cases hs : p.dmaReceiveSize = 0
  · have hz := halUartReceiveDma_zero p.huart hrx (p.addr p.dmaBuff off)
    have hr : rearm (p, off) = (.error, p) := by
      unfold rearm
      rw [show (p, off).1.dmaReceiveSize = 0 from hs, hz]
    have hn : p.ndtr = p.dmaReceiveSize := by
      have := h.ndtr_le
      omega
    rw [hr, rearmed, if_pos hs, if_pos hs]
    exact ⟨rfl, h.mode, fun _ => rfl, fun _ => hn, fun _ h0 => by omega⟩
  · have hs0 : 0 < p.dmaReceiveSize := by omega
    have hmode := h.mode
    rw [rearmed, if_neg hs, if_neg hs]
    cases m with
    | stopped =>
      obtain ⟨hok, hrun, hndtr, hm0ar, hlen⟩ :=
        halUartReceiveDma_stopped hmode (p.addr p.dmaBuff off) hs0
      exact ⟨hok, hrun, fun h' => (by cases h'), fun _ => hndtr, fun _ _ => ⟨hm0ar, hlen⟩⟩
    | aborting =>
      obtain ⟨hok, hrun, hndtr⟩ := halUartReceiveDma_aborting hmode (p.addr p.dmaBuff off) hs0
      exact ⟨hok, hrun, fun _ => hndtr, fun h' => (by cases h'), fun h' => (by cases h')⟩
    | running | complete | stale | staleAborting => cases hm

theorem Window.rearm {r : Port × Nat} (h : r.1.Window m) (hm : m.receiving = false)
    (hoff : r.2 = r.1.dmaReceiveCount) : (rearm r).2.Window (rearmed m r.1.dmaReceiveSize) := by
  obtain ⟨p, off⟩ := r
  obtain ⟨-, hmode, haborting, hstopped, htarget⟩ := rearm_cases h hm off
  have hoff' : off = p.dmaReceiveCount := hoff
  refine ⟨hmode, h.distinct, h.receiveCount_le, h.sum, ?_, ?_⟩
  · show (Port.rearm (p, off)).2.ndtr ≤ p.dmaReceiveSize
    cases m with
    | stopped => exact Nat.le_of_eq (hstopped rfl)
    | aborting =>
      rw [haborting rfl]
      exact h.ndtr_le
    | running | complete | stale | staleAborting => cases hm
  · show rearmed m p.dmaReceiveSize = .running ∨ rearmed m p.dmaReceiveSize = .complete →
      (Port.rearm (p, off)).2.huart.hdmarx.m0ar = p.addr p.dmaBuff p.dmaReceiveCount ∧
        (Port.rearm (p, off)).2.huart.hdmarx.len = p.dmaReceiveSize
    intro hrun
    unfold rearmed at hrun
    by_cases hs : p.dmaReceiveSize = 0
    · rw [if_pos hs] at hrun
      rcases hrun with rfl | rfl <;> cases hm
    · rw [if_neg hs] at hrun
      rw [← hoff']
      cases m with
      | stopped => exact htarget rfl (Nat.pos_of_ne_zero hs)
      | aborting => simp [RxMode.start] at hrun
      | running | complete | stale | staleAborting => cases hm

/-! ### The handlers -/

theorem Window.usartIrq (h : p.Window m) (sr : Sr) :
    { p with huart := halUartIrqHandler sr p.huart }.Window
      (if sr.errors && m.receiving then m.fail else m) := by
  by_cases he : (sr.errors && m.receiving) = true
  · rw [if_pos he]
    have hmode := halUartIrqHandler_inMode h.mode sr
    rw [if_pos he] at hmode
    exact h.setIdle hmode (by cases m <;> simp_all [RxMode.fail, RxMode.receiving])
      (congrArg Prod.fst (halUartIrqHandler_window sr p.huart))
  · rw [if_neg he]
    have hmode := halUartIrqHandler_inMode h.mode sr
    rw [if_neg he] at hmode
    exact h.setHuart hmode (halUartIrqHandler_window sr p.huart)

theorem stop_receiving (m : RxMode) : m.stop.receiving = false := by
  cases m <;> rfl

theorem Window.idlePrepare (h : p.Window m) :
    p.idlePrepare.1.Window m.stop ∧ p.idlePrepare.2 = p.idlePrepare.1.dmaReceiveCount := by
  have hstop := h.stop
  have hcount := h.counted_add_ndtr
  rw [← Window.stop_ndtr p] at hcount
  rw [idlePrepare_eq h]
  split
  · exact ⟨(hstop.exchange (stop_receiving m) h.counted_le).setState _, rfl⟩
  · exact ⟨(hstop.append (stop_receiving m) hcount).setState _, rfl⟩

theorem Window.idleBranch (h : p.Window m) :
    p.idleBranch.Window (rearmed m.stop p.idlePrepare.1.dmaReceiveSize) :=
  h.idlePrepare.1.rearm (stop_receiving m) h.idlePrepare.2

theorem Window.usartIrqHandler (h : p.Window m) (sr : Sr) :
    ∃ m', (p.usartIrqHandler sr).Window m' := by
  unfold Port.usartIrqHandler
  split
  · exact ⟨_, (h.usartIrq sr).idleBranch⟩
  · exact ⟨_, h.usartIrq sr⟩

/-- What an interrupt of the UART can do to the port, beside its handle. -/
theorem usartIrqHandler_cases (h : p.Window m) (sr : Sr) : ∃ u,
    sr.idle = false ∧ p.usartIrqHandler sr = { p with huart := u } ∨
    sr.idle = true ∧ p.processed = true ∧ p.usartIrqHandler sr =
      { p.exchange p.counted with huart := u, usartState := p.usartState &&& ~~~0x2 &&& ~~~0x8 } ∨
    sr.idle = true ∧ p.processed = false ∧ p.usartIrqHandler sr =
      { p.append p.counted with huart := u, usartState := p.usartState ||| 0x8 } := by
  refine ⟨(p.usartIrqHandler sr).huart, ?_⟩
  have hndtr : ({ p with huart := halUartIrqHandler sr p.huart } : Port).counted = p.counted :=
    congrArg (fun n => p.dmaReceiveCount + (p.dmaReceiveSize - n))
      (congrArg Prod.fst (halUartIrqHandler_window sr p.huart))
  cases hi : sr.idle
  · left
    refine ⟨rfl, ?_⟩
    simp only [Port.usartIrqHandler, hi]
    rfl
  · right
    have heq : p.usartIrqHandler sr =
        (rearm (Port.idlePrepare { p with huart := halUartIrqHandler sr p.huart })).2 := by
      simp only [Port.usartIrqHandler, hi]
      rfl
    rw [idlePrepare_eq (h.usartIrq sr), hndtr] at heq
    cases hp : p.processed
    · right
      rw [if_neg (by simpa [processed] using hp)] at heq
      exact ⟨rfl, rfl, heq.trans (by rw [heq]; rfl)⟩
    · left
      rw [if_pos (by simpa [processed] using hp)] at heq
      exact ⟨rfl, rfl, heq.trans (by rw [heq]; rfl)⟩

theorem Window.swapPrepare (h : p.Window m) : p.swapPrepare.1.Window m.stop := by
  have hle : p.dmaReceiveCount ≤ usartReceiveMax := by
    have := h.sum
    omega
  rw [swapPrepare_eq]
  exact (h.stop.exchange (stop_receiving m) hle).setState _

theorem Window.manageSwap (h : p.Window m) : ∃ m', p.manageSwap.Window m' := by
  unfold Port.manageSwap
  split
  · exact ⟨_, h.swapPrepare.rearm (stop_receiving m) rfl⟩
  · exact ⟨m, h⟩

theorem Window.manageFinish (h : p.Window m) : p.manageFinish.Window m := by
  rw [manageFinish_eq]
  split
  · exact h.setState _
  · exact ⟨h.mode, h.distinct, Nat.zero_le _, h.sum, h.ndtr_le, h.target⟩

theorem manageSwap_of_not (hs : p.swaps = false) : p.manageSwap = p := by
  unfold Port.manageSwap
  rw [hs]
  rfl

/-- The main loop exchanges nothing while the user buffer is not processed. -/
theorem manageSwap_unprocessed (hp : p.processed = false) : p.manageSwap = p := by
  apply manageSwap_of_not
  rw [← Bool.not_eq_true, swaps_iff, hp]
  simp

/-- What the exchange in the main loop can do to the port, beside its handle. -/
theorem manageSwap_cases (p : Port) : ∃ u,
    p.swaps = false ∧ p.manageSwap = p ∨
    p.swaps = true ∧ p.manageSwap =
      { p.exchange p.dmaReceiveCount with
        huart := u, usartState := p.usartState &&& ~~~0x2 &&& ~~~0x8 } := by
  refine ⟨p.manageSwap.huart, ?_⟩
  unfold Port.manageSwap
  cases p.swaps
  · exact .inl ⟨rfl, rfl⟩
  · exact .inr ⟨rfl, rfl⟩

/-! ### The stream's interrupt -/

/-- The handle a completed transfer leaves to `HAL_UART_RxCpltCallback`. -/
def completed (p : Port) : Port :=
  { p with huart := uartDmaReceiveCplt { p.huart with hdmarx := afterIrq p.huart.hdmarx } }

theorem Window.completed (h : p.Window .complete) : p.completed.Window .stopped :=
  h.setIdle (afterIrq_complete h.mode) (by decide) rfl

/-- A full window goes to the user and the stream starts on the other array. -/
theorem Window.full (h : p.Window .complete) (s : BitVec 8) :
    (Port.rearm ({ p.completed.exchange usartReceiveMax with
      usartState := s }, 0)).2.Window .running :=
  ((h.completed.exchange rfl (Nat.le_refl _)).setState s).rearm (r := (_, 0)) rfl rfl

/-- A completed transfer goes to `HAL_UART_RxCpltCallback`; nothing is left to report. -/
theorem dmaRxIrqHandler_complete (h : p.Window .complete) : p.dmaRxIrqHandler =
    (rearm ({ p.completed.exchange usartReceiveMax with
      usartState :=
        (if p.processing then p.usartState ||| 0x4 else p.usartState) &&& ~~~0x2 }, 0)).2 := by
  have hpend : p.huart.hdmarx.pending = true := by rw [h.mode.pending]; rfl
  have hstate : p.huart.hdmarx.state ≠ .abort := by rw [h.mode.state]; decide
  have hcb : dmaRx.xferCplt (dmaRx.setHdma (afterIrq p.huart.hdmarx) p) =
      (rearm p.completed.rxCpltPrepare).2 := rfl
  unfold dmaRxIrqHandler halDmaIrqHandler
  simp only [show dmaRx.hdma p = p.huart.hdmarx from rfl, hpend, if_true, if_neg hstate]
  show reportError dmaRx (dmaRx.xferCplt (dmaRx.setHdma (afterIrq p.huart.hdmarx) p)) = _
  rw [hcb, rxCpltPrepare_eq h.completed]
  unfold reportError
  rw [if_neg]
  · rfl
  · exact fun hne => hne ((h.full _).mode.clean rfl)

/-- The end of an outstanding abort only frees the handle. -/
theorem dmaRxIrqHandler_aborting (h : p.Window m) (hm : m.dmaState = .abort) :
    p.dmaRxIrqHandler = { p with huart := { p.huart with hdmarx := afterIrq p.huart.hdmarx } } ∧
      p.dmaRxIrqHandler.Window (if m.receiving then .stale else .stopped) := by
  have hpend : p.huart.hdmarx.pending = true := by
    rw [h.mode.pending]
    cases m <;> first | rfl | cases hm
  have hstate : p.huart.hdmarx.state = .abort := h.mode.state.trans hm
  have heq : p.dmaRxIrqHandler =
      { p with huart := { p.huart with hdmarx := afterIrq p.huart.hdmarx } } := by
    unfold dmaRxIrqHandler halDmaIrqHandler
    simp only [show dmaRx.hdma p = p.huart.hdmarx from rfl, hpend, if_true, hstate]
    split <;> rfl
  refine ⟨heq, heq ▸ h.setIdle (afterIrq_aborting h.mode hm) ?_ rfl⟩
  split <;> decide

/-- The stream's flag is raised by a full window or by an abort. -/
theorem Window.pending_cases (h : p.Window m) (hp : p.huart.hdmarx.pending = true) :
    m = .complete ∨ m.dmaState = .abort := by
  rw [h.mode.pending] at hp
  cases m <;> simp_all [RxMode.tcif, RxMode.dmaState]

/-! ### The stream -/

/-- The stream takes a byte in the running mode only. -/
theorem Window.armed_iff (h : p.Window m) : p.armed = true ↔ m = .running := by
  unfold armed
  rw [h.mode.en, h.mode.dmar]
  cases m <;> decide

/-- A byte is stored behind the bytes in the DMA buffer. -/
theorem rxDmaStore_running (h : p.Window .running) (b : UInt8) :
    p.rxDmaStore b = some { p with
      bytes := Function.update p.bytes p.dmaBuff (Function.update (p.bytes p.dmaBuff) p.counted b)
      huart := { p.huart with hdmarx := p.huart.hdmarx.transfer } } := by
  obtain ⟨hm0ar, hlen⟩ := h.target (.inl rfl)
  have harmed : p.armed = true := h.armed_iff.mpr rfl
  have htarget : p.rxTarget = p.addr p.dmaBuff p.counted := by
    unfold rxTarget DmaHandle.pos counted ndtr
    rw [hm0ar, hlen]
    rfl
  unfold rxDmaStore
  rw [if_pos harmed, htarget]
  simp [write, addr]

/-- In any other mode it is lost. -/
theorem rxDmaStore_of_ne (h : p.Window m) (hm : m ≠ .running) (b : UInt8) :
    p.rxDmaStore b = none := by
  unfold rxDmaStore
  rw [if_neg fun harmed => hm (h.armed_iff.mp harmed)]

theorem Window.transfer (h : p.Window .running) (f : Buf → Nat → UInt8) :
    { p with bytes := f, huart := { p.huart with hdmarx := p.huart.hdmarx.transfer } }.Window
      (if p.ndtr = 1 then .complete else .running) := by
  refine ⟨transfer_inMode h.mode, h.distinct, h.receiveCount_le, h.sum, ?_,
    fun _ => h.target (.inl rfl)⟩
  exact Nat.le_trans (Nat.sub_le _ _) h.ndtr_le

end Port

end Stm32F4.Usart
