import Stm32F4.Usart.Invariant

/-! Runs without line errors.

No transfer is ever aborted half way, so the receive side is in one of three modes:
the stream runs, it has filled its window, or it was stopped on a full array and
not started again (`Sound`). What one event can do is then said once (`Effect`), and
everything about such runs is an induction over that list. -/
namespace Stm32F4.Usart
open Hal Lib

namespace Port

/-- The mode of a port whose line has been free of errors. -/
def SoundMode (p : Port) (m : RxMode) : Prop :=
  m = .running ∨ m = .complete ∨ m = .stopped ∧ p.dmaReceiveSize = 0

def Sound (p : Port) : Prop := ∃ m, p.Window m ∧ p.SoundMode m

variable {p : Port} {m : RxMode}

/-- Out of the running mode the window is full. -/
theorem Window.ndtr_eq_zero (h : p.Window m) (hs : p.SoundMode m) (hm : m ≠ .running) :
    p.ndtr = 0 := by
  rcases hs with rfl | rfl | ⟨rfl, hsize⟩
  · exact absurd rfl hm
  · exact h.mode.full rfl
  · have := h.ndtr_le
    omega

theorem SoundMode.stop (hs : p.SoundMode m) : m.stop = .stopped := by
  rcases hs with rfl | rfl | ⟨rfl, -⟩ <;> rfl

/-- With nothing outstanding the final call starts the stream on the size it is given,
and a zero size leaves the port stopped. -/
theorem Window.rearm_sound {r : Port × Nat} (h : r.1.Window .stopped)
    (hoff : r.2 = r.1.dmaReceiveCount) :
    (Port.rearm r).2.Sound ∧ (Port.rearm r).2.ndtr = r.1.dmaReceiveSize := by
  obtain ⟨p, off⟩ := r
  refine ⟨⟨_, h.rearm rfl hoff, ?_⟩, (rearm_cases h rfl off).2.2.2.1 rfl⟩
  unfold SoundMode rearmed
  by_cases hs : p.dmaReceiveSize = 0
  · exact .inr (.inr ⟨if_pos hs, hs⟩)
  · exact .inl (if_neg hs)

theorem Sound.setState (h : p.Sound) (s : BitVec 8) : { p with usartState := s }.Sound := by
  obtain ⟨m, hm, hs⟩ := h
  exact ⟨m, hm.setState s, hs⟩

/-- A byte leaves a running port running, or complete. -/
theorem Window.transfer_sound (h : p.Window .running) (f : Buf → Nat → UInt8) :
    { p with bytes := f, huart := { p.huart with hdmarx := p.huart.hdmarx.transfer } }.Sound := by
  refine ⟨_, h.transfer f, ?_⟩
  by_cases h1 : p.ndtr = 1
  · exact .inr (.inl (if_pos h1))
  · exact .inl (if_neg h1)

/-- A full window goes to the user, and the stream runs on the other array. -/
theorem dmaRxIrqHandler_full (h : p.Window .complete) : p.dmaRxIrqHandler.Sound ∧ ∃ u,
    u.hdmarx.ndtr = usartReceiveMax ∧ p.dmaRxIrqHandler = { p.exchange usartReceiveMax with
      huart := u
      usartState := (if p.processing then p.usartState ||| 0x4 else p.usartState) &&& ~~~0x2 } := by
  have hwin : ({ p.completed.exchange usartReceiveMax with
      usartState := (if p.processing then p.usartState ||| 0x4 else p.usartState) &&& ~~~0x2 } :
        Port).Window .stopped := (h.completed.exchange rfl (Nat.le_refl _)).setState _
  obtain ⟨hsound, hndtr⟩ := hwin.rearm_sound (r := (_, 0)) rfl
  rw [dmaRxIrqHandler_complete h]
  exact ⟨hsound, _, hndtr, rfl⟩

theorem idleBranch_sound (h : p.Window m) (hs : p.SoundMode m) :
    p.idleBranch.Sound ∧ p.idleBranch.ndtr = p.idlePrepare.1.dmaReceiveSize := by
  have hwin := h.idlePrepare
  rw [hs.stop] at hwin
  exact hwin.1.rearm_sound hwin.2

theorem Sound.setHuart {u : UartHandle Addr} (h : p.Sound)
    (hm : ∀ m, p.huart.InMode m → u.InMode m) (hw : u.hdmarx.window = p.huart.hdmarx.window) :
    { p with huart := u }.Sound := by
  obtain ⟨m, hwin, hs⟩ := h
  exact ⟨m, hwin.setHuart (hm m hwin.mode) hw, hs⟩

/-- Without receive errors the driver's interrupt handler is about the transmit side only. -/
theorem SoundMode.usartIrq (hs : p.SoundMode m) {sr : Sr} (he : sr.errors = false)
    (h : p.Window m) :
    { p with huart := halUartIrqHandler sr p.huart }.Window m ∧
      ({ p with huart := halUartIrqHandler sr p.huart } : Port).SoundMode m := by
  have hwin := h.usartIrq sr
  rw [he] at hwin
  exact ⟨hwin, hs⟩

theorem Sound.usartIrqHandler (h : p.Sound) {sr : Sr} (he : sr.errors = false) :
    (p.usartIrqHandler sr).Sound := by
  obtain ⟨m, hm, hs⟩ := h
  obtain ⟨hm', hs'⟩ := hs.usartIrq he hm
  unfold Port.usartIrqHandler
  split
  · exact (idleBranch_sound hm' hs').1
  · exact ⟨m, hm', hs'⟩

/-- The stream's counter after an interrupt of the UART. -/
theorem usartIrqHandler_ndtr (h : p.Window m) (hs : p.SoundMode m) {sr : Sr}
    (he : sr.errors = false) :
    (p.usartIrqHandler sr).ndtr =
      if sr.idle = true ∧ p.processed = true then usartReceiveMax else p.ndtr := by
  obtain ⟨hm', hs'⟩ := hs.usartIrq he h
  have hndtr : ({ p with huart := halUartIrqHandler sr p.huart } : Port).ndtr = p.ndtr :=
    congrArg Prod.fst (halUartIrqHandler_window sr p.huart)
  unfold Port.usartIrqHandler
  cases hi : sr.idle
  · simpa using hndtr
  · simp only [if_true, true_and]
    rw [(idleBranch_sound hm' hs').2, idlePrepare_size hm', hndtr]
    rfl

theorem Sound.manageSwap (h : p.Sound) : p.manageSwap.Sound := by
  obtain ⟨m, hm, hs⟩ := h
  have hwin := hm.swapPrepare
  rw [hs.stop] at hwin
  unfold Port.manageSwap
  split
  · exact (hwin.rearm_sound rfl).1
  · exact ⟨m, hm, hs⟩

/-- The exchange in the main loop starts the stream on the whole array. -/
theorem manageSwap_ndtr (h : p.Sound) (hsw : p.swaps = true) :
    p.manageSwap.ndtr = usartReceiveMax := by
  obtain ⟨m, hm, hs⟩ := h
  have hwin := hm.swapPrepare
  rw [hs.stop] at hwin
  unfold Port.manageSwap
  rw [if_pos hsw]
  exact (hwin.rearm_sound rfl).2

/-- The stream's interrupt is pending when the window is full, and only then. -/
theorem Window.pending_sound (h : p.Window m) (hs : p.SoundMode m) :
    p.huart.hdmarx.pending = true ↔ m = .complete := by
  rw [h.mode.pending]
  rcases hs with rfl | rfl | ⟨rfl, -⟩ <;> decide

/-- A byte is stored when the counter has not run out, and only then. -/
theorem rxDmaStore_sound (h : p.Sound) (b : UInt8) : p.rxDmaStore b =
    if 0 < p.ndtr then some { p with
      bytes := Function.update p.bytes p.dmaBuff (Function.update (p.bytes p.dmaBuff) p.counted b)
      huart := { p.huart with hdmarx := p.huart.hdmarx.transfer } }
    else none := by
  obtain ⟨m, hm, hs⟩ := h
  by_cases hr : m = .running
  · subst hr
    rw [if_pos (show 0 < p.ndtr from hm.mode.room rfl), rxDmaStore_running hm]
  · rw [hm.ndtr_eq_zero hs hr, rxDmaStore_of_ne hm hr]
    rfl

end Port

namespace World

/-! ### What an event can do -/

/-- What the exchange in the main loop can do. -/
inductive Swapped (p : Port) : Port → Prop where
  | kept (hs : p.swaps = false) : Swapped p p
  | swapped (u : UartHandle Addr) (hs : p.swaps = true) (hn : u.hdmarx.ndtr = usartReceiveMax) :
      Swapped p { p.exchange p.dmaReceiveCount with
        huart := u, usartState := p.usartState &&& ~~~0x2 &&& ~~~0x8 }

/-- What an event can do to a world whose line is free of errors. -/
inductive Effect (w : World) : Event → World → Prop where
  /-- nothing on the receive side but the driver's own fields -/
  | kept (e : Event) (u : UartHandle Addr) (wire : List Addr) (accepted : List (List Addr))
      (hn : u.hdmarx.ndtr = w.port.ndtr) :
      Effect w e { w with port := { w.port with huart := u }, wire := wire, accepted := accepted }
  | stored (b : UInt8) (u : UartHandle Addr) (hroom : 0 < w.port.ndtr)
      (hn : u.hdmarx.ndtr + 1 = w.port.ndtr) :
      Effect w (.rxByte b) { w with
        port := { w.port with
          bytes := Function.update w.port.bytes w.port.dmaBuff
            (Function.update (w.port.bytes w.port.dmaBuff) w.port.counted b)
          huart := u }
        stored := w.stored ++ [b] }
  | exchanged (sr : Sr) (u : UartHandle Addr) (hi : sr.idle = true) (hp : w.port.processed = true)
      (hn : u.hdmarx.ndtr = usartReceiveMax) :
      Effect w (.usartIrq sr) { w with
        port := { w.port.exchange w.port.counted with
          huart := u, usartState := w.port.usartState &&& ~~~0x2 &&& ~~~0x8 } }
  | appended (sr : Sr) (u : UartHandle Addr) (hi : sr.idle = true) (hp : w.port.processed = false)
      (hn : u.hdmarx.ndtr = w.port.ndtr) :
      Effect w (.usartIrq sr) { w with
        port :=
          { w.port.append w.port.counted with
            huart := u, usartState := w.port.usartState ||| 0x8 } }
  | filled (u : UartHandle Addr) (hpend : w.port.huart.hdmarx.pending = true)
      (hfull : w.port.ndtr = 0)
      (hn : u.hdmarx.ndtr = usartReceiveMax) :
      Effect w .dmaRxIrq { w with
        port := { w.port.exchange usartReceiveMax with
          huart := u
          usartState :=
            (if w.port.processing then w.port.usartState ||| 0x4 else w.port.usartState) &&&
            ~~~0x2 } }
  | entered (p : Port) (hm : w.main = none) (hs : Swapped w.port p) (hr : p.receiveCount ≠ 0) :
      Effect w .enter { w with
        port := p.manageBusy, main := some ⟨p.buff, p.receiveCount⟩
        passed := w.passed ++ [firstCells (p.bytes p.buff) p.receiveCount] }
  | passedOver (p : Port) (hm : w.main = none) (hs : Swapped w.port p) (hr : p.receiveCount = 0) :
      Effect w .enter { w with port := p }
  | left (c : Call) (hm : w.main = some c) :
      Effect w .leave { w with port := w.port.manageFinish, main := none }

variable {w : World}

/-- An event that changes nothing. -/
theorem Effect.refl (w : World) (e : Event) : Effect w e w :=
  .kept e w.port.huart w.wire w.accepted rfl

theorem swapped_manageSwap {p : Port} (h : p.Sound) : Swapped p p.manageSwap := by
  obtain ⟨u, ⟨hs, heq⟩ | ⟨hs, heq⟩⟩ := Port.manageSwap_cases p
  · rw [heq]
    exact .kept hs
  · have hn := Port.manageSwap_ndtr h hs
    rw [heq] at hn ⊢
    exact .swapped u hs hn

theorem effect_usartIrq (h : w.port.Sound) {sr : Sr} (he : sr.errors = false) :
    Effect w (.usartIrq sr) (w.usartIrq sr) := by
  obtain ⟨m, hm, hs⟩ := h
  have hn := Port.usartIrqHandler_ndtr hm hs he
  unfold usartIrq
  obtain ⟨u, ⟨hi, heq⟩ | ⟨hi, hp, heq⟩ | ⟨hi, hp, heq⟩⟩ := Port.usartIrqHandler_cases hm sr
  · rw [heq, if_neg (by simp [hi])] at hn
    rw [heq]
    exact .kept _ u w.wire w.accepted hn
  · rw [heq, if_pos ⟨hi, hp⟩] at hn
    rw [heq]
    exact .exchanged sr u hi hp hn
  · rw [heq, if_neg (by simp [hp])] at hn
    rw [heq]
    exact .appended sr u hi hp hn

theorem effect_dmaRxIrq (h : w.port.Sound) : Effect w .dmaRxIrq w.dmaRxIrq := by
  obtain ⟨m, hm, hs⟩ := h
  by_cases hp : w.port.huart.hdmarx.pending = true
  · rw [dmaRxIrq_of_pending hp]
    obtain rfl := (hm.pending_sound hs).mp hp
    obtain ⟨-, u, hn, heq⟩ := Port.dmaRxIrqHandler_full hm
    rw [heq]
    exact .filled u hp (hm.mode.full rfl) hn
  · rw [dmaRxIrq_of_not hp]
    exact .refl w _

/-- What every event does. -/
theorem effect (h : w.Inv) (hs : w.port.Sound) {e : Event} (he : e.clean = true) :
    Effect w e (w.step e) := by
  cases e with
  | rxByte b =>
    show Effect w _ (w.rxByte b)
    unfold rxByte
    rw [Port.rxDmaStore_sound hs]
    split
    · next p' heq =>
      split at heq
      · next hroom =>
        cases heq
        refine .stored b _ hroom ?_
        show w.port.huart.hdmarx.ndtr - 1 + 1 = w.port.huart.hdmarx.ndtr
        exact Nat.sub_add_cancel hroom
      · cases heq
    · exact .refl w _
  | usartIrq sr => exact effect_usartIrq hs (by simpa [Event.clean] using he)
  | dmaRxIrq => exact effect_dmaRxIrq hs
  | dmaTxIrq =>
    obtain ⟨t, ht⟩ := h.tx
    show Effect w _ w.dmaTxIrq
    rcases dmaTxIrq_cases ht with heq | ⟨-, heq⟩
    · rw [heq]
      exact .refl w _
    · rw [heq]
      exact .kept _ _ w.wire w.accepted rfl
  | txByte =>
    obtain ⟨t, ht⟩ := h.tx
    show Effect w _ w.txByte
    rcases txByte_cases ht with ⟨-, heq⟩ | ⟨-, heq⟩
    · rw [heq]
      exact .refl w _
    · rw [heq]
      exact .kept _ _ _ w.accepted rfl
  | sendStr waited str len =>
    have hn := congrArg Prod.fst (Port.comSendStr_window waited str len w.port)
    show Effect w _ (w.sendStr waited str len)
    unfold sendStr
    simp only
    rw [Port.comSendStr_port]
    exact .kept _ _ w.wire _ hn
  | enter =>
    show Effect w _ w.enter
    cases hm : w.main with
    | some c =>
      rw [enter_of_main hm]
      exact .refl w _
    | none =>
      have hswap := swapped_manageSwap hs
      by_cases hr : w.port.manageSwap.receiveCount = 0
      · rw [enter_of_empty hm hr]
        exact .passedOver _ hm hswap hr
      · rw [enter_of_filled hm hr]
        exact .entered _ hm hswap hr
  | leave =>
    show Effect w _ w.leave
    cases hm : w.main with
    | some c =>
      rw [leave_of_main hm]
      exact .left c hm
    | none =>
      rw [leave_of_none hm]
      exact .refl w _

/-! ### Clean runs -/

theorem sound_step (h : w.Inv) (hs : w.port.Sound) {e : Event} (he : e.clean = true) :
    (w.step e).port.Sound := by
  obtain ⟨t, ht⟩ := h.tx
  cases e with
  | rxByte b =>
    show (w.rxByte b).port.Sound
    obtain ⟨m, hm, hmode⟩ := hs
    rcases rxByte_cases hm b with ⟨-, heq⟩ | ⟨rfl, heq⟩
    · rw [heq]
      exact ⟨m, hm, hmode⟩
    · rw [heq]
      exact hm.transfer_sound _
  | usartIrq sr => exact hs.usartIrqHandler (by simpa [Event.clean] using he)
  | dmaRxIrq =>
    show w.dmaRxIrq.port.Sound
    by_cases hp : w.port.huart.hdmarx.pending = true
    · obtain ⟨m, hm, hmode⟩ := hs
      obtain rfl := (hm.pending_sound hmode).mp hp
      rw [dmaRxIrq_of_pending hp]
      exact (Port.dmaRxIrqHandler_full hm).1
    · rw [dmaRxIrq_of_not hp]
      exact hs
  | dmaTxIrq =>
    show w.dmaTxIrq.port.Sound
    rcases dmaTxIrq_cases ht with heq | ⟨-, heq⟩
    · rw [heq]
      exact hs
    · rw [heq]
      exact hs.setHuart (fun m hm => hm.congr rfl rfl rfl rfl rfl rfl) rfl
  | txByte =>
    show w.txByte.port.Sound
    rcases txByte_cases ht with ⟨-, heq⟩ | ⟨-, heq⟩
    · rw [heq]
      exact hs
    · rw [heq]
      exact hs.setHuart (fun m hm => hm.congr rfl rfl rfl rfl rfl rfl) rfl
  | sendStr waited str len =>
    obtain ⟨m, hm, hmode⟩ := hs
    refine ⟨m, hm.comSendStr waited str len, ?_⟩
    show (w.port.comSendStr waited str len).2.SoundMode m
    rw [Port.comSendStr_port]
    exact hmode
  | enter =>
    show w.enter.port.Sound
    have hswap := hs.manageSwap
    cases hm : w.main with
    | some c =>
      rw [enter_of_main hm]
      exact hs
    | none =>
      by_cases hr : w.port.manageSwap.receiveCount = 0
      · rw [enter_of_empty hm hr]
        exact hswap
      · rw [enter_of_filled hm hr]
        exact hswap.setState _
  | leave =>
    show w.leave.port.Sound
    obtain ⟨m, hm, hmode⟩ := hs
    cases hmain : w.main with
    | some c =>
      rw [leave_of_main hmain]
      refine ⟨m, hm.manageFinish, ?_⟩
      show w.port.manageFinish.SoundMode m
      rw [Port.manageFinish_eq]
      split <;> exact hmode
    | none =>
      rw [leave_of_none hmain]
      exact ⟨m, hm, hmode⟩

theorem sound_init (com : Com) : (init com).port.Sound := by
  obtain ⟨m, hm⟩ := (inv_init com).window
  have hrx : (init com).port.huart.rxState = .busyRx := rfl
  have hen : (init com).port.huart.hdmarx.en = true := rfl
  refine ⟨m, hm, .inl ?_⟩
  rw [hm.mode.en] at hen
  cases m <;> first | rfl | cases hen

/-- The invariant of runs without line errors. -/
structure Clean (w : World) : Prop where
  inv : w.Inv
  sound : w.port.Sound

theorem clean_init (com : Com) : (init com).Clean := ⟨inv_init com, sound_init com⟩

theorem clean_step (w : World) (e : Event) (h : w.Clean) (he : e.clean = true) : (w.step e).Clean :=
  ⟨inv_step w e h.inv, sound_step h.inv h.sound he⟩

theorem clean_run (com : Com) {es : List Event} (he : ∀ e ∈ es, e.clean = true) :
    (run com es).Clean :=
  Along.invariant clean_step (along_of_forall (p := fun e : Event => e.clean = true) _ he)
    (clean_init com)

end World

end Stm32F4.Usart
