import Stm32F4.Usart.Clean

/-! Windows that fill up while `com->func` runs.

`HAL_UART_RxCpltCallback` exchanges the buffers under the user's feet, sets bit 2
and leaves its fifty bytes to the next call. Whatever else happens, those bytes stay
where they are until that call: an idle line appends as long as bit 1 is clear, and
the stream stores on the other side (`Holding.step`). Only another full window takes
their place. So the next call is given the window filled last, once, and a call
during which nothing filled up ends with an empty, processed buffer
(`refill_delivered`). -/
namespace Stm32F4.Usart
open Hal Lib

/-- Everything but the two halves of `receive_str_manage`. -/
def Event.beside : Event → Bool
  | .enter | .leave => false
  | _ => true

namespace World

/-- The event makes `HAL_UART_RxCpltCallback` run: the stream's interrupt finds a
transfer completed, not aborted. -/
def completes (w : World) (e : Event) : Bool :=
  e == .dmaRxIrq && w.port.huart.hdmarx.pending && w.port.huart.hdmarx.state != .abort

/-- The window that `HAL_UART_RxCpltCallback`, entered in this state, hands over. -/
def filled (w : World) : List UInt8 := firstCells (w.port.bytes w.port.dmaBuff) usartReceiveMax

/-- The user buffer is the unprocessed window filled in the state `v`. -/
structure Holding (v w : World) : Prop where
  processed : w.port.processed = false
  receiveCount : w.port.receiveCount = usartReceiveMax
  bytes : firstCells (w.port.bytes w.port.buff) usartReceiveMax = v.filled

variable {v w w' : World} {e : Event}

theorem Holding.congr (h : Holding v w) (hp : w'.port.processed = w.port.processed)
    (hr : w'.port.receiveCount = w.port.receiveCount)
    (hb : w'.port.bytes w'.port.buff = w.port.bytes w.port.buff) : Holding v w' := by
  refine ⟨hp.trans h.processed, hr.trans h.receiveCount, ?_⟩
  rw [hb]
  exact h.bytes

/-! ### One event -/

theorem step_beside (he : e.beside = true) :
    (w.step e).main = w.main ∧ (w.step e).passed = w.passed := by
  cases e with
  | enter | leave => cases he
  | rxByte b =>
    show (w.rxByte b).main = _ ∧ (w.rxByte b).passed = _
    unfold rxByte
    split <;> exact ⟨rfl, rfl⟩
  | usartIrq sr => exact ⟨rfl, rfl⟩
  | dmaRxIrq =>
    show w.dmaRxIrq.main = _ ∧ w.dmaRxIrq.passed = _
    unfold dmaRxIrq
    split <;> exact ⟨rfl, rfl⟩
  | dmaTxIrq =>
    show w.dmaTxIrq.main = _ ∧ w.dmaTxIrq.passed = _
    unfold dmaTxIrq
    split <;> exact ⟨rfl, rfl⟩
  | txByte =>
    show w.txByte.main = _ ∧ w.txByte.passed = _
    unfold txByte
    split <;> exact ⟨rfl, rfl⟩
  | sendStr waited str len => exact ⟨rfl, rfl⟩

/-- The callback hands its window over and tells a call under way. -/
theorem step_completes (h : w.Inv) (he : w.completes e = true) :
    Holding w (w.step e) ∧ (w.step e).port.refilled = (w.port.refilled || w.port.processing) := by
  obtain ⟨⟨rfl, hpend⟩, hstate⟩ : (e = .dmaRxIrq ∧ w.port.huart.hdmarx.pending = true) ∧
      w.port.huart.hdmarx.state ≠ .abort := by simpa [completes] using he
  obtain ⟨m, hm⟩ := h.window
  obtain rfl : m = .complete := by
    rcases hm.pending_cases hpend with hc | hab
    · exact hc
    · exact absurd (hm.mode.state.trans hab) hstate
  have heq := dmaRxIrq_of_pending hpend
  obtain ⟨-, f1, f2, -⟩ := Port.getLsbD_filled w.port.usartState w.port.processing
  rw [Port.dmaRxIrqHandler_complete hm] at heq
  show Holding w w.dmaRxIrq ∧ w.dmaRxIrq.port.refilled = _
  rw [heq]
  exact ⟨⟨f1, rfl, rfl⟩, f2⟩

/-- Any other event leaves the user buffer to the main loop, and bit 2 as it is. -/
theorem step_of_not_completes (h : w.Inv) (he : e.beside = true) (hn : w.completes e = false) :
    (Holding v w → Holding v (w.step e)) ∧ (w.step e).port.refilled = w.port.refilled := by
  obtain ⟨m, hm⟩ := h.window
  obtain ⟨t, ht⟩ := h.tx
  cases e with
  | enter | leave => cases he
  | rxByte b =>
    show (Holding v w → Holding v (w.rxByte b)) ∧ (w.rxByte b).port.refilled = _
    rcases rxByte_cases hm b with ⟨-, heq⟩ | ⟨-, heq⟩
    · rw [heq]
      exact ⟨id, rfl⟩
    · rw [heq]
      refine ⟨fun hv => hv.congr rfl rfl ?_, rfl⟩
      -- the stream is on the other array
      exact Function.update_of_ne hm.distinct _ _
  | usartIrq sr =>
    show (Holding v w → Holding v (w.usartIrq sr)) ∧ (w.usartIrq sr).port.refilled = _
    unfold usartIrq
    obtain ⟨u, ⟨-, heq⟩ | ⟨-, hp, heq⟩ | ⟨-, -, heq⟩⟩ := Port.usartIrqHandler_cases hm sr
    · rw [heq]
      exact ⟨fun hv => hv.congr rfl rfl rfl, rfl⟩
    · rw [heq]
      refine ⟨fun hv => ?_, (Port.getLsbD_exchanged _).2.2.1⟩
      have hclear := hv.processed
      rw [hp] at hclear
      cases hclear
    · obtain ⟨-, f1, f2, -⟩ := Port.getLsbD_appended w.port.usartState
      rw [heq]
      exact ⟨fun hv => hv.congr f1 rfl rfl, f2⟩
  | dmaRxIrq =>
    show (Holding v w → Holding v w.dmaRxIrq) ∧ w.dmaRxIrq.port.refilled = _
    by_cases hpend : w.port.huart.hdmarx.pending = true
    · have hab : m.dmaState = .abort := by
        have hstate : w.port.huart.hdmarx.state = .abort := by simpa [completes, hpend] using hn
        rw [← hm.mode.state]
        exact hstate
      rw [dmaRxIrq_of_pending hpend, (Port.dmaRxIrqHandler_aborting hm hab).1]
      exact ⟨fun hv => hv.congr rfl rfl rfl, rfl⟩
    · rw [dmaRxIrq_of_not hpend]
      exact ⟨id, rfl⟩
  | dmaTxIrq =>
    show (Holding v w → Holding v w.dmaTxIrq) ∧ w.dmaTxIrq.port.refilled = _
    rcases dmaTxIrq_cases ht with heq | ⟨-, heq⟩
    · rw [heq]
      exact ⟨id, rfl⟩
    · rw [heq]
      exact ⟨fun hv => hv.congr rfl rfl rfl, rfl⟩
  | txByte =>
    show (Holding v w → Holding v w.txByte) ∧ w.txByte.port.refilled = _
    rcases txByte_cases ht with ⟨-, heq⟩ | ⟨-, heq⟩
    · rw [heq]
      exact ⟨id, rfl⟩
    · rw [heq]
      exact ⟨fun hv => hv.congr rfl rfl rfl, rfl⟩
  | sendStr waited str len =>
    show (Holding v w → Holding v (w.sendStr waited str len)) ∧
      (w.sendStr waited str len).port.refilled = _
    unfold sendStr
    simp only
    rw [Port.comSendStr_port]
    exact ⟨fun hv => hv.congr rfl rfl rfl, rfl⟩

/-! ### A call, and what follows it -/

/-- In the call `c`; `o` is the window filled last in it, if any was. -/
structure Refilling (c : Call) (passed : List (List UInt8)) (o : Option World)
    (w : World) : Prop where
  inv : w.Inv
  main : w.main = some c
  passed : w.passed = passed
  refilled : w.port.refilled = o.isSome
  holding : ∀ v, o = some v → Holding v w

/-- Between two calls, the window `o` still to be passed. -/
structure Resting (passed : List (List UInt8)) (o : Option World) (w : World) : Prop where
  inv : w.Inv
  main : w.main = none
  passed : w.passed = passed
  holding : ∃ v, o = some v ∧ Holding v w

variable {c : Call} {passed : List (List UInt8)} {o : Option World}

theorem refilling_step (o : Option World) (w : World) (e : Event) (h : Refilling c passed o w)
    (he : e.beside = true) :
    Refilling c passed (if w.completes e then some w else o) (w.step e) := by
  obtain ⟨hmain, hpassed⟩ := step_beside (w := w) he
  have hinv := inv_step w e h.inv
  by_cases hc : w.completes e = true
  · obtain ⟨hhold, hbit⟩ := step_completes h.inv hc
    have hbusy : w.port.processing = true := (h.inv.flags.call (by rw [h.main]; rfl)).1
    rw [if_pos hc]
    refine ⟨hinv, hmain.trans h.main, hpassed.trans h.passed, ?_, fun v hv => ?_⟩
    · rw [hbit, hbusy, Bool.or_true]
      rfl
    · cases hv
      exact hhold
  · obtain ⟨hhold, hbit⟩ := step_of_not_completes (v := w) h.inv he (by simpa using hc)
    rw [if_neg hc]
    refine ⟨hinv, hmain.trans h.main, hpassed.trans h.passed, hbit.trans h.refilled, fun v hv => ?_⟩
    exact (step_of_not_completes h.inv he (by simpa using hc)).1 (h.holding v hv)

theorem resting_step (o : Option World) (w : World) (e : Event) (h : Resting passed o w)
    (he : e.beside = true) : Resting passed (if w.completes e then some w else o) (w.step e) := by
  obtain ⟨hmain, hpassed⟩ := step_beside (w := w) he
  have hinv := inv_step w e h.inv
  obtain ⟨v, ho, hv⟩ := h.holding
  refine ⟨hinv, hmain.trans h.main, hpassed.trans h.passed, ?_⟩
  by_cases hc : w.completes e = true
  · rw [if_pos hc]
    exact ⟨w, rfl, (step_completes h.inv hc).1⟩
  · rw [if_neg hc]
    exact ⟨v, ho, (step_of_not_completes h.inv he (by simpa using hc)).1 hv⟩

/-- A call begins with bit 2 clear. -/
theorem refilling_enter (h : w.Inv) (hm : w.main = none) (hc : w.enter.main = some c) :
    Refilling c w.enter.passed none w.enter := by
  have hinv : w.enter.Inv := inv_step w .enter h
  refine ⟨hinv, hc, rfl, ?_, fun v hv => by cases hv⟩
  have hidle : w.port.manageSwap.usartState.getLsbD 2 = false := by
    refine ((h.manageSwap hm).flags.idle ?_).2
    show w.main.isSome = false
    rw [hm]
    rfl
  by_cases hr : w.port.manageSwap.receiveCount = 0
  · rw [enter_of_empty hm hr] at hc
    exact absurd (hm.symm.trans hc) (Option.some_ne_none c).symm
  · rw [enter_of_filled hm hr]
    exact (Port.getLsbD_busy _).2.2.1.trans hidle

/-- A call in which nothing filled up empties the user buffer. -/
theorem leave_unfilled (h : Refilling c passed none w) :
    w.leave.port.receiveCount = 0 ∧ w.leave.port.processed = true := by
  have heq := Port.manageFinish_eq w.port
  rw [if_neg (by rw [h.refilled]; decide)] at heq
  rw [leave_of_main h.main, heq]
  exact ⟨rfl, (Port.getLsbD_finished _).2.1⟩

/-- After one in which something did, the window filled last rests in it. -/
theorem leave_filled (h : Refilling c passed (some v) w) : Resting passed (some v) w.leave := by
  have hinv : w.leave.Inv := inv_step w .leave h.inv
  have hhold := h.holding v rfl
  have heq := Port.manageFinish_eq w.port
  rw [if_pos (by rw [h.refilled]; rfl)] at heq
  obtain ⟨-, f1, -, -⟩ := Port.getLsbD_refilled w.port.usartState
  have hleave := leave_of_main h.main
  rw [heq] at hleave
  refine ⟨hinv, by rw [hleave], by rw [hleave]; exact h.passed, v, rfl, ?_⟩
  rw [hleave]
  exact hhold.congr f1 rfl rfl

/-- The flags between two calls. -/
theorem Resting.flags (h : Resting passed o w) :
    w.port.processing = false ∧ w.port.processed = false ∧ w.port.refilled = false := by
  obtain ⟨v, -, hv⟩ := h.holding
  obtain ⟨h0, h2⟩ := h.inv.flags.idle (by rw [h.main]; rfl)
  exact ⟨h0, hv.processed, h2⟩

/-- The next call is given the resting window. -/
theorem Resting.enter (h : Resting passed (some v) w) :
    w.enter.main = some ⟨w.port.buff, usartReceiveMax⟩ ∧ w.enter.passed = passed ++ [v.filled] := by
  obtain ⟨v', ho, hv⟩ := h.holding
  cases ho
  have hrc := hv.receiveCount
  have hswap := Port.manageSwap_unprocessed hv.processed
  have hne : w.port.manageSwap.receiveCount ≠ 0 := by
    rw [hswap, hrc]
    decide
  rw [enter_of_filled h.main hne, hswap, hrc, hv.bytes, h.passed]
  exact ⟨rfl, rfl⟩

/-- And nothing is left of it afterwards. -/
theorem Resting.poll (h : Resting passed (some v) w) : w.poll.passed = passed ++ [v.filled] ∧
    w.poll.port.receiveCount = 0 ∧ w.poll.port.processed = true := by
  obtain ⟨hcall, hpassed⟩ := h.enter
  have hcalled := refilling_enter h.inv h.main hcall
  refine ⟨?_, leave_unfilled hcalled⟩
  rw [← hpassed, World.poll, leave_of_main hcall]

/-! ### The bytes of the window -/

/-- On a clean line the DMA buffer holds the bytes stored last, and so does each window
that was handed over. -/
structure Fresh (o : Option World) (w : World) : Prop where
  clean : w.Clean
  recent : firstCells (w.port.bytes w.port.dmaBuff) w.port.counted <:+ w.stored
  filled : ∀ v, o = some v → v.filled <:+ v.stored

theorem recent_effect (h : w.Clean) (heff : Effect w e w')
    (hr : firstCells (w.port.bytes w.port.dmaBuff) w.port.counted <:+ w.stored) :
    firstCells (w'.port.bytes w'.port.dmaBuff) w'.port.counted <:+ w'.stored := by
  obtain ⟨m, hm⟩ := h.inv.window
  have hswap : ∀ p, Swapped w.port p → firstCells (p.bytes p.dmaBuff) p.counted <:+ w.stored := by
    intro p hs
    cases hs with
    | kept _ => exact hr
    | swapped u _ hn =>
      have hzero : ({ w.port.exchange w.port.dmaReceiveCount with
          huart := u,
          usartState := w.port.usartState &&& ~~~0x2 &&& ~~~0x8 } : Port).counted = 0 := by
        simp [Port.counted, Port.exchange, Port.ndtr, hn]
      rw [hzero]
      exact List.nil_suffix
  cases heff with
  | kept e u wire accepted hn =>
    have hcounted : ({ w.port with huart := u } : Port).counted = w.port.counted :=
      congrArg (fun n => w.port.dmaReceiveCount + (w.port.dmaReceiveSize - n)) hn
    show firstCells (w.port.bytes w.port.dmaBuff)
      ({ w.port with huart := u } : Port).counted <:+ w.stored
    rw [hcounted]
    exact hr
  | stored b u hroom hn =>
    show firstCells (Function.update w.port.bytes w.port.dmaBuff _ w.port.dmaBuff)
      (w.port.dmaReceiveCount + (w.port.dmaReceiveSize - u.hdmarx.ndtr)) <:+ w.stored ++ [b]
    rw [hm.counted_succ hn, Function.update_self, firstCells_update_self]
    exact (List.suffix_append_inj_of_length_eq rfl).mpr ⟨hr, rfl⟩
  | exchanged sr u hi hp hn =>
    show firstCells _ (0 + (usartReceiveMax - u.hdmarx.ndtr)) <:+ _
    rw [hn, Nat.sub_self]
    exact List.nil_suffix
  | appended sr u hi hp hn =>
    have hcounted :
        w.port.counted + (usartReceiveMax - w.port.counted - u.hdmarx.ndtr) = w.port.counted := by
      have := hm.counted_add_ndtr
      rw [hn]
      omega
    show firstCells (w.port.bytes w.port.dmaBuff)
      (w.port.counted + (usartReceiveMax - w.port.counted - u.hdmarx.ndtr)) <:+ _
    rw [hcounted]
    exact hr
  | filled u hpend hfull hn =>
    show firstCells _ (0 + (usartReceiveMax - u.hdmarx.ndtr)) <:+ _
    rw [hn, Nat.sub_self]
    exact List.nil_suffix
  | entered p hm' hs hrc => exact hswap p hs
  | passedOver p hm' hs hrc => exact hswap p hs
  | left c hm' =>
    have hfinish : w.port.manageFinish.bytes = w.port.bytes ∧
        w.port.manageFinish.dmaBuff = w.port.dmaBuff ∧
        w.port.manageFinish.counted = w.port.counted := by
      rw [Port.manageFinish_eq]
      split <;> exact ⟨rfl, rfl, rfl⟩
    show firstCells (w.port.manageFinish.bytes w.port.manageFinish.dmaBuff)
      w.port.manageFinish.counted <:+ _
    rw [hfinish.1, hfinish.2.1, hfinish.2.2]
    exact hr

theorem fresh_step (o : Option World) (w : World) (e : Event) (h : Fresh o w)
    (he : e.clean = true) :
    Fresh (if w.completes e then some w else o) (w.step e) := by
  have heff := effect h.clean.inv h.clean.sound he
  refine ⟨clean_step w e h.clean he, recent_effect h.clean heff h.recent, fun v hv => ?_⟩
  by_cases hc : w.completes e = true
  · rw [if_pos hc] at hv
    cases hv
    -- the callback is entered on a full window
    obtain ⟨m, hm, hs⟩ := h.clean.sound
    have hpend : w.port.huart.hdmarx.pending = true := by
      simp only [completes, Bool.and_eq_true] at hc
      exact hc.1.2
    obtain rfl := (hm.pending_sound hs).mp hpend
    have hcounted : w.port.counted = usartReceiveMax := by
      have hadd := hm.counted_add_ndtr
      have hzero : w.port.ndtr = 0 := hm.mode.full rfl
      omega
    have hrecent := h.recent
    rw [hcounted] at hrecent
    exact hrecent
  · rw [if_neg hc] at hv
    exact h.filled v hv

theorem fresh_init (com : Com) : Fresh none (init com) := by
  have hcounted : (init com).port.counted = 0 := by cases com <;> decide
  refine ⟨clean_init com, ?_, fun v hv => by cases hv⟩
  rw [hcounted]
  exact List.nil_suffix

/-! ### Exactly once -/

/-- The state after a call of `com->func` that was entered after the events `es` and during
which `cs` happened. -/
def returned (com : Com) (es cs : List Event) : World := (cs.foldl step (run com es).enter).leave

/-- The states in which `HAL_UART_RxCpltCallback` was entered during that call. -/
def refills (com : Com) (es cs : List Event) : List World :=
  visits step completes (run com es).enter cs

/-- What such a call comes to. -/
structure Refill (com : Com) (es cs : List Event) : Prop where
  /-- no callback: the user buffer is done with -/
  unfilled : refills com es cs = [] →
    (returned com es cs).port.receiveCount = 0 ∧ (returned com es cs).port.processed = true
  /-- at least one: a whole window is waiting -/
  waiting : refills com es cs ≠ [] →
    (returned com es cs).port.receiveCount = usartReceiveMax ∧
      (returned com es cs).port.processing = false ∧ (returned com es cs).port.processed = false ∧
      (returned com es cs).port.refilled = false
  /-- whatever happens up to the next call (`ds`), that one is given the window filled last,
  once, and leaves nothing of it -/
  next : refills com es cs ≠ [] → ∀ ds, (∀ e ∈ ds, e.beside = true) →
    ∀ v, (refills com es cs ++ visits step completes (returned com es cs) ds).getLast? = some v →
      let w := ds.foldl step (returned com es cs)
      w.enter.main = some ⟨w.port.buff, usartReceiveMax⟩ ∧
        w.enter.passed = (run com es).enter.passed ++ [v.filled] ∧
        w.poll.passed = (run com es).enter.passed ++ [v.filled] ∧
        w.poll.port.receiveCount = 0 ∧ w.poll.port.processed = true
  /-- on a clean line those are the bytes stored last -/
  recent : (∀ e ∈ es ++ cs, e.clean = true) → ∀ ds, (∀ e ∈ ds, e.clean = true) →
    ∀ v ∈ (refills com es cs ++ visits step completes (returned com es cs) ds).getLast?,
      v.filled <:+ v.stored

theorem refilling_run {cs : List Event} (hcs : ∀ e ∈ cs, e.beside = true)
    (h : Refilling c passed none w) :
    Refilling c passed (visits step completes w cs).getLast? (cs.foldl step w) := by
  have hrun := (along_of_forall (p := fun e : Event => e.beside = true) w hcs).visits_invariant
    refilling_step h
  rwa [Option.or_none] at hrun

theorem resting_run {ds : List Event} (hds : ∀ e ∈ ds, e.beside = true) (h : Resting passed o w) :
    Resting passed ((visits step completes w ds).getLast?.or o) (ds.foldl step w) :=
  (along_of_forall (p := fun e : Event => e.beside = true) w hds).visits_invariant resting_step h

theorem fresh_run {es : List Event} (hes : ∀ e ∈ es, e.clean = true) (h : Fresh o w) :
    Fresh ((visits step completes w es).getLast?.or o) (es.foldl step w) :=
  (along_of_forall (p := fun e : Event => e.clean = true) w hes).visits_invariant fresh_step h

/-- The history before the call does not matter to the windows filled in it. -/
theorem Fresh.forget (h : Fresh o w) : Fresh none w := ⟨h.clean, h.recent, fun v hv => by cases hv⟩

/-- **A buffer filled while `com->func` runs is delivered exactly once**, whatever happened
before the call, during it and up to the next one. -/
theorem refill_delivered (com : Com) (es : List Event) (hm : (run com es).main = none) (c : Call)
    (hc : (run com es).enter.main = some c) (cs : List Event) (hcs : ∀ e ∈ cs, e.beside = true) :
    Refill com es cs := by
  have hcall := refilling_run hcs (refilling_enter (inv_run com es) hm hc)
  have hrest : refills com es cs ≠ [] →
      Resting (run com es).enter.passed (refills com es cs).getLast? (returned com es cs) := by
    intro hsome
    have hlast := List.getLast?_eq_some_getLast hsome
    rw [show (visits step completes (run com es).enter cs).getLast? = _ from hlast] at hcall
    rw [hlast]
    exact leave_filled hcall
  constructor
  case unfilled =>
    intro hnone
    rw [show visits step completes (run com es).enter cs = [] from hnone] at hcall
    exact leave_unfilled hcall
  case waiting =>
    intro hsome
    obtain ⟨v, -, hv⟩ := (hrest hsome).holding
    exact ⟨hv.receiveCount, (hrest hsome).flags⟩
  case next =>
    intro hsome ds hds v hv
    have hw := resting_run hds (hrest hsome)
    rw [← List.getLast?_append, hv] at hw
    exact ⟨hw.enter.1, hw.enter.2, hw.poll⟩
  case recent =>
    intro hclean ds hds v hv
    have hes : ∀ e ∈ es, e.clean = true := fun e he => hclean e (List.mem_append_left _ he)
    have hcs' : ∀ e ∈ cs, e.clean = true := fun e he => hclean e (List.mem_append_right _ he)
    have hentered : Fresh none (run com es).enter :=
      (fresh_step _ _ .enter (fresh_run hes (fresh_init com)) rfl).forget
    have hreturned : Fresh (refills com es cs).getLast? (returned com es cs) := by
      have hrun := fresh_run hcs' hentered
      rw [Option.or_none] at hrun
      exact fresh_step _ _ .leave hrun rfl
    have hlast := fresh_run hds hreturned
    rw [← List.getLast?_append] at hlast
    exact hlast.filled v hv

/-- During the call on a frame of one byte the DMA buffer fills up. -/
def callFilled : List Event := List.replicate usartReceiveMax (.rxByte 7) ++ [.dmaRxIrq]

theorem refill_delivered_full :
    (refills .usart1 [.rxByte 1, .usartIrq { idle := true }] callFilled).length = 1 ∧
      Refill .usart1 [.rxByte 1, .usartIrq { idle := true }] callFilled :=
  ⟨by decide +kernel,
    refill_delivered .usart1 [.rxByte 1, .usartIrq { idle := true }] rfl ⟨.buff2, 1⟩ rfl
    callFilled (by decide)⟩

end World

end Stm32F4.Usart
