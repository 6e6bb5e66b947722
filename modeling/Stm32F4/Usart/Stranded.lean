import Stm32F4.Usart.Clean

/-! Stranded data.

Bit 1 clear with an empty user buffer is a dead end: `receive_str_manage` neither
exchanges the buffers nor calls `com->func`, an idle line only appends, and what arrives
waits until the DMA buffer has filled up (`stranded_run`). A port gets there by exchanging
the buffers while the DMA buffer is empty, which an IDLE interrupt with no new byte
does, and so does the main loop when a forced exchange has left bit 3 behind
(`stuck_of_exchange`). A run that never makes such an exchange strands nothing:
whenever its line is quiet, two calls of `receive_str_manage` pass on everything
that is there (`noStranded_run`). -/
namespace Stm32F4.Usart
open Hal Lib

namespace World

/-! ### The property -/

/-- No interrupt of the stream is pending, and nothing has arrived since it was armed. -/
def Quiet (w : World) : Prop :=
  w.port.huart.hdmarx.pending = false ∧ w.port.ndtr = w.port.dmaReceiveSize

/-- On a quiet line whatever is in the buffers is passed on by at most three calls, the
user buffer first; and bit 1 is not clear over an empty user buffer. -/
structure NoStranded (w : World) : Prop where
  passes : w.main = none → w.Quiet → w.port.receiveCount ≠ 0 ∨ w.port.dmaReceiveCount ≠ 0 →
    ∃ n, n ≤ 3 ∧ (polls n w).passed = w.passed ++
      (if w.port.receiveCount ≠ 0 then
        [firstCells (w.port.bytes w.port.buff) w.port.receiveCount] else []) ++
      (if w.port.dmaReceiveCount ≠ 0 then
        [firstCells (w.port.bytes w.port.dmaBuff) w.port.dmaReceiveCount] else [])
  live : ¬ (w.port.processed = false ∧ w.port.receiveCount = 0)

/-- The event does not exchange the buffers while the DMA buffer is empty. -/
def NoEmptyExchange (w : World) : Event → Prop
  | .usartIrq sr => sr.idle = true → w.port.processed = true → 0 < w.port.counted
  | .enter => w.main = none → w.port.swaps = true → 0 < w.port.dmaReceiveCount
  | _ => True

instance (w : World) : (e : Event) → Decidable (NoEmptyExchange w e)
  | .usartIrq _ => inferInstanceAs (Decidable (_ → _ → _))
  | .enter => inferInstanceAs (Decidable (_ → _ → _))
  | .rxByte _ | .dmaRxIrq | .dmaTxIrq | .txByte | .sendStr .. | .leave =>
    inferInstanceAs (Decidable True)

variable {w w' : World}

/-! ### Polling -/

/-- A user buffer that waits is passed on; the DMA buffer stays as it is. -/
theorem poll_unprocessed (h : w.Inv) (hm : w.main = none) (hp : w.port.processed = false)
    (hr : w.port.receiveCount ≠ 0) :
    w.poll = { w with
      port := { w.port with
        receiveCount := 0, usartState := (w.port.usartState ||| 0x1 ||| 0x2) &&& ~~~0x1 }
      passed := w.passed ++ [firstCells (w.port.bytes w.port.buff) w.port.receiveCount] } := by
  have hswap := Port.manageSwap_unprocessed hp
  have hrefilled : w.port.manageBusy.refilled = false := by
    have hflags := h.flags
    rw [hm] at hflags
    exact (Port.getLsbD_busy _).2.2.1.trans (hflags.idle rfl).2
  have henter : w.enter = { w with
      port := w.port.manageBusy, main := some ⟨w.port.buff, w.port.receiveCount⟩
      passed := w.passed ++ [firstCells (w.port.bytes w.port.buff) w.port.receiveCount] } := by
    rw [enter_of_filled hm (by rw [hswap]; exact hr), hswap]
  rw [poll, henter, leave_of_main rfl]
  simp only [Port.manageFinish_eq, hrefilled, hm]
  rfl

/-- With the user buffer processed, what waits in the DMA buffer is exchanged and passed on. -/
theorem poll_waiting (hm : w.main = none) (hs : w.port.swaps = true)
    (hc : w.port.dmaReceiveCount ≠ 0) :
    w.poll.passed =
      w.passed ++ [firstCells (w.port.bytes w.port.dmaBuff) w.port.dmaReceiveCount] := by
  obtain ⟨u, ⟨hs', -⟩ | ⟨-, heq⟩⟩ := Port.manageSwap_cases w.port
  · rw [hs] at hs'
    cases hs'
  · have hr : w.port.manageSwap.receiveCount ≠ 0 := by
      rw [heq]
      exact hc
    rw [poll, enter_of_filled hm hr, leave_of_main rfl, heq]
    rfl

/-! ### Runs without an empty exchange -/

/-- What such a run keeps: bit 1 is clear over pending bytes only, and bytes accounted for
in the DMA buffer have set bit 3. -/
structure Live (w : World) : Prop where
  clean : w.Clean
  pending : w.port.processed = false → w.port.receiveCount ≠ 0
  waiting : w.port.dmaReceiveCount ≠ 0 → w.port.waiting = true

theorem live_init (com : Com) : (init com).Live :=
  ⟨clean_init com, by cases com <;> decide, by cases com <;> decide⟩

theorem live_swapped {p : Port} (h : w.Live) (hm : w.main = none) (hs : Swapped w.port p)
    (hok : NoEmptyExchange w .enter) :
    (p.processed = false → p.receiveCount ≠ 0) ∧ (p.dmaReceiveCount ≠ 0 → p.waiting = true) := by
  cases hs with
  | kept _ => exact ⟨h.pending, h.waiting⟩
  | swapped u hsw hn =>
    exact ⟨fun _ => Nat.pos_iff_ne_zero.mp (hok hm hsw), fun h0 => absurd rfl h0⟩

theorem live_step (w : World) (e : Event) (h : w.Live) (he : e.clean = true ∧ NoEmptyExchange w e) :
    (w.step e).Live := by
  have hclean := clean_step w e h.clean he.1
  suffices hkeep : ((w.step e).port.processed = false → (w.step e).port.receiveCount ≠ 0) ∧
      ((w.step e).port.dmaReceiveCount ≠ 0 → (w.step e).port.waiting = true) from
    ⟨hclean, hkeep.1, hkeep.2⟩
  have heff := effect h.clean.inv h.clean.sound he.1
  have hok := he.2
  generalize w.step e = w' at heff
  unfold Port.processed Port.waiting
  cases heff with
  | kept | stored => exact ⟨h.pending, h.waiting⟩
  | exchanged sr u hi hp hn =>
    exact ⟨fun _ => Nat.pos_iff_ne_zero.mp (hok hi hp), fun h0 => absurd rfl h0⟩
  | appended sr u hi hp hn =>
    obtain ⟨-, -, -, f3⟩ := Port.getLsbD_appended w.port.usartState
    exact ⟨fun _ => h.pending hp, fun _ => f3⟩
  | filled => exact ⟨fun _ => show usartReceiveMax ≠ 0 by decide, fun h0 => absurd rfl h0⟩
  | entered p hm hs hr =>
    obtain ⟨-, hwaiting⟩ := live_swapped h hm hs hok
    exact ⟨fun _ => hr, fun h0 => (Port.getLsbD_busy _).2.2.2.trans (hwaiting h0)⟩
  | passedOver p hm hs hr => exact live_swapped h hm hs hok
  | left c hm =>
    have hflags := h.clean.inv.flags.call (by rw [hm]; rfl)
    rw [Port.manageFinish_eq]
    split
    · obtain ⟨-, -, -, f3⟩ := Port.getLsbD_refilled w.port.usartState
      exact ⟨fun _ => Nat.pos_iff_ne_zero.mp hflags.2.2, fun h0 => f3.trans (h.waiting h0)⟩
    · obtain ⟨-, f1, -, f3⟩ := Port.getLsbD_finished w.port.usartState
      exact ⟨fun h0 => absurd (f1.symm.trans h0) (by decide), fun h0 => f3.trans (h.waiting h0)⟩

/-- Nothing is stranded in a state such a run reaches. -/
theorem Live.noStranded (h : w.Live) : w.NoStranded := by
  refine ⟨fun hm hq hsome => ?_, fun ⟨hp, hr⟩ => h.pending hp hr⟩
  cases hp : w.port.processed
  · -- the user buffer waits: it is passed on first
    have hr := h.pending hp
    have hpoll := poll_unprocessed h.clean.inv hm hp hr
    by_cases hc : w.port.dmaReceiveCount = 0
    · refine ⟨1, by decide, ?_⟩
      show w.poll.passed = _
      rw [hpoll, if_pos hr, if_neg (by simpa using hc), List.append_nil]
    · refine ⟨2, by decide, ?_⟩
      have hswaps : w.poll.port.swaps = true := by
        rw [hpoll, Port.swaps_iff]
        obtain ⟨-, f1, -, f3⟩ := Port.getLsbD_finished (w.port.usartState ||| 0x1)
        exact ⟨f1, f3.trans ((Port.getLsbD_busy _).2.2.2.trans (h.waiting hc)), hq.2.symm⟩
      have hnext :=
        poll_waiting (w := w.poll) (by rw [hpoll]; exact hm) hswaps (by rw [hpoll]; exact hc)
      show w.poll.poll.passed = _
      rw [hnext, hpoll, if_pos hr, if_pos hc]
  · -- the user buffer is empty: what waits in the other one takes its place
    have hr := h.clean.inv.flags.processed hp
    have hc : w.port.dmaReceiveCount ≠ 0 := hsome.resolve_left (by simpa using hr)
    refine ⟨1, by decide, ?_⟩
    have hswaps : w.port.swaps = true := (Port.swaps_iff _).mpr ⟨hp, h.waiting hc, hq.2.symm⟩
    show w.poll.passed = _
    rw [poll_waiting hm hswaps hc, if_neg (by simpa using hr), if_pos hc, List.append_nil]

/-! ### The dead end -/

/-- Bit 1 clear over an empty user buffer, with no call under way. -/
structure Stuck (w : World) : Prop where
  main : w.main = none
  processed : w.port.processed = false
  empty : w.port.receiveCount = 0

/-- Polling does nothing there. -/
theorem poll_stuck (h : w.Stuck) : w.poll = w := by
  have hswap := Port.manageSwap_unprocessed h.processed
  have henter : w.enter = w := by
    rw [enter_of_empty h.main (by rw [hswap]; exact h.empty), hswap]
  rw [poll, henter, leave_of_none h.main]

theorem polls_stuck (h : w.Stuck) (n : Nat) : polls n w = w := by
  induction n with
  | zero => rfl
  | succ n ih =>
    show polls n w.poll = w
    rw [poll_stuck h, ih]

/-- Nothing but a full DMA buffer gets the port out, and nothing is passed on meanwhile. -/
theorem Stuck.effect (h : w.Stuck) {e : Event} (heff : Effect w e w') (he : e ≠ .dmaRxIrq) :
    w'.Stuck ∧ w'.passed = w.passed := by
  cases heff with
  | kept | stored => exact ⟨⟨h.main, h.processed, h.empty⟩, rfl⟩
  | exchanged sr u hi hp hn =>
    rw [h.processed] at hp
    cases hp
  | appended sr u hi hp hn =>
    exact ⟨⟨h.main, (Port.getLsbD_appended _).2.1.trans h.processed, h.empty⟩, rfl⟩
  | filled => exact absurd rfl he
  | entered p hm hs hr =>
    cases hs with
    | kept _ => exact absurd h.empty hr
    | swapped u hsw hn =>
      have hp := ((Port.swaps_iff _).mp hsw).1
      rw [h.processed] at hp
      cases hp
  | passedOver p hm hs hr =>
    cases hs with
    | kept _ => exact ⟨h, rfl⟩
    | swapped u hsw hn =>
      have hp := ((Port.swaps_iff _).mp hsw).1
      rw [h.processed] at hp
      cases hp
  | left c hm =>
    rw [h.main] at hm
    cases hm

/-- An exchange of the buffers while the DMA buffer is empty is the way in. -/
theorem stuck_of_exchange (h : w.Inv) {e : Event}
    (hbad : ¬ NoEmptyExchange w e) : (w.step e).Stuck := by
  cases e with
  | usartIrq sr =>
    obtain ⟨hi, hp, hc⟩ : sr.idle = true ∧ w.port.processed = true ∧ w.port.counted = 0 := by
      simpa [NoEmptyExchange] using hbad
    have hm : w.main = none := by simpa using h.idle_of_processed hp
    obtain ⟨m, hwin⟩ := h.window
    show (w.usartIrq sr).Stuck
    unfold usartIrq
    obtain ⟨u, ⟨hi', -⟩ | ⟨-, -, heq⟩ | ⟨-, hp', -⟩⟩ := Port.usartIrqHandler_cases hwin sr
    · rw [hi] at hi'
      cases hi'
    · rw [heq]
      exact ⟨hm, (Port.getLsbD_exchanged _).2.1, hc⟩
    · rw [hp] at hp'
      cases hp'
  | enter =>
    obtain ⟨hm, hs, hc⟩ : w.main = none ∧ w.port.swaps = true ∧ w.port.dmaReceiveCount = 0 := by
      simpa [NoEmptyExchange] using hbad
    show w.enter.Stuck
    obtain ⟨u, ⟨hs', -⟩ | ⟨-, heq⟩⟩ := Port.manageSwap_cases w.port
    · rw [hs] at hs'
      cases hs'
    · rw [enter_of_empty hm (by rw [heq]; exact hc), heq]
      exact ⟨hm, (Port.getLsbD_exchanged _).2.1, hc⟩
  | rxByte | dmaRxIrq | dmaTxIrq | txByte | sendStr | leave => exact absurd trivial hbad

/-! ### Every run -/

/-- **No stranded data.** A run strands nothing in any of its states exactly when it never
exchanges the buffers while the DMA buffer is empty. -/
theorem noStranded_run (com : Com) (es : List Event) (hclean : ∀ e ∈ es, e.clean = true) :
    (∀ n, (run com (es.take n)).NoStranded) ↔ Along step NoEmptyExchange (init com) es := by
  have hall : Along step (fun _ e => Event.clean e = true) (init com) es :=
    along_of_forall (p := fun e : Event => e.clean = true) _ hclean
  have hiff : Along step (fun w e => e.clean = true ∧ NoEmptyExchange w e) (init com) es ↔
      Along step (fun w e => e.clean = true ∧ (w.step e).NoStranded) (init com) es := by
    refine along_congr live_step (fun w e h => ?_) (live_init com) es
    constructor
    · intro he
      exact ⟨he.1, (live_step w e h he).noStranded⟩
    · intro ⟨he, hgood⟩
      refine ⟨he, ?_⟩
      by_contra hbad
      have hstuck := stuck_of_exchange h.clean.inv hbad
      exact hgood.live ⟨hstuck.processed, hstuck.empty⟩
  rw [along_and, along_and] at hiff
  have htake : (∀ n, (run com (es.take n)).NoStranded) ↔
      (init com).NoStranded ∧ Along step (fun w e => (w.step e).NoStranded) (init com) es :=
    forall_take_iff
  rw [htake]
  constructor
  · rintro ⟨-, hgood⟩
    exact (hiff.mpr ⟨hall, hgood⟩).2
  · intro hok
    exact ⟨(live_init com).noStranded, (hiff.mp ⟨hall, hok⟩).2⟩

theorem stuck_run (hclean : w.Clean) (h : w.Stuck) {fs : List Event}
    (hfs : ∀ e ∈ fs, e.clean = true)
    (hfilled : .dmaRxIrq ∉ fs) : (fs.foldl step w).Stuck ∧ (fs.foldl step w).passed = w.passed := by
  induction fs generalizing w with
  | nil => exact ⟨h, rfl⟩
  | cons e fs ih =>
    obtain ⟨he, hrest⟩ := List.forall_mem_cons.mp hfs
    rw [List.mem_cons, not_or] at hfilled
    obtain ⟨hstuck, hpassed⟩ := h.effect (effect hclean.inv hclean.sound he) (Ne.symm hfilled.1)
    obtain ⟨hlast, hsame⟩ := ih (clean_step w e hclean he) hstuck hrest hfilled.2
    exact ⟨hlast, hsame.trans hpassed⟩

/-- **No way out.** Once a run has exchanged the buffers while the DMA buffer is empty, nothing
is passed on any more, whatever arrives and however often the port is polled, until the
stream signals that the DMA buffer is full. -/
theorem stranded_run (com : Com) (es : List Event) (e : Event) (fs : List Event)
    (hclean : ∀ x ∈ es ++ e :: fs, x.clean = true) (hbad : ¬ NoEmptyExchange (run com es) e)
    (hfilled : .dmaRxIrq ∉ fs) :
    (run com (es ++ e :: fs)).passed = (run com (es ++ [e])).passed := by
  obtain ⟨hes, hrest⟩ := List.forall_mem_append.mp hclean
  obtain ⟨he, hfs⟩ := List.forall_mem_cons.mp hrest
  have hrun := clean_run com hes
  have hstuck := stuck_of_exchange hrun.inv hbad
  have hlast := (stuck_run (clean_step _ e hrun he) hstuck hfs hfilled).2
  simpa only [run, List.foldl_append, List.foldl_cons, List.foldl_nil] using hlast

/-- Two bytes, an idle line, and the same with one. -/
theorem noStranded_frame :
    (run .usart1 [.rxByte 1, .rxByte 2, .usartIrq { idle := true }, .rxByte 3,
    .usartIrq { idle := true }]).NoStranded :=
  (noStranded_run .usart1 [.rxByte 1, .rxByte 2, .usartIrq { idle := true }, .rxByte 3,
    .usartIrq { idle := true }] (by decide)).mpr (by decide) 5

/-- A frame as long as the array, passed on; then the idle line that follows it, which
finds nothing new; then one more byte and an idle line. -/
def exactFrame : List Event :=
  (List.range usartReceiveMax).map (fun i => .rxByte (UInt8.ofNat i)) ++
    [.dmaRxIrq, .enter, .leave, .usartIrq { idle := true }, .rxByte 0xAA,
      .usartIrq { idle := true }]

/-- The last byte stays in the DMA buffer, however often the port is polled. -/
theorem exactFrame_stranded :
    (∀ e ∈ exactFrame, e.clean = true) ∧ ¬ (run .usart1 exactFrame).NoStranded := by
  refine ⟨by decide +kernel, fun h => ?_⟩
  have hstuck : (run .usart1 exactFrame).Stuck := by
    constructor <;> decide +kernel
  have hcount : (run .usart1 exactFrame).port.dmaReceiveCount = 1 := by decide +kernel
  have hquiet : (run .usart1 exactFrame).Quiet := by
    constructor <;> decide +kernel
  obtain ⟨n, -, hn⟩ := h.passes hstuck.main hquiet (.inr (by rw [hcount]; decide))
  rw [polls_stuck hstuck, hstuck.empty, hcount] at hn
  simp at hn

theorem stranded_run_exactFrame :
    (run .usart1 exactFrame).passed = (run .usart1 (exactFrame.take 54)).passed :=
  stranded_run .usart1 (exactFrame.take 53) (.usartIrq { idle := true })
    [.rxByte 0xAA, .usartIrq { idle := true }] (by decide +kernel) (by decide +kernel) (by decide)

end World

end Stm32F4.Usart
