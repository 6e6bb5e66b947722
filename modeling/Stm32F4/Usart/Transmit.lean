import Stm32F4.Usart.Invariant

/-! Reception and transmission share one handle.

`HAL_UART_DMAStop`, called to stop the reception, aborts a transmission under way as
well: the bytes it has not fetched are never sent. So an idle line, or the exchange in
`receive_str_manage`, cuts off a message that is still being sent; the stream's own
interrupt for a full window does not, since it stops nothing. A run in which the first
two do not meet a running transmission hands every accepted message to the line, whole
and in order, and it is the only kind that leaves the transmit side alone
(`transmits_run`). -/
namespace Stm32F4.Usart
open Hal Lib

/-- The addresses a stream is going to fetch from. -/
def toFetch (h : DmaHandle Addr) : List Addr :=
  if h.en then (List.range h.ndtr).map (h.m0ar.add h.pos).add else []

/-- A fetch takes the first of them. -/
theorem toFetch_transfer {h : DmaHandle Addr} (hen : h.en = true) (hroom : 0 < h.ndtr)
    (hwithin : h.ndtr ≤ h.len) : toFetch h = h.m0ar.add h.pos :: toFetch h.transfer := by
  obtain ⟨n, hn⟩ : ∃ n, h.ndtr = n + 1 := ⟨_, (Nat.sub_add_cancel hroom).symm⟩
  have hpos : h.transfer.pos = h.pos + 1 := by
    unfold DmaHandle.pos DmaHandle.transfer
    simp only [hn]
    omega
  unfold toFetch
  rw [if_pos hen, hn, List.range_succ_eq_map, List.map_cons, List.map_map]
  congr 1
  rw [hpos]
  by_cases h0 : n = 0
  · simp [DmaHandle.transfer, hn, h0]
  · rw [if_pos (by simp [DmaHandle.transfer, hen, hn, h0])]
    simp [DmaHandle.transfer, hn, Addr.add, Function.comp_def, Nat.add_assoc, Nat.add_comm 1]

/-- A transmission that is accepted has its message to fetch. -/
theorem toFetch_transmit {u : UartHandle Addr} (h : u.InTxMode .idle)
    (hl : u.lock = .unlocked) (a : Addr)
    {len : Nat} (hlen : 0 < len) :
    toFetch (halUartTransmitDma u (some a) len).2.hdmatx = message (some a) len ∧
      (halUartTransmitDma u (some a) len).2.hdmatx.ndtr ≤
        (halUartTransmitDma u (some a) len).2.hdmatx.len := by
  obtain ⟨-, hsend, hwin⟩ := halUartTransmitDma_idle h hl a hlen
  obtain ⟨hndtr, hm0ar, hlen'⟩ : (halUartTransmitDma u (some a) len).2.hdmatx.ndtr = len ∧
      (halUartTransmitDma u (some a) len).2.hdmatx.m0ar = a ∧
      (halUartTransmitDma u (some a) len).2.hdmatx.len = len := by
    simpa [DmaHandle.window] using hwin
  have hen : (halUartTransmitDma u (some a) len).2.hdmatx.en = true := hsend.en
  refine ⟨?_, Nat.le_of_eq (hndtr.trans hlen'.symm)⟩
  unfold toFetch DmaHandle.pos message
  rw [if_pos hen, hndtr, hm0ar, hlen', Nat.sub_self]
  rfl

namespace World

/-! ### The property -/

/-- What the transmit side consists of: `gState`, the request bit, and the stream with its
counter, source and length. -/
def txSide (p : Port) : UartState × Bool × Bool × (Nat × Addr × Nat) :=
  (p.huart.gState, p.huart.dmat, p.huart.hdmatx.en, p.huart.hdmatx.window)

/-- A message is being sent and bytes of it remain. -/
def Sending (w : World) : Prop :=
  w.port.huart.gState = .busyTx ∧ w.port.huart.dmat = true ∧ 0 < w.port.huart.hdmatx.ndtr

instance (w : World) : Decidable w.Sending := inferInstanceAs (Decidable (_ ∧ _ ∧ _))

/-- An idle line, the stream's interrupt or a poll. -/
def receives : Event → Bool
  | .usartIrq sr => sr.idle
  | .dmaRxIrq | .enter => true
  | _ => false

/-- The receive path leaves a transmission in progress alone. -/
def Undisturbed (w : World) (e : Event) : Prop :=
  receives e = true → w.Sending → txSide (w.step e).port = txSide w.port

/-- The addresses still to be fetched from. -/
def remaining (w : World) : List Addr := toFetch w.port.huart.hdmatx

/-- Every accepted byte has been handed to the line, in order, or is still to be. -/
def HandedOver (w : World) : Prop := w.wire ++ w.remaining = w.accepted.flatten

instance (w : World) : Decidable w.HandedOver := inferInstanceAs (Decidable (_ = _))

/-- The event does not stop the reception while a message is being sent. -/
def NoCutOff (w : World) : Event → Prop
  | .usartIrq sr => sr.idle = true → ¬ w.Sending
  | .enter => w.main = none → w.port.swaps = true → ¬ w.Sending
  | _ => True

instance (w : World) : (e : Event) → Decidable (NoCutOff w e)
  | .usartIrq _ => inferInstanceAs (Decidable (_ → _))
  | .enter => inferInstanceAs (Decidable (_ → _ → _))
  | .rxByte _ | .dmaRxIrq | .dmaTxIrq | .txByte | .sendStr .. | .leave =>
    inferInstanceAs (Decidable True)

variable {w : World} {t : TxMode}

theorem sending_iff (ht : w.port.huart.InTxMode t) : w.Sending ↔ t = .sending := by
  unfold Sending
  rw [ht.gState, ht.dmat]
  have hroom := ht.room
  have hdrained := ht.drained
  cases t <;> simp_all [TxMode.gState, TxMode.streaming]

theorem remaining_eq_nil (ht : w.port.huart.InTxMode t) (hne : t ≠ .sending) :
    w.remaining = [] := by
  unfold remaining toFetch
  rw [ht.en_eq_false hne]
  rfl

/-- What is left to send is a matter of the stream alone. -/
theorem remaining_congr {w' : World} (h : w'.port.huart.hdmatx = w.port.huart.hdmatx) :
    w'.remaining = w.remaining := by
  unfold remaining
  rw [h]

/-- In the same mode and with the same registers the transmit side is the same. -/
theorem txSide_congr {p p' : Port} (ht : p.huart.InTxMode t) (ht' : p'.huart.InTxMode t)
    (hw : p'.huart.hdmatx.window = p.huart.hdmatx.window) : txSide p' = txSide p := by
  unfold txSide
  rw [ht.gState, ht'.gState, ht.dmat, ht'.dmat, ht.en, ht'.en, hw]

/-! ### What the receive path does to the transmit stream -/

theorem usartIrq_hdmatx (h : w.Inv) {sr : Sr} (hi : sr.idle = false) :
    (w.usartIrq sr).port.huart.hdmatx = w.port.huart.hdmatx := by
  obtain ⟨m, hm⟩ := h.window
  show (w.port.usartIrqHandler sr).huart.hdmatx = _
  simp only [Port.usartIrqHandler, hi]
  exact halUartIrqHandler_hdmatx hm.mode sr

theorem dmaRxIrq_hdmatx (h : w.Inv) : w.dmaRxIrq.port.huart.hdmatx = w.port.huart.hdmatx := by
  obtain ⟨m, hm⟩ := h.window
  unfold dmaRxIrq
  split
  · next hp =>
    rcases hm.pending_cases hp with rfl | hab
    · rw [Port.dmaRxIrqHandler_complete hm]
      exact halUartReceiveDma_hdmatx _ _ _
    · rw [(Port.dmaRxIrqHandler_aborting hm hab).1]
  · rfl

/-- An idle line leaves no transmission whose stream runs. -/
theorem usartIrq_inTxMode (h : w.Inv) {sr : Sr} (hi : sr.idle = true) :
    ∃ t', (w.usartIrq sr).port.huart.InTxMode t' ∧ t' ≠ .sending := by
  obtain ⟨m, hm⟩ := h.window
  obtain ⟨t, ht⟩ := h.tx
  have hirq := Port.usartIrqHandler_inTxMode hm ht sr
  rw [if_pos hi] at hirq
  exact ⟨_, hirq, by cases Port.txAfterIrq sr m t <;> decide⟩

/-- `receive_str_manage` touches the handle by its exchange only. -/
theorem enter_huart (hm : w.main = none) : w.enter.port.huart = w.port.manageSwap.huart := by
  unfold enter
  simp only [hm]
  split <;> rfl

theorem enter_kept (h : ¬ (w.main = none ∧ w.port.swaps = true)) :
    w.enter.port.huart = w.port.huart := by
  by_cases hm : w.main = none
  · rw [enter_huart hm, Port.manageSwap_of_not]
    simpa [hm] using h
  · obtain ⟨c, hc⟩ := Option.ne_none_iff_exists'.mp hm
    rw [enter_of_main hc]

/-- An exchange leaves no transmission whose stream runs. -/
theorem enter_inTxMode (h : w.Inv) (hm : w.main = none) (hs : w.port.swaps = true) :
    ∃ t', w.enter.port.huart.InTxMode t' ∧ t' ≠ .sending := by
  obtain ⟨t, ht⟩ := h.tx
  have hswap := Port.manageSwap_inTxMode ht
  rw [if_pos hs, ← enter_huart hm] at hswap
  exact ⟨_, hswap, by cases t <;> decide⟩

/-! ### One event -/

/-- The receive path disturbs a transmission exactly when it stops the reception. -/
theorem undisturbed_iff (h : w.Inv) (e : Event) : Undisturbed w e ↔ NoCutOff w e := by
  obtain ⟨t, ht⟩ := h.tx
  have hlost : ∀ {w' : World} {t'}, w'.port.huart.InTxMode t' → t' ≠ .sending → w.Sending →
      txSide w'.port ≠ txSide w.port := by
    intro w' t' ht' hne hsend heq
    obtain rfl := (sending_iff ht).mp hsend
    have hen : w'.port.huart.hdmatx.en = w.port.huart.hdmatx.en := congrArg (fun x => x.2.2.1) heq
    rw [ht'.en_eq_false hne, ht.en] at hen
    cases hen
  cases e with
  | usartIrq sr =>
    constructor
    · intro hun hi hsend
      obtain ⟨t', ht', hne⟩ := usartIrq_inTxMode h hi
      exact hlost ht' hne hsend (hun hi hsend)
    · intro hok hi hsend
      exact absurd hsend (hok hi)
  | dmaRxIrq =>
    refine ⟨fun _ => trivial, fun _ _ _ => ?_⟩
    obtain ⟨m, hm⟩ := h.window
    have hw := dmaRxIrq_hdmatx h
    refine txSide_congr ht ?_ (congrArg DmaHandle.window hw)
    show w.dmaRxIrq.port.huart.InTxMode t
    unfold dmaRxIrq
    split
    · next hp => exact Port.dmaRxIrqHandler_inTxMode hm ht hp
    · exact ht
  | enter =>
    constructor
    · intro hun hm hs hsend
      obtain ⟨t', ht', hne⟩ := enter_inTxMode h hm hs
      exact hlost ht' hne hsend (hun rfl hsend)
    · intro hok _ hsend
      have hkept := enter_kept fun ⟨hm, hs⟩ => hok hm hs hsend
      refine txSide_congr ht ?_ (congrArg (fun u => u.hdmatx.window) hkept)
      show w.enter.port.huart.InTxMode t
      rw [hkept]
      exact ht
  | rxByte | dmaTxIrq | txByte | sendStr | leave =>
    exact ⟨fun _ => trivial, fun _ hr => by cases hr⟩

/-! ### Every byte once -/

/-- The invariant of runs that cut nothing off. -/
structure Handing (w : World) : Prop where
  inv : w.Inv
  within : w.port.huart.hdmatx.en = true → w.port.huart.hdmatx.ndtr ≤ w.port.huart.hdmatx.len
  handed : w.HandedOver

/-- An event that leaves the stream and both histories alone. -/
theorem Handing.of_hdmatx {w' : World} (h : w.Handing) (hinv : w'.Inv)
    (hs : w'.port.huart.hdmatx = w.port.huart.hdmatx) (hw : w'.wire = w.wire)
    (ha : w'.accepted = w.accepted) : w'.Handing := by
  refine ⟨hinv, by rw [hs]; exact h.within, ?_⟩
  unfold HandedOver
  rw [remaining_congr hs, hw, ha]
  exact h.handed

/-- An event that finds nothing being sent and leaves nothing being sent. -/
theorem Handing.of_idle {w' : World} {t' : TxMode} (h : w.Handing) (hinv : w'.Inv)
    (hs : ¬ w.Sending) (ht' : w'.port.huart.InTxMode t') (hne : t' ≠ .sending)
    (hw : w'.wire = w.wire)
    (ha : w'.accepted = w.accepted) : w'.Handing := by
  obtain ⟨t, ht⟩ := h.inv.tx
  have hbefore := remaining_eq_nil ht fun ht0 => hs ((sending_iff ht).mpr ht0)
  refine ⟨hinv, fun h0 => absurd ((ht'.en_eq_false hne).symm.trans h0) (by decide), ?_⟩
  have hhanded := h.handed
  unfold HandedOver at hhanded ⊢
  rw [hbefore] at hhanded
  rw [remaining_eq_nil ht' hne, hw, ha]
  exact hhanded

/-- The next byte of the message goes to the line. -/
theorem handing_txByte (h : w.Handing) (ht : w.port.huart.InTxMode .sending) :
    w.txByte.Handing := by
  have hinv := inv_txByte h.inv
  have hroom : 0 < w.port.huart.hdmatx.ndtr := ht.room rfl
  have hwithin := h.within ht.en
  have hhanded := h.handed
  change w.txByte.Inv at hinv
  have hnext := toFetch_transfer ht.en hroom hwithin
  unfold txByte at hinv ⊢
  rw [Port.txDmaRead_sending ht] at hinv ⊢
  refine ⟨hinv, fun _ => Nat.le_trans (Nat.sub_le _ _) hwithin, ?_⟩
  unfold HandedOver remaining at hhanded ⊢
  rw [hnext] at hhanded
  simpa using hhanded

/-- A pass of the loop in `com_send_str` leaves the stream alone, or starts it on the message. -/
theorem sendStr_stream (h : w.Inv) (waited : BitVec 32) (str : Option Addr) (len : Nat) :
    (w.port.comSendStr waited str len).1 ≠ some .ok ∧
        (w.port.comSendStr waited str len).2.huart.hdmatx = w.port.huart.hdmatx ∨
      (w.port.comSendStr waited str len).1 = some .ok ∧ w.remaining = [] ∧
        toFetch (w.port.comSendStr waited str len).2.huart.hdmatx = message str len ∧
        (w.port.comSendStr waited str len).2.huart.hdmatx.ndtr ≤
          (w.port.comSendStr waited str len).2.huart.hdmatx.len := by
  obtain ⟨m, hm⟩ := h.window
  obtain ⟨t, ht⟩ := h.tx
  unfold Port.comSendStr
  split
  · exact .inl ⟨by simp, rfl⟩
  · exact .inl ⟨by simp, rfl⟩
  · by_cases hr : t ≠ .idle ∨ str = none ∨ len = 0
    · obtain ⟨hne, hsame⟩ := halUartTransmitDma_refused ht hr
      exact .inl ⟨by simpa using hne, congrArg UartHandle.hdmatx hsame⟩
    · obtain ⟨rfl, hstr, hlen⟩ : t = .idle ∧ str ≠ none ∧ len ≠ 0 := by simpa using hr
      obtain ⟨a, rfl⟩ := Option.ne_none_iff_exists'.mp hstr
      obtain ⟨hok, -, -⟩ := halUartTransmitDma_idle ht hm.mode.lock a (Nat.pos_of_ne_zero hlen)
      obtain ⟨hfetch, hwithin⟩ := toFetch_transmit ht hm.mode.lock a (Nat.pos_of_ne_zero hlen)
      exact .inr ⟨congrArg some hok, remaining_eq_nil ht (by decide), hfetch, hwithin⟩

/-- An accepted message joins the end of the line; a refused one leaves things as they are. -/
theorem handing_sendStr (h : w.Handing) (waited : BitVec 32) (str : Option Addr) (len : Nat) :
    (w.sendStr waited str len).Handing := by
  have hinv := inv_sendStr h.inv waited str len
  rcases sendStr_stream h.inv waited str len with ⟨hne, hsame⟩ | ⟨hok, hdone, hfetch, hwithin⟩
  · exact h.of_hdmatx hinv hsame rfl (if_neg hne)
  · have hhanded := h.handed
    unfold HandedOver at hhanded
    rw [hdone, List.append_nil] at hhanded
    refine ⟨hinv, fun _ => hwithin, ?_⟩
    unfold HandedOver remaining sendStr
    simp only [hok, if_true]
    rw [hfetch, hhanded, List.flatten_append]
    simp

/-- A received byte, the receive stream's interrupt and the return of `com->func` are nothing to
the line. -/
theorem rxByte_line (b : UInt8) (w : World) : (w.rxByte b).port.huart.hdmatx = w.port.huart.hdmatx ∧
    (w.rxByte b).wire = w.wire ∧ (w.rxByte b).accepted = w.accepted := by
  unfold rxByte Port.rxDmaStore
  cases w.port.armed <;> exact ⟨rfl, rfl, rfl⟩

theorem dmaRxIrq_line (w : World) :
    w.dmaRxIrq.wire = w.wire ∧ w.dmaRxIrq.accepted = w.accepted := by
  unfold dmaRxIrq
  split <;> exact ⟨rfl, rfl⟩

theorem enter_line (w : World) : w.enter.wire = w.wire ∧ w.enter.accepted = w.accepted := by
  unfold enter
  split
  · exact ⟨rfl, rfl⟩
  · simp only
    split <;> exact ⟨rfl, rfl⟩

theorem leave_line (w : World) : w.leave.port.huart = w.port.huart ∧ w.leave.wire = w.wire ∧
    w.leave.accepted = w.accepted := by
  unfold leave
  split
  · refine ⟨?_, rfl, rfl⟩
    simp only [Port.manageFinish_eq]
    split <;> rfl
  · exact ⟨rfl, rfl, rfl⟩

theorem handing_step (w : World) (e : Event) (h : w.Handing) (hok : NoCutOff w e) :
    (w.step e).Handing := by
  have hinv := inv_step w e h.inv
  obtain ⟨m, hm⟩ := h.inv.window
  obtain ⟨t, ht⟩ := h.inv.tx
  cases e with
  | rxByte b =>
    obtain ⟨hs, hw, ha⟩ := rxByte_line b w
    exact h.of_hdmatx hinv hs hw ha
  | usartIrq sr =>
    cases hi : sr.idle
    · exact h.of_hdmatx hinv (usartIrq_hdmatx h.inv hi) rfl rfl
    · obtain ⟨t', ht', hne⟩ := usartIrq_inTxMode h.inv hi
      exact h.of_idle hinv (hok hi) ht' hne rfl rfl
  | dmaRxIrq =>
    obtain ⟨hw, ha⟩ := dmaRxIrq_line w
    exact h.of_hdmatx hinv (dmaRxIrq_hdmatx h.inv) hw ha
  | dmaTxIrq =>
    change w.dmaTxIrq.Inv at hinv
    show w.dmaTxIrq.Handing
    rcases dmaTxIrq_cases ht with heq | ⟨rfl, heq⟩
    · rw [heq]
      exact h
    · have hs : ¬ w.Sending := fun hs => by cases (sending_iff ht).mp hs
      rw [heq] at hinv ⊢
      exact h.of_idle hinv hs (uartDmaTransmitCplt_inTxMode ht) (by decide) rfl rfl
  | txByte =>
    show w.txByte.Handing
    rcases txByte_cases ht with ⟨-, heq⟩ | ⟨rfl, -⟩
    · rw [heq]
      exact h
    · exact handing_txByte h ht
  | sendStr waited str len => exact handing_sendStr h waited str len
  | enter =>
    obtain ⟨hw, ha⟩ := enter_line w
    by_cases hswap : w.main = none ∧ w.port.swaps = true
    · obtain ⟨t', ht', hne⟩ := enter_inTxMode h.inv hswap.1 hswap.2
      exact h.of_idle hinv (hok hswap.1 hswap.2) ht' hne hw ha
    · exact h.of_hdmatx hinv (congrArg UartHandle.hdmatx (enter_kept hswap)) hw ha
  | leave =>
    obtain ⟨hu, hw, ha⟩ := leave_line w
    exact h.of_hdmatx hinv (congrArg UartHandle.hdmatx hu) hw ha

theorem handing_init (com : Com) : (init com).Handing :=
  ⟨inv_init com, by cases com <;> decide, by cases com <;> decide⟩

/-! ### Every run -/

/-- **Reception never disturbs transmission**, and every accepted message is handed to the line
whole and in order, exactly in the runs that never stop the reception while a message is
being sent. -/
theorem transmits_run (com : Com) (es : List Event) :
    (Along step Undisturbed (init com) es ∧ ∀ n, (run com (es.take n)).HandedOver) ↔
      Along step NoCutOff (init com) es := by
  have hiff : Along step Undisturbed (init com) es ↔ Along step NoCutOff (init com) es :=
    along_congr (fun w e h _ => inv_step w e h) (fun w e h => undisturbed_iff h e) (inv_init com) es
  refine ⟨fun h => hiff.mp h.1, fun hok => ⟨hiff.mpr hok, fun n => ?_⟩⟩
  have hgood : (run com (es.take n)).Handing :=
    Along.invariant handing_step (hok.take n) (handing_init com)
  exact hgood.handed

/-- A received byte, a message of three bytes of which one has been fetched, and an idle line: the
other two are never sent. -/
def cutFrame : List Event :=
  [.rxByte 1, .sendStr 0 (some ⟨.user 0, 0⟩) 3, .txByte, .usartIrq { idle := true }]

theorem cutFrame_disturbed : (run .usart1 (cutFrame.take 3)).Sending ∧
    ¬ Undisturbed (run .usart1 (cutFrame.take 3)) (.usartIrq { idle := true }) ∧
    ¬ (run .usart1 cutFrame).HandedOver := by
  refine ⟨by decide, fun h => ?_, by decide⟩
  have hsame := h rfl (by decide)
  revert hsame
  decide

end World

end Stm32F4.Usart
