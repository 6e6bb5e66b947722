import Stm32F4.Usart.Transmit

/-! The three senders and the line.

`com_send_str` hands a message to the stream; `com_send_byte` and `com_send_pstr` write
the data register themselves. All three begin with a loop that is to wait while a
transmission is under way, up to a timeout. The loop compares `HAL_UART_GetState` with
`HAL_UART_STATE_BUSY_TX`, but the state it gets is that of both directions, or-ed: while the
reception is armed it is `BUSY_TX_RX`, and the loop never waits. So the senders keep their
messages apart exactly when none of them is called during a transmission
(`senders_run`).

Here the main program makes one call at a time, and a call proceeds in steps: a pass of the
loop, a look at `TXE` with the write that follows it. Between any two of them a tick, a fetch
of the stream, a shift or an interrupt of the transmit side may come. -/
namespace Stm32F4.Usart
open Hal Lib

/-- A call the main program makes; `pstr` is given as its bytes before the terminating zero. -/
inductive Send where
  | str (str : Option Addr) (len : Nat)
  | byte (b : UInt8)
  | pstr (s : List UInt8)
deriving DecidableEq, Repr

/-- Something put into the data register: fetched by the stream or written by the program. -/
inductive Item where
  | fetched (a : Addr)
  | written (b : UInt8)
deriving DecidableEq, Repr

/-- Where the main program is. -/
inductive SendPc where
  | out
  /-- in the loop at the top, entered at tick `tickstart` -/
  | guard (send : Send) (tickstart : BitVec 32)
  /-- `com_send_byte`, waiting for `TXE` -/
  | writeByte (b : UInt8)
  /-- `com_send_pstr`, waiting for `TXE`, with these bytes left; none: the last wait -/
  | writeStr (s : List UInt8)
deriving DecidableEq, Repr

structure Sender where
  port : Port
  /-- `HAL_GetTick()` -/
  tick : BitVec 32
  /-- `SR.TXE` -/
  txe : Bool
  pc : SendPc
  /-- what has been put into the data register -/
  line : List Item
  /-- the messages whose call went through, in call order -/
  accepted : List (List Item)
  /-- the values the calls have returned -/
  returned : List HalStatus

inductive SendEvent where
  | call (send : Send)
  /-- the running call goes on -/
  | main
  | tick
  | txByte
  /-- the data register is emptied into the shift register -/
  | shift
  | dmaTxIrq
  /-- the transmission-complete interrupt -/
  | tcIrq
deriving DecidableEq, Repr

namespace Sender

/-- The running call returns. -/
def ret (status : HalStatus) (s : Sender) : Sender :=
  { s with pc := .out, returned := s.returned ++ [status] }

/-- One step of the running call. -/
def main (s : Sender) : Sender :=
  match s.pc with
  | .out => s
  | .guard (.str str len) tickstart =>
    let r := s.port.comSendStr (s.tick - tickstart) str len
    match r.1 with
    | none => s
    | some status =>
      ret status { s with
        port := r.2
        accepted := if status = .ok then s.accepted ++ [(message str len).map .fetched]
          else s.accepted }
  | .guard (.byte b) tickstart =>
    match s.port.busyTxLoop (s.tick - tickstart) with
    | .wait => s
    | .timeout => s.ret .timeout
    | .pass => { s with pc := .writeByte b, accepted := s.accepted ++ [[.written b]] }
  | .guard (.pstr str) tickstart =>
    match s.port.busyTxLoop (s.tick - tickstart) with
    | .wait => s
    | .timeout => s.ret .timeout
    | .pass => { s with pc := .writeStr str, accepted := s.accepted ++ [str.map .written] }
  | .writeByte b =>
    if s.txe then ret .ok { s with line := s.line ++ [.written b], txe := false } else s
  | .writeStr (b :: rest) =>
    if s.txe then { s with line := s.line ++ [.written b], txe := false, pc := .writeStr rest }
    else s
  | .writeStr [] => if s.txe then s.ret .ok else s

/-- The stream's request is served when the data register is empty. -/
def txByte (s : Sender) : Sender :=
  if s.txe then
    match s.port.txDmaRead with
    | some (a, p) => { s with port := p, line := s.line ++ [.fetched a], txe := false }
    | none => s
  else s

def dmaTxIrq (s : Sender) : Sender :=
  if s.port.huart.hdmatx.pending then { s with port := s.port.dmaTxIrqHandler } else s

/-- The flag needs an empty data register. -/
def tcIrq (s : Sender) : Sender :=
  if s.txe then { s with port := s.port.usartIrqHandler { tc := true } } else s

def step (s : Sender) : SendEvent → Sender
  | .call send => if s.pc = .out then { s with pc := .guard send s.tick } else s
  | .main => s.main
  | .tick => { s with tick := s.tick + 1 }
  | .txByte => s.txByte
  | .shift => { s with txe := true }
  | .dmaTxIrq => s.dmaTxIrq
  | .tcIrq => s.tcIrq

/-- After `com_init`: the reception is armed. -/
def init (com : Com) : Sender where
  port := (World.init com).port
  tick := 0
  txe := true
  pc := .out
  line := []
  accepted := []
  returned := []

def run (com : Com) (es : List SendEvent) : Sender := es.foldl step (init com)

/-! ### The property -/

/-- A transmission is under way, from its acceptance to its last bit. -/
def Busy (s : Sender) : Prop := s.port.huart.gState = .busyTx

instance (s : Sender) : Decidable s.Busy := inferInstanceAs (Decidable (_ = _))

/-- During a transmission the loop waits, and gives up after the timeout with nothing written;
and the program writes the data register outside of transmissions only. -/
structure GuardHolds (s : Sender) (e : SendEvent) : Prop where
  waits : e = .main → ∀ send tickstart, s.pc = .guard send tickstart → s.Busy →
    s.step e = if s.tick - tickstart > Port.timeout then s.ret .timeout else s
  writes : e = .main → (s.step e).line ≠ s.line → ¬ s.Busy

/-- What the running call has still to write. -/
def toWrite : SendPc → List Item
  | .writeByte b => [.written b]
  | .writeStr s => s.map .written
  | .out | .guard .. => []

/-- The line is made of whole messages in call order, up to what is left of the last one. -/
def Whole (s : Sender) : Prop :=
  s.line ++ ((toFetch s.port.huart.hdmatx).map .fetched ++ toWrite s.pc) = s.accepted.flatten

instance (s : Sender) : Decidable s.Whole := inferInstanceAs (Decidable (_ = _))

/-- No sender is at its loop during a transmission. -/
def NoOverlap (s : Sender) : SendEvent → Prop
  | .main =>
    match s.pc with
    | .guard .. => ¬ s.Busy
    | _ => True
  | _ => True

instance (s : Sender) : (e : SendEvent) → Decidable (NoOverlap s e)
  | .main =>
    match h : s.pc with
    | .guard .. => decidable_of_iff (¬ s.Busy) (by simp [NoOverlap, h])
    | .out | .writeByte _ | .writeStr _ => decidable_of_iff True (by simp [NoOverlap, h])
  | .call _ | .tick | .txByte | .shift | .dmaTxIrq | .tcIrq => inferInstanceAs (Decidable True)

/-! ### The invariant -/

/-- The running call is past its loop. -/
def writing : SendPc → Bool
  | .writeByte _ | .writeStr _ => true
  | .out | .guard .. => false

/-- What a run without overlap keeps. -/
structure Separate (s : Sender) : Prop where
  rx : s.port.huart.InMode .running
  tx : ∃ t, s.port.huart.InTxMode t ∧ (writing s.pc = true → t = .idle)
  within : s.port.huart.hdmatx.en = true → s.port.huart.hdmatx.ndtr ≤ s.port.huart.hdmatx.len
  whole : s.Whole

variable {s : Sender} {t : TxMode}

theorem busy_iff (ht : s.port.huart.InTxMode t) : s.Busy ↔ t ≠ .idle := by
  unfold Busy
  rw [ht.gState]
  cases t <;> decide

theorem toFetch_eq_nil (ht : s.port.huart.InTxMode t) (hne : t ≠ .sending) :
    toFetch s.port.huart.hdmatx = [] := by
  unfold toFetch
  rw [ht.en_eq_false hne]
  rfl

/-- The loop never waits while the reception is armed: the state it gets is `BUSY_RX` or
`BUSY_TX_RX`. -/
theorem busyTxLoop_armed (h : s.port.huart.InMode .running) (ht : s.port.huart.InTxMode t)
    (waited : BitVec 32) : s.port.busyTxLoop waited = .pass := by
  have hrx : s.port.huart.rxState = .busyRx := h.rxState
  have hne : halUartGetState s.port.huart ≠ UartState.busyTx.code := by
    unfold halUartGetState
    rw [hrx, ht.gState]
    cases t <;> decide
  exact if_neg hne

/-- A message goes out: nothing of an earlier one is left. -/
theorem whole_of_idle {s' : Sender} (h : s.Whole) (ht : s.port.huart.InTxMode .idle)
    (hpc : toWrite s.pc = []) (ms : List (List Item)) (hline : s'.line = s.line)
    (hacc : s'.accepted = s.accepted ++ ms)
    (hrest : (toFetch s'.port.huart.hdmatx).map .fetched ++ toWrite s'.pc = ms.flatten) :
    s'.Whole := by
  unfold Whole at h ⊢
  rw [toFetch_eq_nil ht (by decide), hpc] at h
  rw [hline, hacc, hrest, List.flatten_append, ← h]
  simp

/-! ### One step -/

/-- The loop of `com_send_str` passes, and the driver takes the message or refuses it. -/
theorem separate_str (h : s.Separate) {str : Option Addr} {len : Nat} {tickstart : BitVec 32}
    (hpc : s.pc = .guard (.str str len) tickstart) (hok : ¬ s.Busy) : s.main.Separate := by
  obtain ⟨t, ht, -⟩ := h.tx
  obtain rfl : t = .idle := by
    by_contra hne
    exact hok ((busy_iff ht).mpr hne)
  have hmain : s.main = ret (halUartTransmitDma s.port.huart str len).1 { s with
      port := { s.port with huart := (halUartTransmitDma s.port.huart str len).2 }
      accepted := if (halUartTransmitDma s.port.huart str len).1 = .ok then
        s.accepted ++ [(message str len).map .fetched] else s.accepted } := by
    unfold main
    simp only [hpc, Port.comSendStr, busyTxLoop_armed h.rx ht]
  rw [hmain]
  by_cases hr : str = none ∨ len = 0
  · obtain ⟨hne, hsame⟩ := halUartTransmitDma_refused ht (.inr hr)
    rw [hsame, if_neg hne]
    refine ⟨h.rx, ⟨.idle, ht, fun _ => rfl⟩, h.within, ?_⟩
    refine whole_of_idle h.whole ht (by rw [hpc]; rfl) [] rfl (List.append_nil _).symm ?_
    show (toFetch s.port.huart.hdmatx).map Item.fetched ++ [] = []
    rw [toFetch_eq_nil ht (by decide)]
    rfl
  · obtain ⟨hstr, hlen⟩ : str ≠ none ∧ len ≠ 0 := by simpa using hr
    obtain ⟨a, rfl⟩ := Option.ne_none_iff_exists'.mp hstr
    obtain ⟨haccept, hsend, -⟩ := halUartTransmitDma_idle ht h.rx.lock a (Nat.pos_of_ne_zero hlen)
    obtain ⟨hfetch, hwithin⟩ := toFetch_transmit ht h.rx.lock a (Nat.pos_of_ne_zero hlen)
    rw [haccept, if_pos rfl]
    refine ⟨halUartTransmitDma_inMode h.rx _ _, ⟨_, hsend, fun hw => by cases hw⟩,
      fun _ => hwithin, ?_⟩
    refine whole_of_idle h.whole ht (by rw [hpc]; rfl) _ rfl rfl ?_
    show (toFetch (halUartTransmitDma s.port.huart (some a) len).2.hdmatx).map Item.fetched ++ [] =
      _
    rw [hfetch]
    simp

theorem separate_main (h : s.Separate) (hok : NoOverlap s .main) : s.main.Separate := by
  obtain ⟨t, ht, hwriting⟩ := h.tx
  cases hpc : s.pc with
  | out =>
    have hmain : s.main = s := by
      unfold main
      rw [hpc]
    rw [hmain]
    exact h
  | guard send tickstart =>
    have hbusy : ¬ s.Busy := by
      unfold NoOverlap at hok
      rw [hpc] at hok
      exact hok
    obtain rfl : t = .idle := by
      by_contra hne
      exact hbusy ((busy_iff ht).mpr hne)
    cases send with
    | str str len => exact separate_str h hpc hbusy
    | byte b =>
      unfold main
      simp only [hpc, busyTxLoop_armed h.rx ht]
      refine ⟨h.rx, ⟨_, ht, fun _ => rfl⟩, h.within, ?_⟩
      refine whole_of_idle h.whole ht (by rw [hpc]; rfl) _ rfl rfl ?_
      rw [toFetch_eq_nil (s := s) ht (by decide)]
      rfl
    | pstr str =>
      unfold main
      simp only [hpc, busyTxLoop_armed h.rx ht]
      refine ⟨h.rx, ⟨_, ht, fun _ => rfl⟩, h.within, ?_⟩
      refine whole_of_idle h.whole ht (by rw [hpc]; rfl) _ rfl rfl ?_
      rw [toFetch_eq_nil (s := s) ht (by decide)]
      simp [toWrite]
  | writeByte b =>
    obtain rfl := hwriting (by rw [hpc]; rfl)
    have hwhole := h.whole
    unfold Whole at hwhole
    rw [toFetch_eq_nil ht (by decide), hpc] at hwhole
    unfold main
    simp only [hpc]
    split
    · refine ⟨h.rx, ⟨_, ht, fun _ => rfl⟩, h.within, ?_⟩
      show s.line ++ [.written b] ++
        ((toFetch s.port.huart.hdmatx).map .fetched ++ []) = s.accepted.flatten
      rw [toFetch_eq_nil ht (by decide), ← hwhole]
      simp [toWrite]
    · exact h
  | writeStr str =>
    obtain rfl := hwriting (by rw [hpc]; rfl)
    have hwhole := h.whole
    unfold Whole at hwhole
    rw [toFetch_eq_nil ht (by decide), hpc] at hwhole
    unfold main
    simp only [hpc]
    cases str with
    | nil =>
      simp only
      split
      · refine ⟨h.rx, ⟨_, ht, fun _ => rfl⟩, h.within, ?_⟩
        show s.line ++ ((toFetch s.port.huart.hdmatx).map .fetched ++ []) = s.accepted.flatten
        rw [toFetch_eq_nil ht (by decide), ← hwhole]
        simp [toWrite]
      · exact h
    | cons b rest =>
      simp only
      split
      · refine ⟨h.rx, ⟨_, ht, fun _ => rfl⟩, h.within, ?_⟩
        show s.line ++ [.written b] ++
          ((toFetch s.port.huart.hdmatx).map .fetched ++ rest.map .written) = s.accepted.flatten
        rw [toFetch_eq_nil ht (by decide), ← hwhole]
        simp [toWrite]
      · exact h

/-- The stream's next byte: the program is not writing meanwhile. -/
theorem separate_txByte (h : s.Separate) : s.txByte.Separate := by
  obtain ⟨t, ht, hwriting⟩ := h.tx
  unfold txByte
  split
  · by_cases hs : t = .sending
    · subst hs
      have hpc : writing s.pc = false := by
        by_contra hw
        cases hwriting (by simpa using hw)
      have hnext := toFetch_transfer ht.en (ht.room rfl) (h.within ht.en)
      have hwhole := h.whole
      unfold Whole at hwhole
      rw [hnext] at hwhole
      rw [Port.txDmaRead_sending ht]
      refine ⟨h.rx.congr rfl rfl rfl rfl rfl rfl, ⟨_, txTransfer_inTxMode ht, fun hw => ?_⟩,
        fun _ => Nat.le_trans (Nat.sub_le _ _) (h.within ht.en), ?_⟩
      · rw [hpc] at hw
        cases hw
      · unfold Whole
        rw [← hwhole]
        simp
    · rw [Port.txDmaRead_of_ne ht hs]
      exact h
  · exact h

/-- An event that leaves the line alone and has nothing fetched or to fetch, or the same. -/
theorem Separate.of_port {u : UartHandle Addr} {t' : TxMode} (h : s.Separate)
    (hrx : u.InMode .running) (htx : u.InTxMode t') (hw : writing s.pc = true → t' = .idle)
    (hf : toFetch u.hdmatx = toFetch s.port.huart.hdmatx)
    (hin : u.hdmatx.en = true → u.hdmatx.ndtr ≤ u.hdmatx.len) :
    { s with port := { s.port with huart := u } }.Separate := by
  refine ⟨hrx, ⟨t', htx, hw⟩, hin, ?_⟩
  have hwhole := h.whole
  unfold Whole at hwhole ⊢
  rw [← hf] at hwhole
  exact hwhole

theorem separate_dmaTxIrq (h : s.Separate) : s.dmaTxIrq.Separate := by
  obtain ⟨t, ht, hwriting⟩ := h.tx
  unfold dmaTxIrq
  split
  · next hp =>
    obtain rfl := Port.txPending ht hp
    have hnext := uartDmaTransmitCplt_inTxMode ht
    have hen : s.port.huart.hdmatx.en = false := ht.en
    rw [Port.dmaTxIrqHandler_drained ht]
    refine h.of_port (h.rx.congr rfl rfl rfl rfl rfl rfl) hnext (fun hw => by
      cases hwriting hw) ?_ h.within
    unfold toFetch
    rw [hen, show (uartDmaTransmitCplt
      { s.port.huart with hdmatx := afterIrq s.port.huart.hdmatx }).hdmatx.en =
      false from hen]
    rfl
  · exact h

theorem separate_tcIrq (h : s.Separate) : s.tcIrq.Separate := by
  obtain ⟨t, ht, hwriting⟩ := h.tx
  have hrx := halUartIrqHandler_inMode h.rx { tc := true }
  have htx := halUartIrqHandler_inTxMode h.rx ht { tc := true }
  have hs := halUartIrqHandler_hdmatx h.rx { tc := true }
  unfold tcIrq
  split
  · refine h.of_port hrx htx (fun hw => ?_) (congrArg toFetch hs) (by rw [hs]; exact h.within)
    rw [hwriting hw]
    rfl
  · exact h

theorem separate_step (s : Sender) (e : SendEvent) (h : s.Separate) (hok : NoOverlap s e) :
    (s.step e).Separate := by
  obtain ⟨t, ht, hwriting⟩ := h.tx
  cases e with
  | call send =>
    unfold step
    simp only
    split
    · next hpc =>
      refine ⟨h.rx, ⟨t, ht, fun hw => by cases hw⟩, h.within, ?_⟩
      have hwhole := h.whole
      unfold Whole at hwhole ⊢
      rw [hpc] at hwhole
      exact hwhole
    · exact h
  | main => exact separate_main h hok
  | tick => exact ⟨h.rx, ⟨t, ht, hwriting⟩, h.within, h.whole⟩
  | txByte => exact separate_txByte h
  | shift => exact ⟨h.rx, ⟨t, ht, hwriting⟩, h.within, h.whole⟩
  | dmaTxIrq => exact separate_dmaTxIrq h
  | tcIrq => exact separate_tcIrq h

/-! ### The loop and the property -/

/-- A call at its loop during a transmission goes straight through: it neither waits nor times
out. -/
theorem not_waits (h : s.Separate) {send : Send} {tickstart : BitVec 32}
    (hpc : s.pc = .guard send tickstart) (hb : s.Busy) :
    s.main ≠ (if s.tick - tickstart > Port.timeout then s.ret .timeout else s) := by
  obtain ⟨t, ht, -⟩ := h.tx
  have hne := (busy_iff ht).mp hb
  cases send with
  | str str len =>
    have hmain : s.main = s.ret .busy := by
      unfold main
      simp only [hpc, Port.comSendStr, busyTxLoop_armed h.rx ht, halUartTransmitDma_busy ht hne]
      rfl
    intro heq
    rw [hmain] at heq
    split at heq
    · have hret := List.append_cancel_left (congrArg Sender.returned heq)
      cases hret
    · have hpc' := congrArg Sender.pc heq
      rw [hpc] at hpc'
      cases hpc'
  | byte b =>
    intro heq
    have hpc' := congrArg Sender.pc heq
    unfold main at hpc'
    simp only [hpc, busyTxLoop_armed h.rx ht] at hpc'
    split at hpc'
    · cases hpc'
    · rw [hpc] at hpc'
      cases hpc'
  | pstr str =>
    intro heq
    have hpc' := congrArg Sender.pc heq
    unfold main at hpc'
    simp only [hpc, busyTxLoop_armed h.rx ht] at hpc'
    split at hpc'
    · cases hpc'
    · rw [hpc] at hpc'
      cases hpc'

/-- The loop puts nothing into the data register. -/
theorem main_line (h : s.Separate) (hw : writing s.pc = false) : s.main.line = s.line := by
  obtain ⟨t, ht, -⟩ := h.tx
  unfold main
  cases hpc : s.pc with
  | out => rfl
  | guard send tickstart =>
    cases send with
    | str str len =>
      simp only
      split <;> rfl
    | byte b => simp only [busyTxLoop_armed h.rx ht]
    | pstr str => simp only [busyTxLoop_armed h.rx ht]
  | writeByte b =>
    rw [hpc] at hw
    cases hw
  | writeStr str =>
    rw [hpc] at hw
    cases hw

theorem guardHolds_iff (h : s.Separate) (e : SendEvent) : GuardHolds s e ↔ NoOverlap s e := by
  obtain ⟨t, ht, hwriting⟩ := h.tx
  constructor
  · intro hg
    cases e with
    | main =>
      unfold NoOverlap
      cases hpc : s.pc with
      | guard send tickstart =>
        intro hb
        exact not_waits h hpc hb (hg.waits rfl send tickstart hpc hb)
      | out | writeByte | writeStr => trivial
    | _ => trivial
  · intro hok
    refine ⟨?_, ?_⟩
    · rintro rfl send tickstart hpc hb
      unfold NoOverlap at hok
      rw [hpc] at hok
      exact absurd hb hok
    · rintro rfl hline hb
      have hw : writing s.pc = true := by
        by_contra hw
        exact hline (main_line h (by simpa using hw))
      exact (busy_iff ht).mp hb (hwriting hw)

theorem separate_init (com : Com) : (init com).Separate := by
  have hrx : (init com).port.huart.InMode .running := by
    constructor <;> cases com <;> decide
  have htx : (init com).port.huart.InTxMode .idle := by
    constructor <;> cases com <;> decide
  exact ⟨hrx, ⟨_, htx, fun _ => rfl⟩, by cases com <;> decide, by cases com <;> decide⟩

/-! ### Every run -/

/-- **Messages are never interleaved**, and the loop does what it is for, exactly in the runs that
have no sender at its loop during a transmission. -/
theorem senders_run (com : Com) (es : List SendEvent) :
    (Along step GuardHolds (init com) es ∧ ∀ n, (run com (es.take n)).Whole) ↔
      Along step NoOverlap (init com) es := by
  have hiff : Along step NoOverlap (init com) es ↔ Along step GuardHolds (init com) es :=
    along_congr separate_step (fun s e h => (guardHolds_iff h e).symm) (separate_init com) es
  refine ⟨fun h => hiff.mpr h.1, fun hok => ⟨hiff.mp hok, fun n => ?_⟩⟩
  have hgood : (run com (es.take n)).Separate :=
    Along.invariant separate_step (hok.take n) (separate_init com)
  exact hgood.whole

/-- A message of two bytes, one of which is on its way when `com_send_byte` is called. -/
def mixedMessages : List SendEvent :=
  [.call (.str (some ⟨.user 0, 0⟩) 2), .main, .txByte, .shift, .call (.byte 0x41), .main, .main]

/-- The byte goes between the two; and a second `com_send_str` would fail at once. -/
theorem mixedMessages_mixed :
    (run .usart1 (mixedMessages.take 5)).Busy ∧
      ¬ GuardHolds (run .usart1 (mixedMessages.take 5)) .main ∧
      (run .usart1 mixedMessages).line = [.fetched ⟨.user 0, 0⟩, .written 0x41] ∧
      ¬ (run .usart1 mixedMessages).Whole ∧
      (run .usart1 (mixedMessages.take 4 ++ [.call (.str (some ⟨.user 0, 0⟩) 2), .main])).returned =
        [.ok, .busy] := by
  refine ⟨by decide, fun h => ?_, by decide, by decide, by decide⟩
  have hwait := congrArg Sender.pc (h.waits rfl (.byte 0x41) 0 (by decide) (by decide))
  revert hwait
  decide

end Sender

end Stm32F4.Usart
