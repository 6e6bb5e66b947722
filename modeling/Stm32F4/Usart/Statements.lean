import Mathlib.Logic.Function.Iterate
import Mathlib.Tactic.IntervalCases
import Stm32F4.Usart.Clean

/-! `receive_str_manage`, statement by statement.

The main loop masks no interrupts, so a byte, the IDLE handler or the stream's interrupt may
come between any two statements of the call. Most of the places are harmless. Two are not.
The exchange of the buffers works on what the check of `NDTR` has seen: what arrives between
the check and the stop of the stream is dropped, and a handler that exchanges the buffers
itself gets its own exchange undone. And the end of the call works on what the test of bit 2
has seen: a window that fills up after it is forgotten by `receive_count = 0`, or leaves bit 2
behind. `settled_run`: a run in which no handler comes there keeps every byte.

Every byte is followed in order. What the user is given, or loses to a forced exchange,
goes to `fates`; the rest has to be in the two arrays. -/
namespace Stm32F4.Usart
open Hal Lib

/-- The statement of `receive_str_manage` that is next. -/
inductive Pc where
  /-- no call is under way -/
  | out
  /-- `if((USART_State & 0xA) == 0xA)` -/
  | testFlags
  /-- `if(_DMA_Receive_Size != NDTR)` -/
  | testNdtr
  /-- `HAL_UART_DMAStop` -/
  | stop
  /-- `temp = DMA_buff` -/
  | saveDmaBuff
  /-- `DMA_buff = buff` -/
  | setDmaBuff
  /-- `buff = temp` -/
  | setBuff
  /-- `buff_shift = 0` -/
  | setShift
  /-- `_DMA_Receive_Size = USART_RECEIVE_MAX` -/
  | setSize
  /-- `USART_State &= ~0x2` -/
  | clearProcessed
  /-- `receive_count = _DMA_Receive_Count` -/
  | setCount
  /-- `_DMA_Receive_Count = 0` -/
  | clearCount
  /-- `USART_State &= ~0x8` -/
  | clearWaiting
  /-- `HAL_UART_Receive_DMA` -/
  | rearm
  /-- `if(receive_count != 0)` -/
  | testCount
  /-- `USART_State |= 0x1` -/
  | setBusy
  /-- `func(buff, receive_count, ..)` -/
  | call
  /-- `func` runs; at its return, `if(USART_State & 0x4)` -/
  | testFull
  /-- `USART_State &= ~0x4` -/
  | clearFull
  /-- `receive_count = 0` -/
  | resetCount
  /-- `USART_State |= 0x2` -/
  | setProcessed
  /-- `USART_State &= ~0x1` -/
  | clearBusy
deriving DecidableEq, Repr

namespace Pc

/-- The stream is stopped and the two pointers are not exchanged yet. -/
def swapping : Pc → Bool
  | .saveDmaBuff | .setDmaBuff | .setBuff => true
  | _ => false

/-- The pointers are exchanged, the counts are not set yet. -/
def counting : Pc → Bool
  | .setShift | .setSize | .clearProcessed | .setCount | .clearCount => true
  | _ => false

/-- Bit 0 is set. -/
@[simp] def busy : Pc → Bool
  | .call | .testFull | .clearFull | .resetCount | .setProcessed | .clearBusy => true
  | _ => false

/-- Bit 2 has been tested. -/
@[simp] def finishing : Pc → Bool
  | .resetCount | .setProcessed | .clearBusy => true
  | _ => false

end Pc

/-- What became of bytes that had been in the user buffer. -/
inductive Fate where
  /-- `com->func` was given them -/
  | passed (bs : List UInt8)
  /-- `HAL_UART_RxCpltCallback` exchanged the buffers before it was -/
  | overwritten (bs : List UInt8)
deriving DecidableEq, Repr

def Fate.bytes : Fate → List UInt8
  | .passed bs | .overwritten bs => bs

/-- A port and the main loop's call of `receive_str_manage`. -/
structure Poll where
  pc : Pc
  port : Port
  temp : Buf
  buffShift : Nat
  /-- every byte the receive stream has stored -/
  stored : List UInt8
  fates : List Fate
  /-- `com->func` has been given what the user buffer holds -/
  given : Bool

namespace Poll

/-- What happens next; `main`: the main loop executes a statement. -/
inductive Event where
  | rxByte (b : UInt8)
  | idle
  | dmaRxIrq
  | main
deriving DecidableEq, Repr

/-- What is in the user buffer and has not been given to `com->func`. -/
def undelivered (s : Poll) : List UInt8 :=
  if s.given then [] else firstCells (s.port.bytes s.port.buff) s.port.receiveCount

/-- The next statement. -/
def main (s : Poll) : Poll :=
  match s.pc with
  | .out => { s with pc := .testFlags }
  | .testFlags =>
    { s with pc := if s.port.usartState &&& 0xA == 0xA then .testNdtr else .testCount }
  | .testNdtr => { s with pc := if s.port.dmaReceiveSize ≠ s.port.ndtr then .testCount else .stop }
  | .stop =>
    { s with pc := .saveDmaBuff, port := { s.port with huart := halUartDmaStop s.port.huart } }
  | .saveDmaBuff => { s with pc := .setDmaBuff, temp := s.port.dmaBuff }
  | .setDmaBuff => { s with pc := .setBuff, port := { s.port with dmaBuff := s.port.buff } }
  | .setBuff => { s with pc := .setShift, port := { s.port with buff := s.temp } }
  | .setShift => { s with pc := .setSize, buffShift := 0 }
  | .setSize =>
    { s with pc := .clearProcessed, port := { s.port with dmaReceiveSize := usartReceiveMax } }
  | .clearProcessed =>
    { s with pc := .setCount, port := { s.port with usartState := s.port.usartState &&& ~~~0x2 } }
  | .setCount =>
    { s with
      pc := .clearCount, given := false
      port := { s.port with receiveCount := s.port.dmaReceiveCount } }
  | .clearCount => { s with pc := .clearWaiting, port := { s.port with dmaReceiveCount := 0 } }
  | .clearWaiting =>
    { s with pc := .rearm, port := { s.port with usartState := s.port.usartState &&& ~~~0x8 } }
  | .rearm => { s with pc := .testCount, port := (Port.rearm (s.port, s.buffShift)).2 }
  | .testCount => { s with pc := if s.port.receiveCount ≠ 0 then .setBusy else .out }
  | .setBusy =>
    { s with pc := .call, port := { s.port with usartState := s.port.usartState ||| 0x1 } }
  | .call =>
    { s with
      pc := .testFull, given := true
      fates := s.fates ++ [.passed (firstCells (s.port.bytes s.port.buff) s.port.receiveCount)] }
  | .testFull => { s with pc := if s.port.usartState &&& 0x4 ≠ 0 then .clearFull else .resetCount }
  | .clearFull =>
    { s with pc := .clearBusy, port := { s.port with usartState := s.port.usartState &&& ~~~0x4 } }
  | .resetCount =>
    { s with pc := .setProcessed, given := false, port := { s.port with receiveCount := 0 } }
  | .setProcessed =>
    { s with pc := .clearBusy, port := { s.port with usartState := s.port.usartState ||| 0x2 } }
  | .clearBusy =>
    { s with pc := .out, port := { s.port with usartState := s.port.usartState &&& ~~~0x1 } }

def rxByte (b : UInt8) (s : Poll) : Poll :=
  match s.port.rxDmaStore b with
  | some p => { s with port := p, stored := s.stored ++ [b] }
  | none => s

/-- The handler exchanges the buffers if bit 1 is set. -/
def idle (s : Poll) : Poll :=
  { s with port := s.port.usartIrqHandler { idle := true }, given := s.given && !s.port.processed }

def dmaRxIrq (s : Poll) : Poll :=
  if s.port.huart.hdmarx.pending then
    { s with
      port := s.port.dmaRxIrqHandler
      fates := s.fates ++ [.overwritten s.undelivered], given := false }
  else s

def step (s : Poll) : Event → Poll
  | .rxByte b => s.rxByte b
  | .idle => s.idle
  | .dmaRxIrq => s.dmaRxIrq
  | .main => s.main

/-- After `com_init`. -/
def init (com : Com) : Poll where
  pc := .out
  port := (World.init com).port
  temp := .buff1
  buffShift := 0
  stored := []
  fates := []
  given := false

def run (com : Com) (es : List Event) : Poll := es.foldl step (init com)

/-! ### Without an interrupt -/

section Uninterrupted
variable {s : Poll}

/-- The exchange, executed without an interrupt. -/
theorem exchange_statements (h : s.pc = .out) :
    ∃ n, (main^[n] s).pc = .testCount ∧ (main^[n] s).port = s.port.manageSwap := by
  obtain ⟨pc, port, temp, buffShift, stored, fates, given⟩ := s
  obtain rfl : pc = .out := h
  have hswaps : port.swaps = (port.usartState &&& 0xA == 0xA && port.dmaReceiveSize == port.ndtr) :=
    rfl
  have htwo : main^[2] ⟨.out, port, temp, buffShift, stored, fates, given⟩ =
      ⟨if port.usartState &&& 0xA == 0xA then .testNdtr else .testCount, port, temp,
        buffShift, stored,
        fates, given⟩ := rfl
  cases hflags : port.usartState &&& 0xA == 0xA
  · rw [hflags] at hswaps htwo
    refine ⟨2, ?_⟩
    rw [htwo, Port.manageSwap_of_not hswaps]
    exact ⟨rfl, rfl⟩
  · rw [hflags] at hswaps htwo
    by_cases hsize : port.dmaReceiveSize = port.ndtr
    · have hthree : main^[3] ⟨.out, port, temp, buffShift, stored, fates, given⟩ =
          ⟨.stop, port, temp, buffShift, stored, fates, given⟩ := by
        rw [Function.iterate_succ_apply', htwo]
        simp [main, hsize]
      have hmanage : port.manageSwap = (Port.rearm port.swapPrepare).2 :=
        if_pos (by rw [hswaps]; simpa using hsize)
      refine ⟨11 + 3, ?_⟩
      rw [Function.iterate_add_apply, hthree, hmanage]
      exact ⟨rfl, rfl⟩
    · refine ⟨3, ?_⟩
      rw [Function.iterate_succ_apply', htwo,
        Port.manageSwap_of_not (hswaps.trans (by simpa using hsize))]
      simp [main, hsize]

/-- The call of `com->func` and what follows it, executed without an interrupt. -/
theorem call_statements (h : s.pc = .testCount) : ∃ n, (main^[n] s).pc = .out ∧ (main^[n] s).port =
    if s.port.receiveCount ≠ 0 then s.port.manageBusy.manageFinish else s.port := by
  obtain ⟨pc, port, temp, buffShift, stored, fates, given⟩ := s
  obtain rfl : pc = .testCount := h
  by_cases hrc : port.receiveCount = 0
  · refine ⟨1, ?_⟩
    simp [main, hrc]
  · have hfour : main^[4] ⟨.testCount, port, temp, buffShift, stored, fates, given⟩ =
        ⟨if port.manageBusy.usartState &&& 0x4 ≠ 0 then .clearFull else .resetCount,
          port.manageBusy, temp,
          buffShift, stored,
            fates ++ [.passed (firstCells (port.bytes port.buff) port.receiveCount)], true⟩ := by
      rw [Function.iterate_succ_apply]
      simp only [main, ne_eq, hrc, not_false_eq_true, if_true]
      rfl
    unfold Port.manageFinish
    rw [if_pos hrc]
    by_cases hfull : port.manageBusy.usartState &&& 0x4 = 0
    · refine ⟨3 + 4, ?_⟩
      rw [Function.iterate_add_apply, hfour]
      simp only [ne_eq, hfull, not_true_eq_false, if_false]
      exact ⟨rfl, rfl⟩
    · refine ⟨2 + 4, ?_⟩
      rw [Function.iterate_add_apply, hfour]
      simp only [ne_eq, hfull, not_false_eq_true, if_true]
      exact ⟨rfl, rfl⟩

/-- Executed without an interrupt, the statements are `receive_str_manage`, with a `com->func`
that leaves the port alone. -/
theorem main_receiveStrManage (h : s.pc = .out) (func : Buf → Nat → Port → UInt8 × Port)
    (hf : ∀ b n p, (func b n p).2 = p) :
    ∃ n, (main^[n] s).pc = .out ∧ (main^[n] s).port = (s.port.receiveStrManage func).2 := by
  obtain ⟨n, hpc, hport⟩ := exchange_statements h
  obtain ⟨n', hpc', hport'⟩ := call_statements hpc
  refine ⟨n' + n, ?_⟩
  rw [Function.iterate_add_apply]
  refine ⟨hpc', ?_⟩
  rw [hport', hport]
  unfold Port.receiveStrManage
  split
  · next hrc =>
    rw [if_pos hrc]
    simp only [hf]
  · next hrc => rw [if_neg hrc]

end Uninterrupted

/-! ### The property -/

/-- The bytes that have left the port. -/
def gone (s : Poll) : List UInt8 := s.fates.flatMap Fate.bytes

/-- The bytes in the DMA buffer. -/
def filling (s : Poll) : List UInt8 := firstCells (s.port.bytes s.port.dmaBuff) s.port.counted

/-- Every byte, in order, has been passed on, was overwritten in a forced exchange, or is
counted. -/
def Kept (s : Poll) : Prop := s.stored.Sublist (s.gone ++ s.undelivered ++ s.filling)

instance (s : Poll) : Decidable s.Kept := inferInstanceAs (Decidable (List.Sublist _ _))

/-- What is to hold between two calls. -/
structure Settled (s : Poll) : Prop where
  kept : s.Kept
  sum : s.port.dmaReceiveCount + s.port.dmaReceiveSize = usartReceiveMax
  idle : s.port.processing = false ∧ s.port.refilled = false

/-- No handler comes where the call relies on what it has seen before. -/
def NoRace (s : Poll) : Event → Prop
  | .rxByte _ => True
  -- the stream is stopped with the check of `NDTR` still true, and an empty user buffer
  | .main => s.pc = .stop → s.port.dmaReceiveSize = s.port.ndtr ∧ s.port.receiveCount = 0
  | .idle => s.pc.swapping = false ∧ (s.pc.counting = true → s.port.counted = 0)
  | .dmaRxIrq => s.port.huart.hdmarx.pending = true →
      s.pc.finishing = false ∧ (s.pc.counting = true → s.pc = .clearCount)

instance (s : Poll) : (e : Event) → Decidable (NoRace s e)
  | .rxByte _ => inferInstanceAs (Decidable True)
  | .main => inferInstanceAs (Decidable (_ → _))
  | .idle => inferInstanceAs (Decidable (_ ∧ _))
  | .dmaRxIrq => inferInstanceAs (Decidable (_ → _))

/-! ### The handlers, from a stopped or a sound port -/

end Poll

namespace Port
variable {p : Port} {m : RxMode}

/-- An idle line without any other flag is the idle branch alone. -/
theorem usartIrqHandler_idle (h : p.Window m) :
    p.usartIrqHandler { idle := true } = p.idleBranch := by
  have hirq : halUartIrqHandler { idle := true } p.huart = p.huart := by
    rw [halUartIrqHandler_eq h.mode]
    rfl
  unfold usartIrqHandler
  rw [hirq]
  rfl

/-- With no abort outstanding the idle branch leaves a sound port, and loses count of nothing. -/
theorem idleBranch_cases (h : p.Window m) (hm : m.stop = .stopped) : p.idleBranch.Sound ∧ ∃ u,
    p.processed = true ∧ u.hdmarx.ndtr = usartReceiveMax ∧ p.idleBranch =
      { p.exchange p.counted with huart := u, usartState := p.usartState &&& ~~~0x2 &&& ~~~0x8 } ∨
    p.processed = false ∧ u.hdmarx.ndtr = p.ndtr ∧ p.idleBranch =
      { p.append p.counted with huart := u, usartState := p.usartState ||| 0x8 } := by
  have hwin := h.idlePrepare
  rw [hm] at hwin
  obtain ⟨hsound, hndtr⟩ := hwin.1.rearm_sound hwin.2
  refine ⟨hsound, p.idleBranch.huart, ?_⟩
  rw [idlePrepare_size h] at hndtr
  have heq : p.idleBranch = { p.idlePrepare.1 with huart := p.idleBranch.huart } := rfl
  rw [idlePrepare_eq h] at heq
  cases hp : p.processed
  · rw [hp] at hndtr heq
    exact .inr ⟨rfl, hndtr, heq⟩
  · rw [hp] at hndtr heq
    exact .inl ⟨rfl, hndtr, heq⟩

/-- A started reception is not started again. -/
theorem Sound.rearm (h : p.Sound) (off : Nat) : (Port.rearm (p, off)).2 = p := by
  obtain ⟨m, hm, hs⟩ := h
  unfold Port.rearm
  rcases hs with rfl | rfl | ⟨rfl, hsize⟩
  · simp only [halUartReceiveDma_busy p.huart hm.mode.rxState]
  · simp only [halUartReceiveDma_busy p.huart hm.mode.rxState]
  · rw [show (p, off).1.dmaReceiveSize = 0 from hsize,
      halUartReceiveDma_zero p.huart hm.mode.rxState]

end Port

namespace Poll
variable {s : Poll} {m : RxMode}

/-! ### The invariant -/

/-- What the place in the call says about the counts. -/
def Here (s : Poll) : Prop :=
  match s.pc with
  | .saveDmaBuff | .setDmaBuff | .setBuff => False
  | .setShift | .setSize | .clearProcessed | .setCount =>
    s.port.dmaReceiveCount = 0 ∧ s.port.receiveCount = 0
  | .clearCount => s.port.dmaReceiveCount = 0
  | .setBusy | .call => s.port.receiveCount ≠ 0
  | .testFull => s.port.receiveCount ≠ 0 ∧ (s.port.refilled = false → s.given = true)
  | .resetCount => s.port.receiveCount ≠ 0 ∧ s.given = true
  | .setProcessed => s.port.receiveCount = 0 ∧ s.port.processed = false
  | .out | .testFlags | .testNdtr | .stop | .clearWaiting | .rearm | .testCount | .clearFull
  | .clearBusy => True

/-- The call's books. -/
structure Books (s : Poll) : Prop where
  kept : s.Kept
  processed : s.port.processed = true → s.port.receiveCount = 0
  busy : s.port.processing = s.pc.busy
  full : s.port.refilled = true → s.pc.busy = true ∧ s.pc.finishing = false
  here : s.Here

/-- The reception is armed, or never will be again, and the books are right. -/
structure Base (s : Poll) : Prop extends Books s where
  sound : s.port.Sound

/-- The main loop has just stopped the stream, with nothing new in the DMA buffer and nothing
in the user's. -/
structure Stopped (s : Poll) : Prop where
  pc : s.pc = .saveDmaBuff
  window : s.port.Window .stopped
  quiet : s.port.ndtr = s.port.dmaReceiveSize
  receiveCount : s.port.receiveCount = 0
  kept : s.stored.Sublist (s.gone ++
    firstCells (s.port.bytes s.port.dmaBuff) s.port.dmaReceiveCount)
  idle : s.port.processing = false ∧ s.port.refilled = false

/-- The main loop is on its way from there to the re-arming, and nothing has come between. -/
def Exchanging (s : Poll) : Prop := ∃ s₀ k, Stopped s₀ ∧ k ≤ 9 ∧ s = main^[k] s₀

def Inv (s : Poll) : Prop := s.Base ∨ s.Exchanging

/-- Nothing is left to deliver in an empty user buffer. -/
theorem undelivered_zero (h : s.port.receiveCount = 0) : s.undelivered = [] := by
  unfold undelivered
  rw [h]
  split <;> rfl

/-! ### The handlers -/

theorem base_rxByte (h : s.Base) (b : UInt8) : (s.rxByte b).Base := by
  have hsound := h.sound
  obtain ⟨m, hm, hs⟩ := h.sound
  unfold rxByte
  by_cases hr : m = .running
  · subst hr
    have hroom : 0 < s.port.ndtr := hm.mode.room rfl
    have hcounted := hm.counted_succ (Nat.sub_add_cancel hroom)
    rw [Port.rxDmaStore_running hm]
    refine ⟨⟨?_, h.processed, h.busy, h.full, h.here⟩, hm.transfer_sound _⟩
    · have hkept := h.kept
      unfold Kept at hkept ⊢
      have hfill : firstCells (Function.update s.port.bytes s.port.dmaBuff
            (Function.update (s.port.bytes s.port.dmaBuff) s.port.counted b) s.port.dmaBuff)
          (s.port.counted + 1) = s.filling ++ [b] := by
        rw [Function.update_self]
        exact firstCells_update_self _ _ _
      have huser : undelivered { s with
          stored := s.stored ++ [b]
          port := { s.port with
            bytes := Function.update s.port.bytes s.port.dmaBuff
              (Function.update (s.port.bytes s.port.dmaBuff) s.port.counted b)
            huart := { s.port.huart with hdmarx := s.port.huart.hdmarx.transfer } } } =
              s.undelivered := by
        unfold undelivered
        simp only [Function.update_of_ne hm.distinct]
      show (s.stored ++ [b]).Sublist (s.gone ++ _ ++ firstCells _
        (s.port.dmaReceiveCount + (s.port.dmaReceiveSize - (s.port.ndtr - 1))))
      rw [hcounted, hfill, huser, ← List.append_assoc]
      exact hkept.append (List.Sublist.refl _)
  · rw [Port.rxDmaStore_of_ne hm hr]
    exact h

/-- An idle line, unless it comes in the middle of the exchange. -/
theorem base_idle (hm : s.port.Window m) (hstop : m.stop = .stopped) (h : s.Books)
    (hok : NoRace s .idle) : s.idle.Base := by
  obtain ⟨hsound, u, ⟨hp, hn, heq⟩ | ⟨hp, hn, heq⟩⟩ := Port.idleBranch_cases hm hstop
  · -- the user buffer was processed, so it is empty
    have hrc := h.processed hp
    have hidle : s.idle = { s with
        given := false
        port := { s.port.exchange s.port.counted with
          huart := u, usartState := s.port.usartState &&& ~~~0x2 &&& ~~~0x8 } } := by
      unfold idle
      rw [Port.usartIrqHandler_idle hm, heq, hp]
      simp
    rw [← Port.usartIrqHandler_idle hm] at hsound
    obtain ⟨f0, f1, f2, -⟩ := Port.getLsbD_exchanged s.port.usartState
    refine ⟨⟨?_, ?_, ?_, ?_, ?_⟩, hsound⟩
    · have hkept := h.kept
      unfold Kept at hkept
      rw [undelivered_zero hrc, List.append_nil] at hkept
      have hempty : s.idle.filling = [] := by
        rw [hidle]
        unfold filling Port.counted Port.ndtr Port.exchange
        rw [hn]
        simp
      unfold Kept
      rw [hempty, hidle, List.append_nil]
      exact hkept
    · rw [hidle]
      intro hp'
      exact absurd (hp'.symm.trans f1) (by decide)
    · rw [hidle]
      exact f0.trans h.busy
    · rw [hidle]
      intro hfull
      exact h.full (f2.symm.trans hfull)
    · have hhere := h.here
      rw [hidle]
      unfold Here at hhere ⊢
      cases hpc : s.pc <;> simp only [hpc] at hhere ⊢
      all_goals first
        | trivial
        | exact rfl
        | exact absurd hrc hhere
        | exact absurd hrc hhere.1
        | exact ⟨rfl, hok.2 (by rw [hpc]; rfl)⟩
        | exact absurd (hp.symm.trans hhere.2) (by decide)
  · have hidle : s.idle = { s with
        port :=
          { s.port.append s.port.counted with
            huart := u, usartState := s.port.usartState ||| 0x8 } } := by
      unfold idle
      rw [Port.usartIrqHandler_idle hm, heq, hp]
      simp
    rw [← Port.usartIrqHandler_idle hm] at hsound
    have hcounted : s.idle.port.counted = s.port.counted := by
      have := hm.counted_add_ndtr
      rw [hidle]
      show s.port.counted + (usartReceiveMax - s.port.counted - u.hdmarx.ndtr) = s.port.counted
      rw [hn]
      omega
    obtain ⟨f0, f1, f2, -⟩ := Port.getLsbD_appended s.port.usartState
    refine ⟨⟨?_, ?_, ?_, ?_, ?_⟩, hsound⟩
    · have hkept := h.kept
      unfold Kept filling at hkept ⊢
      rw [hcounted, hidle]
      exact hkept
    · rw [hidle]
      intro hp'
      exact absurd (hp'.symm.trans (f1.trans hp)) (by decide)
    · rw [hidle]
      exact f0.trans h.busy
    · rw [hidle]
      intro hfull
      exact h.full (f2.symm.trans hfull)
    · have hhere := h.here
      rw [hidle]
      unfold Here at hhere ⊢
      cases hpc : s.pc <;> simp only [hpc] at hhere ⊢
      all_goals first
        | exact hhere
        | exact ⟨hok.2 (by rw [hpc]; rfl), hhere.2⟩
        | exact hok.2 (by rw [hpc]; rfl)
        | exact ⟨hhere.1, fun hr => hhere.2 (f2.symm.trans hr)⟩
        | exact ⟨hhere.1, f1.trans hp⟩

/-- A full window, unless it fills up where the call no longer looks. -/
theorem base_dmaRxIrq (h : s.Base) (hok : NoRace s .dmaRxIrq) : s.dmaRxIrq.Base := by
  obtain ⟨m, hm, hs⟩ := h.sound
  unfold dmaRxIrq
  by_cases hp : s.port.huart.hdmarx.pending = true
  · obtain ⟨hfinishing, hcounting⟩ := hok hp
    rw [if_pos hp]
    obtain rfl := (hm.pending_sound hs).mp hp
    obtain ⟨hsound, u, hn, heq⟩ := Port.dmaRxIrqHandler_full hm
    obtain ⟨f0, f1, f2, -⟩ := Port.getLsbD_filled s.port.usartState s.port.processing
    have hcounted : s.port.counted = usartReceiveMax := by
      have hadd := hm.counted_add_ndtr
      rw [show s.port.ndtr = 0 from hm.mode.full rfl] at hadd
      exact hadd
    refine ⟨⟨?_, ?_, ?_, ?_, ?_⟩, hsound⟩
    · have hkept := h.kept
      unfold Kept filling at hkept ⊢
      rw [hcounted] at hkept
      have hempty : s.port.dmaRxIrqHandler.counted = 0 := by
        rw [heq]
        unfold Port.counted Port.ndtr Port.exchange
        rw [hn]
        simp
      simp only [hempty]
      rw [heq]
      simpa [gone, undelivered, Fate.bytes, Port.exchange] using hkept
    · rw [heq]
      intro hp'
      exact absurd (hp'.symm.trans f1) (by decide)
    · rw [heq]
      exact f0.trans h.busy
    · rw [heq]
      intro hfull
      rcases Bool.or_eq_true_iff.mp (f2.symm.trans hfull) with hr | hb
      · exact h.full hr
      · exact ⟨h.busy.symm.trans hb, hfinishing⟩
    · have hhere := h.here
      have hbusy := h.busy
      rw [heq]
      unfold Here at hhere ⊢
      cases hpc : s.pc <;> simp only [hpc] at hhere hbusy ⊢
      case testFull =>
        have hset := f2.trans (Bool.or_eq_true_iff.mpr (.inr hbusy))
        exact ⟨Nat.pos_iff_ne_zero.mp usartReceiveMax_pos,
          fun hr => absurd (hr.symm.trans hset) (by decide)⟩
      all_goals first
        | trivial
        | exact rfl
        | exact hhere
        | exact Nat.pos_iff_ne_zero.mp usartReceiveMax_pos
        | exact absurd (hpc.symm.trans (hcounting (by rw [hpc]; rfl))) (by decide)
        | exact absurd ((congrArg Pc.finishing hpc).symm.trans hfinishing) (by decide)
  · rw [if_neg hp]
    exact h

/-! ### The exchange -/

/-- On the way to the re-arming the main loop leaves the driver alone. -/
theorem Stopped.iterate (h : Stopped s) {k : Nat} (hk : k ≤ 9) :
    (main^[k] s).port.huart = s.port.huart ∧ (main^[k] s).pc ≠ .out := by
  obtain ⟨pc, port, temp, buffShift, stored, fates, given⟩ := s
  obtain rfl : pc = .saveDmaBuff := h.pc
  interval_cases k <;> simp [main]

theorem exchanging_rxByte (h : s.Exchanging) (b : UInt8) : (s.rxByte b).Exchanging := by
  have hrest := h
  obtain ⟨s₀, k, hs, hk, rfl⟩ := h
  obtain ⟨huart, -⟩ := hs.iterate hk
  have hstore : (main^[k] s₀).port.rxDmaStore b = none := by
    unfold Port.rxDmaStore Port.armed
    rw [huart, hs.window.mode.en]
    rfl
  unfold rxByte
  rw [hstore]
  exact hrest

theorem exchanging_dmaRxIrq (h : s.Exchanging) : s.dmaRxIrq.Exchanging := by
  have hrest := h
  obtain ⟨s₀, k, hs, hk, rfl⟩ := h
  obtain ⟨huart, -⟩ := hs.iterate hk
  unfold dmaRxIrq
  rw [huart, hs.window.mode.pending]
  exact hrest

/-- The buffers are exchanged, and the stream is not armed yet: what was counted in the DMA buffer
is now the user's. -/
structure Exchanged (s : Poll) : Prop extends Books s where
  window : s.port.Window .stopped
  handed : s.stored.Sublist (s.gone ++ s.undelivered)

/-- The exchange of a stopped port, bits 1 and 3 aside. -/
theorem Stopped.exchanged (h : Stopped s) {s' : Poll} (st : BitVec 8)
    (hport : s'.port = { s.port.exchange s.port.dmaReceiveCount with usartState := st })
    (hbits : st.getLsbD 0 = s.port.usartState.getLsbD 0 ∧
      st.getLsbD 2 = s.port.usartState.getLsbD 2)
    (hcount : s.port.dmaReceiveCount = 0 ∨ s'.given = false ∧ st.getLsbD 1 = false)
    (hstored : s'.stored = s.stored) (hfates : s'.fates = s.fates) (hbusy : s'.pc.busy = false)
    (hhere : s'.Here) : s'.Exchanged := by
  have hle : s.port.dmaReceiveCount ≤ usartReceiveMax := by
    have := h.window.sum
    omega
  have hwin : s'.port.Window .stopped := hport ▸ (h.window.exchange rfl hle).setState st
  have hrc : s'.port.receiveCount = s.port.dmaReceiveCount := by rw [hport]; rfl
  have hhanded : s'.stored.Sublist (s'.gone ++ s'.undelivered) := by
    have huser :
        s'.undelivered = firstCells (s.port.bytes s.port.dmaBuff) s.port.dmaReceiveCount := by
      rcases hcount with hzero | ⟨hgiven, -⟩
      · rw [undelivered_zero (hrc.trans hzero), hzero]
        rfl
      · unfold undelivered
        rw [hgiven, hport]
        rfl
    unfold gone
    rw [huser, hstored, hfates]
    exact h.kept
  refine ⟨⟨?_, fun hp => ?_, ?_, fun hr => ?_, hhere⟩, hwin, hhanded⟩
  · exact hhanded.trans (List.sublist_append_left _ _)
  · rcases hcount with hzero | ⟨-, hclear⟩
    · exact hrc.trans hzero
    · rw [hport] at hp
      exact absurd (hp.symm.trans hclear) (by decide)
  · rw [hport, hbusy]
    exact hbits.1.trans h.idle.1
  · rw [hport] at hr
    exact absurd (hr.symm.trans (hbits.2.trans h.idle.2)) (by decide)

/-- Where an idle line may come, the exchange is made: there was nothing to count, or the counts
are set. -/
theorem Stopped.iterate_exchanged (h : Stopped s) {k : Nat} (hk : k ≤ 9)
    (hswap : (main^[k] s).pc.swapping = false)
    (hcount : (main^[k] s).pc.counting = true → (main^[k] s).port.counted = 0) :
    (main^[k] s).Exchanged := by
  obtain ⟨f0, f1, f2, -⟩ := Port.getLsbD_exchanged s.port.usartState
  have hcleared : (s.port.usartState &&& ~~~0x2).getLsbD 0 = s.port.usartState.getLsbD 0 ∧
      (s.port.usartState &&& ~~~0x2).getLsbD 1 = false ∧
      (s.port.usartState &&& ~~~0x2).getLsbD 2 = s.port.usartState.getLsbD 2 := by simp
  have hrc := h.receiveCount
  have hsum := h.window.sum
  have hquiet := h.quiet
  obtain ⟨pc, port, temp, buffShift, stored, fates, given⟩ := s
  obtain ⟨com, huart, rc, buff, dmaBuff, bytes, count, size, state⟩ := port
  obtain rfl : pc = .saveDmaBuff := h.pc
  obtain rfl : rc = 0 := hrc
  interval_cases k
  case «0» | «1» | «2» => cases hswap
  case «8» =>
    exact h.exchanged _ rfl ⟨hcleared.1, hcleared.2.2⟩ (.inr ⟨rfl, hcleared.2.1⟩) rfl
      rfl rfl trivial
  case «9» => exact h.exchanged _ rfl ⟨f0, f2⟩ (.inr ⟨rfl, f1⟩) rfl rfl rfl trivial
  all_goals
    -- nothing was counted, so the counts are what they will be
    obtain rfl : count = 0 := Nat.eq_zero_of_add_eq_zero_right (hcount rfl)
    obtain rfl : size = usartReceiveMax := (Nat.zero_add _).symm.trans hsum
  case «3» | «4» => exact h.exchanged state rfl ⟨rfl, rfl⟩ (.inl rfl) rfl rfl rfl ⟨rfl, rfl⟩
  case «5» => exact h.exchanged state rfl ⟨rfl, rfl⟩ (.inl rfl) rfl rfl rfl ⟨rfl, rfl⟩
  case «6» => exact h.exchanged _ rfl ⟨hcleared.1, hcleared.2.2⟩ (.inl rfl) rfl rfl rfl ⟨rfl, rfl⟩
  case «7» => exact h.exchanged _ rfl ⟨hcleared.1, hcleared.2.2⟩ (.inl rfl) rfl rfl rfl rfl

theorem exchanging_idle (h : s.Exchanging) (hok : NoRace s .idle) : s.idle.Base := by
  obtain ⟨s₀, k, hs, hk, rfl⟩ := h
  have hex := hs.iterate_exchanged hk hok.1 hok.2
  exact base_idle hex.window rfl hex.toBooks hok

/-- The last step of the exchange arms the stream again, on the whole array. -/
theorem Exchanged.rearm (h : s.Exchanged) (hpc : s.pc = .rearm) (hshift : s.buffShift = 0)
    (hcount : s.port.dmaReceiveCount = 0) : s.main.Base := by
  have hmain : s.main = { s with pc := .testCount, port := (Port.rearm (s.port, 0)).2 } := by
    unfold main
    simp only [hpc, hshift]
  obtain ⟨hsound, hndtr⟩ := h.window.rearm_sound (r := (s.port, 0)) hcount.symm
  have hempty : filling { s with pc := .testCount, port := (Port.rearm (s.port, 0)).2 } = [] := by
    have hcounted : (Port.rearm (s.port, 0)).2.counted = 0 := by
      unfold Port.counted
      rw [hndtr]
      show s.port.dmaReceiveCount + (s.port.dmaReceiveSize - s.port.dmaReceiveSize) = 0
      omega
    unfold filling
    rw [hcounted]
    rfl
  have hbusy : s.port.processing = false := by
    rw [h.busy, hpc]
    rfl
  rw [hmain]
  refine ⟨⟨?_, h.processed, hbusy, fun hr => ?_, trivial⟩, hsound⟩
  · unfold Kept
    rw [hempty, List.append_nil]
    exact h.handed
  · have hfull := h.full hr
    rw [hpc] at hfull
    exact absurd hfull.1 (by decide)

theorem exchanging_main (h : s.Exchanging) : s.main.Inv := by
  obtain ⟨s₀, k, hs, hk, rfl⟩ := h
  by_cases hlast : k = 9
  · subst hlast
    obtain ⟨hpc, hshift, hcount⟩ : (main^[9] s₀).pc = .rearm ∧ (main^[9] s₀).buffShift = 0 ∧
        (main^[9] s₀).port.dmaReceiveCount = 0 := by
      have hstart := hs.pc
      clear hs
      obtain ⟨pc, port, temp, buffShift, stored, fates, given⟩ := s₀
      obtain rfl : pc = .saveDmaBuff := hstart
      exact ⟨rfl, rfl, rfl⟩
    have hex := hs.iterate_exchanged hk (by rw [hpc]; rfl) (by rw [hpc]; nofun)
    exact .inl (hex.rearm hpc hshift hcount)
  · exact .inr ⟨s₀, k + 1, hs, by omega, (Function.iterate_succ_apply' main k s₀).symm⟩

/-! ### The statements, with the reception armed -/

/-- A step that only goes on to another statement. -/
theorem Base.setPc (h : s.Base) {pc : Pc} (hbusy : pc.busy = s.pc.busy)
    (hfinishing : s.port.refilled = true → pc.finishing = false)
    (hhere : Here { s with pc := pc }) :
    Base { s with pc := pc } :=
  ⟨⟨h.kept, h.processed, h.busy.trans hbusy.symm,
    fun hr => ⟨hbusy.trans (h.full hr).1, hfinishing hr⟩, hhere⟩, h.sound⟩

/-- A step that changes the flags. -/
theorem Base.setState (h : s.Base) {pc : Pc} {st : BitVec 8}
    (hprocessed : st.getLsbD 1 = true → s.port.receiveCount = 0) (hbusy : st.getLsbD 0 = pc.busy)
    (hfull : st.getLsbD 2 = true → pc.busy = true ∧ pc.finishing = false)
    (hhere : Here { s with pc := pc, port := { s.port with usartState := st } }) :
    Base { s with pc := pc, port := { s.port with usartState := st } } :=
  ⟨⟨h.kept, hprocessed, hbusy, hfull, hhere⟩, h.sound.setState st⟩

/-- The stream is stopped. -/
theorem Base.stop (h : s.Base) (hsize : s.port.dmaReceiveSize = s.port.ndtr)
    (hrc : s.port.receiveCount = 0) (hpc : s.pc = .stop) :
    Stopped { s with pc := .saveDmaBuff, port := s.port.stop } := by
  obtain ⟨m, hm, hs⟩ := h.sound
  have hwin := hm.stop
  rw [hs.stop] at hwin
  have hcounted : s.port.counted = s.port.dmaReceiveCount := by
    unfold Port.counted
    omega
  refine ⟨rfl, hwin, (Port.Window.stop_ndtr s.port).trans hsize.symm, hrc, ?_, ?_, ?_⟩
  · have hkept := h.kept
    unfold Kept filling at hkept
    rw [undelivered_zero hrc, List.append_nil, hcounted] at hkept
    exact hkept
  · show s.port.processing = false
    rw [h.busy, hpc]
    rfl
  · show s.port.refilled = false
    rw [← Bool.not_eq_true]
    intro hr
    have hfull := h.full hr
    rw [hpc] at hfull
    exact absurd hfull.1 (by decide)

/-- `com->func` is called. -/
theorem Base.call (h : s.Base) (hpc : s.pc = .call) (hrc : s.port.receiveCount ≠ 0) :
    Base { s with
      pc := .testFull, given := true
      fates :=
        s.fates ++ [.passed (firstCells (s.port.bytes s.port.buff) s.port.receiveCount)] } := by
  have hbusy : s.port.processing = true := by
    rw [h.busy, hpc]
    rfl
  have huser :
      s.undelivered.Sublist (firstCells (s.port.bytes s.port.buff) s.port.receiveCount) := by
    unfold undelivered
    split
    · exact List.nil_sublist _
    · exact List.Sublist.refl _
  refine ⟨⟨?_, h.processed, hbusy, fun _ => ⟨rfl, rfl⟩, hrc, fun _ => rfl⟩, h.sound⟩
  have hpassed :=
    h.kept.trans (((List.Sublist.refl s.gone).append huser).append (List.Sublist.refl s.filling))
  unfold Kept
  simpa [gone, undelivered, filling, Fate.bytes] using hpassed

theorem base_main (h : s.Base) (hok : NoRace s .main) : s.main.Inv := by
  have hhere := h.here
  have hprocessed : s.port.usartState.getLsbD 1 = true → s.port.receiveCount = 0 := h.processed
  have hbusy : s.port.usartState.getLsbD 0 = s.pc.busy := h.busy
  have hfull : s.port.usartState.getLsbD 2 = true → s.pc.busy = true ∧
      s.pc.finishing = false := h.full
  unfold Here at hhere
  unfold main
  cases hpc : s.pc <;> simp only [hpc] at hhere hbusy hfull ⊢
  case stop =>
    obtain ⟨hsize, hrc⟩ := hok hpc
    exact .inr ⟨_, 0, h.stop hsize hrc hpc, Nat.zero_le _, rfl⟩
  all_goals left
  case out => exact h.setPc (by rw [hpc]; rfl) (fun _ => rfl) trivial
  case testFlags => split <;> exact h.setPc (by rw [hpc]; rfl) (fun _ => rfl) trivial
  case testNdtr => split <;> exact h.setPc (by rw [hpc]; rfl) (fun _ => rfl) trivial
  case setShift => exact ⟨⟨h.kept, hprocessed, hbusy, hfull, hhere⟩, h.sound⟩
  case setSize =>
    have hsame : { s.port with dmaReceiveSize := usartReceiveMax } = s.port := by
      obtain ⟨m, hm, -⟩ := h.sound
      rw [← hm.sum, hhere.1, Nat.zero_add]
    rw [hsame]
    exact h.setPc (by rw [hpc]; rfl) (fun _ => rfl) hhere
  case clearProcessed =>
    exact h.setState (by simp) (by simpa using hbusy) (by simpa using hfull) hhere
  case setCount =>
    have hsame : { s.port with receiveCount := s.port.dmaReceiveCount } = s.port := by
      rw [hhere.1, ← hhere.2]
    have hkept := h.kept
    unfold Kept at hkept
    rw [undelivered_zero hhere.2,
      ← undelivered_zero (s := { s with given := false }) hhere.2] at hkept
    rw [hsame]
    exact ⟨⟨hkept, hprocessed, hbusy, hfull, hhere.1⟩, h.sound⟩
  case clearCount =>
    have hsame : { s.port with dmaReceiveCount := 0 } = s.port := by rw [← hhere]
    rw [hsame]
    exact h.setPc (by rw [hpc]; rfl) (fun _ => rfl) trivial
  case clearWaiting =>
    exact h.setState (by simpa using hprocessed) (by simpa using hbusy)
      (by simpa using hfull) trivial
  case rearm =>
    rw [h.sound.rearm]
    exact h.setPc (by rw [hpc]; rfl) (fun _ => rfl) trivial
  case testCount =>
    split
    · next hrc => exact h.setPc (by rw [hpc]; rfl) (fun _ => rfl) hrc
    · exact h.setPc (by rw [hpc]; rfl) (fun _ => rfl) trivial
  case setBusy => exact h.setState (by simpa using hprocessed) (by simp) (by simp) hhere
  case call => exact h.call hpc hhere
  case testFull =>
    simp only [Port.refilled_iff]
    split
    · exact h.setPc (by rw [hpc]; rfl) (fun _ => rfl) trivial
    · next hr =>
      have hclear : s.port.refilled = false := by simpa using hr
      refine h.setPc (by rw [hpc]; rfl) (fun hr' => absurd hr' hr) ⟨hhere.1, hhere.2 hclear⟩
  case clearFull =>
    exact h.setState (by simpa using hprocessed) (by simpa using hbusy) (by simp) trivial
  case resetCount =>
    have hkept := h.kept
    have huser : s.undelivered = [] := if_pos hhere.2
    unfold Kept at hkept
    rw [huser] at hkept
    have hclear : s.port.processed = false := by
      rw [← Bool.not_eq_true]
      exact fun hp => hhere.1 (hprocessed hp)
    obtain ⟨m, hm, hs⟩ := h.sound
    exact ⟨⟨hkept, fun _ => rfl, hbusy, hfull, rfl, hclear⟩, m,
      ⟨hm.mode, hm.distinct, Nat.zero_le _, hm.sum,
      hm.ndtr_le, hm.target⟩, hs⟩
  case setProcessed =>
    exact h.setState (fun _ => hhere.1) (by simpa using hbusy) (by simpa using hfull) trivial
  case clearBusy =>
    exact h.setState (by simpa using hprocessed) (by simp) (by simpa using hfull) trivial

/-! ### Every run -/

theorem inv_init (com : Com) : (init com).Inv := by
  refine .inl ⟨⟨List.nil_sublist _, fun _ => rfl, ?_, fun hr => ?_, trivial⟩, World.sound_init com⟩
  · cases com <;> rfl
  · cases com <;> cases hr

theorem inv_step (s : Poll) (e : Event) (h : s.Inv) (hok : NoRace s e) : (s.step e).Inv := by
  rcases h with h | h
  · obtain ⟨m, hm, hs⟩ := h.sound
    cases e with
    | rxByte b => exact .inl (base_rxByte h b)
    | idle => exact .inl (base_idle hm hs.stop h.toBooks hok)
    | dmaRxIrq => exact .inl (base_dmaRxIrq h hok)
    | main => exact base_main h hok
  · cases e with
    | rxByte b => exact .inr (exchanging_rxByte h b)
    | idle => exact .inl (exchanging_idle h hok)
    | dmaRxIrq => exact .inr (exchanging_dmaRxIrq h)
    | main => exact exchanging_main h

/-- Between two calls the books are closed. -/
theorem Inv.settled (h : s.Inv) (hpc : s.pc = .out) : s.Settled := by
  rcases h with h | ⟨s₀, k, hs, hk, rfl⟩
  · obtain ⟨m, hm, -⟩ := h.sound
    have hbusy := h.busy
    rw [hpc] at hbusy
    refine ⟨h.kept, hm.sum, hbusy, ?_⟩
    rw [← Bool.not_eq_true]
    intro hr
    have hfull := (h.full hr).1
    rw [hpc] at hfull
    cases hfull
  · exact absurd hpc (hs.iterate hk).2

/-- **Interrupts between the statements.** In a run where no handler comes between the check and the
exchange, nor after the test of bit 2, every byte is kept, the sizes add up and no flag is left
behind, in every state with no call under way. -/
theorem settled_run (com : Com) (es : List Event) (h : Along step NoRace (init com) es) (n : Nat)
    (hout : (run com (es.take n)).pc = .out) : (run com (es.take n)).Settled :=
  ((h.take n).invariant inv_step (inv_init com)).settled hout

/-- Bytes and idle lines in the middle of two calls; the second one exchanges the buffers. -/
def twoCalls : List Event :=
  [.rxByte 1, .idle, .main, .rxByte 2, .main, .main, .idle] ++ List.replicate 18 .main ++ [.idle] ++
    List.replicate 5 .main ++ [.rxByte 3] ++ List.replicate 4 .main

theorem twoCalls_settled : (run .usart1 (twoCalls.take 36)).Settled :=
  settled_run .usart1 twoCalls (by decide +kernel) 36 (by decide +kernel)

/-- Two frames, the first of them passed on; the second call finds `NDTR` unchanged, and then a
byte arrives. -/
def lateByte : List Event :=
  [.rxByte 1, .idle, .rxByte 2, .idle] ++ List.replicate 12 .main ++ [.rxByte 3] ++
    List.replicate 18 .main

/-- It is stored, and lost. -/
theorem lateByte_lost : (run .usart1 lateByte).pc = .out ∧
    (run .usart1 lateByte).stored = [1, 2, 3] ∧
    (run .usart1 lateByte).gone ++ (run .usart1 lateByte).undelivered ++
      (run .usart1 lateByte).filling = [1, 2] ∧
    ¬ (run .usart1 lateByte).Settled :=
  ⟨by decide +kernel, by decide +kernel, by decide +kernel,
    fun h => absurd h.kept (by decide +kernel)⟩

end Poll

end Stm32F4.Usart
