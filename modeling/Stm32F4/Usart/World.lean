import Mathlib.Data.List.Basic
import Stm32F4.Lib.Cells
import Stm32F4.Lib.Run
import Stm32F4.Usart.Port

/-! One port among its interrupts, its streams and the main loop.

An event is one thing that happens next: a byte arrives or is fetched, an interrupt
is served, the main loop enters or leaves `receive_str_manage`, a message is sent.
Handlers run to completion. `receive_str_manage` is split at its call of
`com->func`, so a run may put other events between the two halves; a call with
nothing in between is `enter` followed by `leave`. Every event may come at any
time: one that is not possible in the state (a byte with no stream armed, a stream
interrupt that is not pending) changes nothing.

Beside the port a world keeps the history the port itself forgets: the bytes its
receive stream has stored, the frames `com->func` was given, and the same for the
transmit direction. -/
namespace Stm32F4.Usart
open Hal Lib

/-- A call of `com->func` under way: its first two arguments. -/
structure Call where
  buf : Buf
  count : Nat
deriving DecidableEq, Repr

structure World where
  port : Port
  main : Option Call
  /-- every byte the receive stream has stored -/
  stored : List UInt8
  /-- what `com->func` was given, call by call -/
  passed : List (List UInt8)
  /-- the addresses the transmit stream has fetched from -/
  wire : List Addr
  /-- the messages `com_send_str` accepted, as the addresses of their bytes -/
  accepted : List (List Addr)

inductive Event where
  | rxByte (b : UInt8)
  | usartIrq (sr : Sr)
  | dmaRxIrq
  | dmaTxIrq
  | txByte
  /-- a pass of the loop in `com_send_str`, so many ticks after the call -/
  | sendStr (waited : BitVec 32) (str : Option Addr) (len : Nat)
  | enter
  | leave
deriving DecidableEq, Repr

/-- The line is free of errors. -/
def Event.clean : Event → Bool
  | .usartIrq sr => !sr.errors
  | _ => true

/-- The addresses of a message. -/
def message (str : Option Addr) (len : Nat) : List Addr :=
  match str with
  | some a => (List.range len).map a.add
  | none => []

namespace World

/-- The first half of `receive_str_manage`, up to the call of `com->func`. -/
def enter (w : World) : World :=
  match w.main with
  | some _ => w
  | none =>
    let p := w.port.manageSwap
    if p.receiveCount ≠ 0 then
      { w with
        port := p.manageBusy, main := some ⟨p.buff, p.receiveCount⟩
        passed := w.passed ++ [firstCells (p.bytes p.buff) p.receiveCount] }
    else { w with port := p }

/-- The second half, from the return of `com->func`. -/
def leave (w : World) : World :=
  match w.main with
  | some _ => { w with port := w.port.manageFinish, main := none }
  | none => w

def sendStr (waited : BitVec 32) (str : Option Addr) (len : Nat) (w : World) : World :=
  let r := w.port.comSendStr waited str len
  { w with
    port := r.2
    accepted := if r.1 = some .ok then w.accepted ++ [message str len] else w.accepted }

/-- A byte has been received. -/
def rxByte (b : UInt8) (w : World) : World :=
  match w.port.rxDmaStore b with
  | some p => { w with port := p, stored := w.stored ++ [b] }
  | none => w

def usartIrq (sr : Sr) (w : World) : World := { w with port := w.port.usartIrqHandler sr }

def dmaRxIrq (w : World) : World :=
  if w.port.huart.hdmarx.pending then { w with port := w.port.dmaRxIrqHandler } else w

def dmaTxIrq (w : World) : World :=
  if w.port.huart.hdmatx.pending then { w with port := w.port.dmaTxIrqHandler } else w

/-- The data register has room for a byte. -/
def txByte (w : World) : World :=
  match w.port.txDmaRead with
  | some (a, p) => { w with port := p, wire := w.wire ++ [a] }
  | none => w

def step (w : World) : Event → World
  | .rxByte b => w.rxByte b
  | .usartIrq sr => w.usartIrq sr
  | .dmaRxIrq => w.dmaRxIrq
  | .dmaTxIrq => w.dmaTxIrq
  | .txByte => w.txByte
  | .sendStr waited str len => w.sendStr waited str len
  | .enter => w.enter
  | .leave => w.leave

/-- A call of `receive_str_manage` that nothing interrupts. -/
def poll (w : World) : World := w.enter.leave

/-- So many calls in a row. -/
def polls : Nat → World → World
  | 0, w => w
  | n + 1, w => polls n w.poll

section Calls
variable {w : World}

theorem enter_of_main {c : Call} (h : w.main = some c) : w.enter = w := by
  rw [enter, h]

theorem enter_of_filled (h : w.main = none) (hr : w.port.manageSwap.receiveCount ≠ 0) :
    w.enter = { w with
      port := w.port.manageSwap.manageBusy
      main := some ⟨w.port.manageSwap.buff, w.port.manageSwap.receiveCount⟩
      passed := w.passed ++
        [firstCells (w.port.manageSwap.bytes w.port.manageSwap.buff)
          w.port.manageSwap.receiveCount] } := by
  rw [enter, h]
  exact if_pos hr

theorem enter_of_empty (h : w.main = none) (hr : w.port.manageSwap.receiveCount = 0) :
    w.enter = { w with port := w.port.manageSwap } := by
  rw [enter, h]
  exact if_neg (not_not_intro hr)

theorem leave_of_main {c : Call} (h : w.main = some c) :
    w.leave = { w with port := w.port.manageFinish, main := none } := by
  rw [leave, h]

theorem leave_of_none (h : w.main = none) : w.leave = w := by
  rw [leave, h]

theorem dmaRxIrq_of_pending (h : w.port.huart.hdmarx.pending = true) :
    w.dmaRxIrq = { w with port := w.port.dmaRxIrqHandler } := if_pos h

theorem dmaRxIrq_of_not (h : ¬ w.port.huart.hdmarx.pending = true) : w.dmaRxIrq = w := if_neg h

end Calls

/-- `poll` is `receive_str_manage` with a `com->func` that leaves the port alone. -/
theorem poll_port (w : World) (h : w.main = none) (func : Buf → Nat → Port → UInt8 × Port)
    (hf : ∀ b n p, (func b n p).2 = p) : w.poll.port = (w.port.receiveStrManage func).2 := by
  unfold poll enter leave Port.receiveStrManage
  rw [h]
  by_cases hc : w.port.manageSwap.receiveCount = 0
  · simp [hc]
  · simp [hc, hf]

/-! ### Start-up -/

/-- A stream's registers and handle before they are initialised. -/
def resetDma : DmaHandle Addr where
  state := .reset
  lock := .unlocked
  errorCode := 0
  xferAbortCallback := .null
  en := false
  tcie := false
  tcif := false
  ndtr := 0
  m0ar := ⟨.user 0, 0⟩
  len := 0

/-- The zeroed global `STUsart`. -/
def resetPort (com : Com) : Port where
  com := com
  huart :=
    { gState := .reset, rxState := .reset, errorCode := 0, lock := .unlocked
      peie := false, tcie := false, eie := false, dmar := false, dmat := false
      hdmarx := resetDma, hdmatx := resetDma }
  receiveCount := 0
  buff := .buff1
  dmaBuff := .buff1
  bytes := fun _ _ => 0
  dmaReceiveCount := 0
  dmaReceiveSize := 0
  usartState := 0

/-- The port right after `com_init`. -/
def init (com : Com) : World where
  port := (resetPort com).comInit
  main := none
  stored := []
  passed := []
  wire := []
  accepted := []

/-- The state a run from `com_init` ends in. -/
def run (com : Com) (es : List Event) : World := es.foldl step (init com)

end World

end Stm32F4.Usart
