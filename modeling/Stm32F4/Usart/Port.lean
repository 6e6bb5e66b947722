import Stm32F4.Hal.Uart

/-! One serial port: `STUsart` and everything that works on it.

A port owns two arrays, `buff1` and `buff2`. `buff` points to the one the user
works on, `dmaBuff` to the one the receive stream fills. `dmaReceiveCount` bytes of
the latter are accounted for, and the stream was last armed for `dmaReceiveSize`
bytes behind them. The six ports run the same code on their own `STUsart`; the
definitions here are that code for one port.

`uint16_t` and `uint8_t` values are natural numbers, reduced where the source
stores them. The interrupt handlers and `receive_str_manage` end with the same call
of `HAL_UART_Receive_DMA`; what comes before it is kept apart (`idlePrepare`,
`rxCpltPrepare`, `swapPrepare`), together with the offset the call is made at. -/
namespace Stm32F4.Usart
open Hal

def usartReceiveMax : Nat := 50

theorem usartReceiveMax_pos : 0 < usartReceiveMax := by decide

/-! ### Machine arithmetic -/

def u8 (n : Nat) : Nat := n % 2 ^ 8
def u16 (n : Nat) : Nat := n % 2 ^ 16
/-- Subtraction of `uint32_t` values. -/
def subU32 (a b : Nat) : Nat := (a + 2 ^ 32 - b) % 2 ^ 32

/-! ### Addresses -/

inductive Com where
  | usart1 | usart2 | usart3 | usart4 | usart5 | usart6
deriving DecidableEq, Repr

/-- The two arrays of a port. -/
inductive Buf where
  | buff1 | buff2
deriving DecidableEq, Repr

/-- A receive array of some port, or memory of the application. -/
inductive Region where
  | buff (com : Com) (b : Buf)
  | user (id : Nat)
deriving DecidableEq, Repr

structure Addr where
  region : Region
  off : Nat
deriving DecidableEq, Repr

def Addr.add (a : Addr) (n : Nat) : Addr := { a with off := a.off + n }

structure Port where
  com : Com
  /-- `USART_Handler`, with `DMA_RX_Handler` and `DMA_TX_Handler` linked to it -/
  huart : UartHandle Addr
  receiveCount : Nat
  buff : Buf
  dmaBuff : Buf
  /-- the contents of `buff1` and `buff2` -/
  bytes : Buf → Nat → UInt8
  dmaReceiveCount : Nat
  dmaReceiveSize : Nat
  usartState : BitVec 8

namespace Port

/-- `DMA_RX_Handler.Instance->NDTR` -/
def ndtr (p : Port) : Nat := p.huart.hdmarx.ndtr

def addr (p : Port) (b : Buf) (i : Nat) : Addr := ⟨.buff p.com b, i⟩

/-! The bits of `USART_State`. -/

/-- bit 0: the user buffer is being processed -/
def processing (p : Port) : Bool := p.usartState.getLsbD 0
/-- bit 1: the user buffer has been processed -/
def processed (p : Port) : Bool := p.usartState.getLsbD 1
/-- bit 2: while it was being processed the DMA buffer filled up -/
def refilled (p : Port) : Bool := p.usartState.getLsbD 2
/-- bit 3: there is data in the DMA buffer, an exchange is wanted -/
def waiting (p : Port) : Bool := p.usartState.getLsbD 3

/-! ### The receive path -/

def swapBuffers (p : Port) : Port := { p with dmaBuff := p.buff, buff := p.dmaBuff }

/-- The final `HAL_UART_Receive_DMA(&huart, DMA_buff + buff_shift, _DMA_Receive_Size)`. -/
def rearm (r : Port × Nat) : HalStatus × Port :=
  let s := halUartReceiveDma r.1.huart (some (r.1.addr r.1.dmaBuff r.2)) r.1.dmaReceiveSize
  (s.1, { r.1 with huart := s.2 })

def comInit (p : Port) : Port :=
  let p := { p with huart := halUartInit p.huart }
  let p := { p with
    buff := .buff1, dmaReceiveSize := usartReceiveMax, usartState := p.usartState ||| 0x2
    dmaBuff := .buff2 }
  (rearm (p, 0)).2

/-- The IDLE branch of the interrupt handler, up to the re-arming. -/
def idlePrepare (p : Port) : Port × Nat :=
  let p := { p with dmaReceiveCount := u16 (p.dmaReceiveCount + subU32 p.dmaReceiveSize p.ndtr) }
  let p := { p with huart := halUartDmaStop p.huart }
  if p.usartState &&& 0x2 ≠ 0 then
    let p := p.swapBuffers
    let p := { p with dmaReceiveSize := usartReceiveMax, usartState := p.usartState &&& ~~~0x2 }
    let p := { p with receiveCount := p.dmaReceiveCount, dmaReceiveCount := 0 }
    ({ p with usartState := p.usartState &&& ~~~0x8 }, 0)
  else
    let buffShift := u8 p.dmaReceiveCount
    let p := { p with dmaReceiveSize := u16 (subU32 usartReceiveMax buffShift) }
    ({ p with usartState := p.usartState ||| 0x8 }, buffShift)

def idleBranch (p : Port) : Port := (rearm (idlePrepare p)).2

/-- `USARTx_IRQHandler`, entered with the status register showing `sr`. -/
def usartIrqHandler (sr : Sr) (p : Port) : Port :=
  let p := { p with huart := halUartIrqHandler sr p.huart }
  if sr.idle then idleBranch p else p

/-- `HAL_UART_RxCpltCallback`, up to the re-arming: the buffers are exchanged whether
or not the user buffer has been processed. -/
def rxCpltPrepare (p : Port) : Port × Nat :=
  let p := { p with dmaReceiveCount := u16 (p.dmaReceiveCount + p.dmaReceiveSize) }
  let p := p.swapBuffers
  let p := { p with
    receiveCount := p.dmaReceiveCount, dmaReceiveSize := usartReceiveMax, dmaReceiveCount := 0 }
  let p := if p.usartState &&& 0x1 ≠ 0 then { p with usartState := p.usartState ||| 0x4 } else p
  ({ p with usartState := p.usartState &&& ~~~0x2 }, 0)

def halUartRxCpltCallback (p : Port) : Port := (rearm (rxCpltPrepare p)).2

/-- The receive stream's place in the port. -/
def dmaRx : DmaClient Port Addr where
  hdma p := p.huart.hdmarx
  setHdma h p := { p with huart := { p.huart with hdmarx := h } }
  xferCplt p := halUartRxCpltCallback { p with huart := uartDmaReceiveCplt p.huart }
  xferAbort p := { p with huart := uartDmaAbortOnError p.huart }
  xferError p := { p with huart := uartDmaError p.huart }

/-- The interrupt handler of the receive stream. -/
def dmaRxIrqHandler (p : Port) : Port := halDmaIrqHandler dmaRx p

/-! ### `receive_str_manage` -/

/-- The exchange in the main loop, up to the re-arming. -/
def swapPrepare (p : Port) : Port × Nat :=
  let p := { p with huart := halUartDmaStop p.huart }
  let p := p.swapBuffers
  let p := { p with dmaReceiveSize := usartReceiveMax, usartState := p.usartState &&& ~~~0x2 }
  let p := { p with receiveCount := p.dmaReceiveCount, dmaReceiveCount := 0 }
  ({ p with usartState := p.usartState &&& ~~~0x8 }, 0)

/-- The exchange is made: the user buffer is processed, the DMA buffer has data, and
nothing has arrived since it was armed. -/
def swaps (p : Port) : Bool := p.usartState &&& 0xA == 0xA && p.dmaReceiveSize == p.ndtr

def manageSwap (p : Port) : Port := if p.swaps then (rearm (swapPrepare p)).2 else p

def manageBusy (p : Port) : Port := { p with usartState := p.usartState ||| 0x1 }

/-- What follows the return of `com->func`. -/
def manageFinish (p : Port) : Port :=
  let p := if p.usartState &&& 0x4 ≠ 0 then { p with usartState := p.usartState &&& ~~~0x4 }
    else { p with receiveCount := 0, usartState := p.usartState ||| 0x2 }
  { p with usartState := p.usartState &&& ~~~0x1 }

/-- `func` stands for `com->func` and for whatever happens to the port while it runs. -/
def receiveStrManage (func : Buf → Nat → Port → UInt8 × Port) (p : Port) : UInt8 × Port :=
  let p := p.manageSwap
  if p.receiveCount ≠ 0 then
    let r := func p.buff p.receiveCount p.manageBusy
    (r.1, r.2.manageFinish)
  else (0, p)

/-! ### The transmit path -/

/-- `Timeout`, in ticks. -/
def timeout : BitVec 32 := 10

/-- What a pass of the loop at the top of the three senders comes to. -/
inductive Guard where
  | wait | timeout | pass
deriving DecidableEq, Repr

/-- One pass, `waited` ticks after the call. -/
def busyTxLoop (waited : BitVec 32) (p : Port) : Guard :=
  if halUartGetState p.huart = UartState.busyTx.code then
    if waited > timeout then .timeout else .wait
  else .pass

/-- One pass of the loop in `com_send_str` with what follows it: `none`, the call goes on
waiting. -/
def comSendStr (waited : BitVec 32) (str : Option Addr) (len : Nat) (p : Port) :
    Option HalStatus × Port :=
  match p.busyTxLoop waited with
  | .wait => (none, p)
  | .timeout => (some .timeout, p)
  | .pass =>
    let r := halUartTransmitDma p.huart str len
    (some r.1, { p with huart := r.2 })

/-- The transmit stream's place in the port. -/
def dmaTx : DmaClient Port Addr where
  hdma p := p.huart.hdmatx
  setHdma h p := { p with huart := { p.huart with hdmatx := h } }
  xferCplt p := { p with huart := uartDmaTransmitCplt p.huart }
  xferAbort p := { p with huart := uartDmaAbortOnError p.huart }
  xferError p := { p with huart := uartDmaError p.huart }

/-- The interrupt handler of the transmit stream. -/
def dmaTxIrqHandler (p : Port) : Port := halDmaIrqHandler dmaTx p

/-! ### What the streams do -/

/-- A store of the receive stream into one of the port's arrays; elsewhere it does
not touch the port. -/
def write (p : Port) (a : Addr) (b : UInt8) : Buf → Nat → UInt8 :=
  match a.region with
  | .buff com x =>
    if com = p.com then Function.update p.bytes x (Function.update (p.bytes x) a.off b) else p.bytes
  | .user _ => p.bytes

/-- Where the receive stream stores its next byte. -/
def rxTarget (p : Port) : Addr := p.huart.hdmarx.m0ar.add p.huart.hdmarx.pos

/-- The receive stream is running and the port's requests reach it. -/
def armed (p : Port) : Bool := p.huart.hdmarx.en && p.huart.dmar

/-- A byte has been received: the stream stores it if it is armed. -/
def rxDmaStore (b : UInt8) (p : Port) : Option Port :=
  if p.armed then
    some { p with
      bytes := p.write p.rxTarget b
      huart := { p.huart with hdmarx := p.huart.hdmarx.transfer } }
  else none

/-- The transmit stream fetches its next byte and hands it to the data register. -/
def txDmaRead (p : Port) : Option (Addr × Port) :=
  if p.huart.hdmatx.en && p.huart.dmat then
    some (p.huart.hdmatx.m0ar.add p.huart.hdmatx.pos,
      { p with huart := { p.huart with hdmatx := p.huart.hdmatx.transfer } })
  else none

end Port

end Stm32F4.Usart
