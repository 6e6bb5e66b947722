import Mathlib
import Stm32F4.Hal.Dma

/-! The UART driver over two DMA streams.

The handle holds the driver's states, lock and error code, the control bits of
the peripheral that the driver switches (`CR1.PEIE`, `CR1.TCIE`, `CR3.EIE`,
`CR3.DMAR`, `CR3.DMAT`) and the handles of its two streams. The status register is
an input of the interrupt handler: `Sr` is what it shows at entry.

Left out: `RXNEIE` and `TXEIE`, which no call on the DMA path sets, with the two
interrupt branches they guard; the transfer counts of the interrupt-driven mode,
which nothing here reads; the weak callbacks that are empty in this program. -/
namespace Stm32F4.Hal

inductive UartState where
  | reset | ready | busy | busyTx | busyRx | busyTxRx | timeout | error
deriving DecidableEq, Repr

/-- The values of `HAL_UART_StateTypeDef`. -/
def UartState.code : UartState → BitVec 32
  | .reset => 0x00
  | .ready => 0x20
  | .busy => 0x24
  | .busyTx => 0x21
  | .busyRx => 0x22
  | .busyTxRx => 0x23
  | .timeout => 0xA0
  | .error => 0xE0

def halUartErrorNone : BitVec 32 := 0x00
def halUartErrorPe : BitVec 32 := 0x01
def halUartErrorNe : BitVec 32 := 0x02
def halUartErrorFe : BitVec 32 := 0x04
def halUartErrorOre : BitVec 32 := 0x08
def halUartErrorDma : BitVec 32 := 0x10

/-- The flags of the status register at the entry of an interrupt handler. -/
structure Sr where
  idle : Bool := false
  pe : Bool := false
  fe : Bool := false
  ne : Bool := false
  ore : Bool := false
  tc : Bool := false
deriving DecidableEq, Repr

/-- Some receive error is flagged. -/
def Sr.errors (sr : Sr) : Bool := sr.pe || sr.fe || sr.ore || sr.ne

structure UartHandle (α : Type) where
  gState : UartState
  rxState : UartState
  errorCode : BitVec 32
  lock : HalLock
  peie : Bool
  tcie : Bool
  eie : Bool
  dmar : Bool
  dmat : Bool
  hdmarx : DmaHandle α
  hdmatx : DmaHandle α

variable {α : Type}

/-- `HAL_UART_Init` on a handle that was never initialised: it also initialises the
two streams through `HAL_UART_MspInit`. -/
def halUartInit (u : UartHandle α) : UartHandle α :=
  let u := if u.gState = .reset then
      { u with lock := .unlocked, hdmatx := halDmaInit u.hdmatx, hdmarx := halDmaInit u.hdmarx }
    else u
  { u with errorCode := halUartErrorNone, gState := .ready, rxState := .ready }

def uartEndTxTransfer (u : UartHandle α) : UartHandle α :=
  { u with tcie := false, gState := .ready }

def uartEndRxTransfer (u : UartHandle α) : UartHandle α :=
  { u with peie := false, eie := false, rxState := .ready }

/-! ### Starting and stopping -/

def halUartTransmitDma (u : UartHandle α) (pData : Option α) (size : Nat) :
    HalStatus × UartHandle α :=
  if u.gState = .ready then
    match pData with
    | none => (.error, u)
    | some data =>
      if size = 0 then (.error, u)
      else if u.lock = .locked then (.busy, u)
      else
        (.ok, { u with
          errorCode := halUartErrorNone, gState := .busyTx
          hdmatx := (halDmaStartIt { u.hdmatx with xferAbortCallback := .null } data size).2
          lock := .unlocked, dmat := true })
  else (.busy, u)

/-- The status of `HAL_DMA_Start_IT` is not looked at. -/
def halUartReceiveDma (u : UartHandle α) (pData : Option α) (size : Nat) :
    HalStatus × UartHandle α :=
  if u.rxState = .ready then
    match pData with
    | none => (.error, u)
    | some data =>
      if size = 0 then (.error, u)
      else if u.lock = .locked then (.busy, u)
      else
        (.ok, { u with
          errorCode := halUartErrorNone, rxState := .busyRx
          hdmarx := (halDmaStartIt { u.hdmarx with xferAbortCallback := .null } data size).2
          lock := .unlocked, peie := true, eie := true, dmar := true })
  else (.busy, u)

/-- The first half of `HAL_UART_DMAStop`: a transmission under way is aborted. -/
def dmaStopTx (u : UartHandle α) : UartHandle α :=
  if u.gState = .busyTx ∧ u.dmat = true then
    uartEndTxTransfer { u with dmat := false, hdmatx := (halDmaAbort u.hdmatx).2 }
  else u

/-- The second half of `HAL_UART_DMAStop`: a reception under way is aborted. -/
def dmaStopRx (u : UartHandle α) : UartHandle α :=
  if u.rxState = .busyRx ∧ u.dmar = true then
    uartEndRxTransfer { u with dmar := false, hdmarx := (halDmaAbort u.hdmarx).2 }
  else u

def halUartDmaStop (u : UartHandle α) : UartHandle α := dmaStopRx (dmaStopTx u)

/-! ### Interrupts -/

def uartDmaTransmitCplt (u : UartHandle α) : UartHandle α := { u with dmat := false, tcie := true }

def uartEndTransmitIt (u : UartHandle α) : UartHandle α :=
  { u with tcie := false, gState := .ready }

/-- `UART_DMAReceiveCplt` up to its call of `HAL_UART_RxCpltCallback`. -/
def uartDmaReceiveCplt (u : UartHandle α) : UartHandle α :=
  { u with peie := false, eie := false, dmar := false, rxState := .ready }

/-- Apart from the transfer counts it only calls the empty error callback. -/
def uartDmaAbortOnError (u : UartHandle α) : UartHandle α := u

def uartDmaError (u : UartHandle α) : UartHandle α :=
  let u := if u.gState = .busyTx ∧ u.dmat = true then uartEndTxTransfer u else u
  let u := if u.rxState = .busyRx ∧ u.dmar = true then uartEndRxTransfer u else u
  { u with errorCode := u.errorCode ||| halUartErrorDma }

/-- The error code after the flags whose interrupts are enabled have been added to it. -/
def reportedErrors (sr : Sr) (u : UartHandle α) : BitVec 32 :=
  u.errorCode ||| (if sr.pe && u.peie then halUartErrorPe else 0)
    ||| (if sr.ne && u.eie then halUartErrorNe else 0)
    ||| (if sr.fe && u.eie then halUartErrorFe else 0)
    ||| (if sr.ore && u.eie then halUartErrorOre else 0)

/-- A blocking error: reception is ended, and if it went through the DMA the stream
is told to abort without waiting for it. -/
def abortOnError (u : UartHandle α) : UartHandle α :=
  let u := uartEndRxTransfer u
  if u.dmar then
    let r := halDmaAbortIt { u.hdmarx with xferAbortCallback := .uartDmaAbortOnError }
    let u := { u with dmar := false, hdmarx := r.2 }
    if r.1 ≠ .ok then uartDmaAbortOnError u else u
  else u

def halUartIrqHandler (sr : Sr) (u : UartHandle α) : UartHandle α :=
  if sr.errors && (u.eie || u.peie) then
    let u := { u with errorCode := reportedErrors sr u }
    if u.errorCode ≠ halUartErrorNone then
      if u.errorCode &&& halUartErrorOre ≠ 0 ∨ u.dmar = true then abortOnError u
      else { u with errorCode := halUartErrorNone }
    else u
  else if sr.tc && u.tcie then uartEndTransmitIt u
  else u

/-! ### State -/

/-- The two states, or-ed. -/
def halUartGetState (u : UartHandle α) : BitVec 32 := u.gState.code ||| u.rxState.code

end Stm32F4.Hal
