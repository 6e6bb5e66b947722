import Mathlib.Logic.Function.Basic

/-! One DMA stream and the driver calls on its handle.

A handle carries the driver's own fields (state, lock, error code, the abort
callback) and the registers of its stream: enable, the transfer-complete
interrupt enable and flag, the down-counter `NDTR`, and the memory address
together with the length `NDTR` was programmed with. Addresses are of any type;
the peripheral side of a transfer is always the data register.

Left out: half-transfer and error interrupts. The half-transfer callbacks only
call empty weak functions, and no bus, FIFO or direct-mode error is modelled. The
wait loops on `EN` end at once, since a stream is disabled as soon as the item in
flight is done. -/
namespace Stm32F4.Hal

inductive HalStatus where
  | ok | error | busy | timeout
deriving DecidableEq, Repr

inductive HalLock where
  | unlocked | locked
deriving DecidableEq, Repr

inductive DmaState where
  | reset | ready | busy | timeout | error | abort
deriving DecidableEq, Repr

/-- The abort callbacks a stream's handle is given. -/
inductive XferAbortCallback where
  | null | uartDmaAbortOnError
deriving DecidableEq, Repr

def halDmaErrorNone : BitVec 32 := 0x00
def halDmaErrorNoXfer : BitVec 32 := 0x80

structure DmaHandle (α : Type) where
  state : DmaState
  lock : HalLock
  errorCode : BitVec 32
  xferAbortCallback : XferAbortCallback
  /-- `CR.EN` -/
  en : Bool
  /-- `CR.TCIE` -/
  tcie : Bool
  /-- the transfer-complete flag in `ISR` -/
  tcif : Bool
  ndtr : Nat
  m0ar : α
  /-- what `NDTR` was programmed with when the stream was last started -/
  len : Nat

variable {α : Type}

namespace DmaHandle

/-! ### The stream -/

/-- Where the next item of the transfer goes, relative to `M0AR`. -/
def pos (h : DmaHandle α) : Nat := h.len - h.ndtr

/-- One item is transferred: the counter goes down by one, and at zero the stream
stops and raises its flag. -/
def transfer (h : DmaHandle α) : DmaHandle α :=
  { h with ndtr := h.ndtr - 1, en := h.en && h.ndtr != 1, tcif := h.tcif || h.ndtr == 1 }

/-- The counter, the address and the programmed length. -/
def window (h : DmaHandle α) : Nat × α × Nat := (h.ndtr, h.m0ar, h.len)

/-- The transfer-complete interrupt is raised. -/
def pending (h : DmaHandle α) : Bool := h.tcif && h.tcie

/-- Clearing `EN` on a running stream raises the transfer-complete flag. -/
def disable (h : DmaHandle α) : DmaHandle α := { h with en := false, tcif := h.tcif || h.en }

end DmaHandle

/-! ### Driver calls -/

def halDmaInit (h : DmaHandle α) : DmaHandle α :=
  { h with
    state := .ready, lock := .unlocked, errorCode := halDmaErrorNone, en := false, tcif := false }

/-- The lock stays taken while the transfer runs. -/
def halDmaStartIt (h : DmaHandle α) (address : α) (dataLength : Nat) : HalStatus × DmaHandle α :=
  if h.lock = .locked then (.busy, h)
  else if h.state = .ready then
    (.ok, { h with
      lock := .locked, state := .busy, errorCode := halDmaErrorNone
      ndtr := dataLength, m0ar := address, len := dataLength
      tcif := false, tcie := true, en := true })
  else (.busy, { h with lock := .unlocked })

def halDmaAbort (h : DmaHandle α) : HalStatus × DmaHandle α :=
  if h.state ≠ .busy then
    (.error, { h with errorCode := halDmaErrorNoXfer, lock := .unlocked })
  else
    (.ok, { h with tcie := false, en := false, tcif := false, lock := .unlocked, state := .ready })

/-- The abort is only started: the stream's interrupt completes it. -/
def halDmaAbortIt (h : DmaHandle α) : HalStatus × DmaHandle α :=
  if h.state ≠ .busy then (.error, { h with errorCode := halDmaErrorNoXfer })
  else (.ok, { h.disable with state := .abort })

/-- How a peripheral driver hangs on a stream: where the handle sits in the
driver's state, and what its callbacks do. -/
structure DmaClient (σ α : Type) where
  hdma : σ → DmaHandle α
  setHdma : DmaHandle α → σ → σ
  xferCplt : σ → σ
  xferAbort : σ → σ
  xferError : σ → σ

/-- The end of the interrupt handler: an error code left in the handle is reported. -/
def reportError {σ : Type} (c : DmaClient σ α) (s : σ) : σ :=
  if (c.hdma s).errorCode ≠ halDmaErrorNone then c.xferError s else s

def halDmaIrqHandler {σ : Type} (c : DmaClient σ α) (s : σ) : σ :=
  let h := c.hdma s
  if h.pending then
    let s := c.setHdma { h with tcif := false, tcie := false, lock := .unlocked, state := .ready } s
    if h.state = .abort then
      if h.xferAbortCallback = .null then s else c.xferAbort s
    else reportError c (c.xferCplt s)
  else reportError c s

end Stm32F4.Hal
