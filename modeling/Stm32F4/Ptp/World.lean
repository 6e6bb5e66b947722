import Mathlib.Algebra.Order.Ring.Int
import Stm32F4.Ptp.Arith
import Stm32F4.Ptp.Bmc
import Stm32F4.Ptp.Net
import Stm32F4.Ptp.Pcb

/-! The port and what is around it.

Everything that the code asks others for is given in advance: the readings of the clock, the numbers
`rand` returns, whether a datagram can be sent, what a start of the network meets, and what is in
variables that have not been set. Each question takes the next answer. What the code asks others to
do is noted: datagrams, calls to the clock, and reports for the monitor table. -/
namespace Stm32F4.Ptp

/-- The answers, in the order of the questions. -/
structure Env where
  /-- `getTime` -/
  time : Nat → TimeInternal
  /-- `rand` -/
  rand : Nat → BitVec 32
  /-- Is the datagram sent? -/
  sends : Nat → Bool
  starts : Nat → Attempt
  /-- `ETH->PTPTSHR` -/
  ptptshr : Nat → BitVec 32
  unsetTimestamp : Nat → Timestamp
  unsetTime : Nat → TimeInternal
deriving Inhabited

inductive MessagePort where
  | event | general
deriving DecidableEq

/-- A datagram the port has tried to send, to all others or just to its peer. -/
structure Datagram where
  port : MessagePort
  peer : Bool
  buf : Nat → UInt8
  length : Nat
  sent : Bool

inductive ClockCall where
  | adjFreq (adj : BitVec 32)
  | setTime (t : TimeInternal)
deriving DecidableEq

/-- A call of `ptp_unpack_control`, with the time in `ETH->PTPTSHR`. -/
structure ControlCall where
  p : TimeInternal
  ipaddr : BitVec 32
  ptptshr : BitVec 32
deriving DecidableEq

/-- `ipaddr` and `hwaddr` are the addresses of the interface. -/
structure World where
  clock : PtpClock
  pcbs : Pcbs
  ipaddr : BitVec 32
  hwaddr : Vector UInt8 6
  env : Env
  datagrams : List Datagram
  clockCalls : List ClockCall
  controlCalls : List ControlCall

/-- The answers but for the first. -/
def rest {α : Type*} (s : Nat → α) : Nat → α := fun n => s (n + 1)

def adjFreqMax : BitVec 32 := 512000

/-- `pow2ms(a)` -/
def pow2ms (a : Int) : BitVec 32 :=
  if a > 0 then (1000 : BitVec 32) <<< a.toNat else (1000 : BitVec 32) >>> (-a).toNat

/-! ### The system -/

def getTime (w : World) : TimeInternal × World :=
  (w.env.time 0, { w with env := { w.env with time := rest w.env.time } })

def setTime (t : TimeInternal) (w : World) : World :=
  { w with clockCalls := w.clockCalls ++ [.setTime t] }

def adjFreq (adj : BitVec 32) (w : World) : World :=
  let adj :=
    if adjFreqMax.slt adj then adjFreqMax
    else if adj.slt (-adjFreqMax) then -adjFreqMax else adj
  { w with clockCalls := w.clockCalls ++ [.adjFreq adj] }

def getRand (randMax : BitVec 32) (w : World) : BitVec 32 × World :=
  (w.env.rand 0 % randMax, { w with env := { w.env with rand := rest w.env.rand } })

/-- A variable of type `Timestamp` that has not been set. -/
def unsetTimestamp (w : World) : Timestamp × World :=
  (w.env.unsetTimestamp 0,
    { w with env := { w.env with unsetTimestamp := rest w.env.unsetTimestamp } })

def unsetTime (w : World) : TimeInternal × World :=
  (w.env.unsetTime 0, { w with env := { w.env with unsetTime := rest w.env.unsetTime } })

def ptpUnpackControlCall (p : TimeInternal) (ipaddr : BitVec 32) (w : World) : World :=
  { w with
    env := { w.env with ptptshr := rest w.env.ptptshr }
    controlCalls := w.controlCalls ++ [⟨p, ipaddr, w.env.ptptshr 0⟩] }

/-! ### Timers -/

def stopTimer (index : Nat) (w : World) : World :=
  { w with clock := { w.clock with timers := timerStop index w.clock.timers } }

def startTimer (index : Nat) (intervalMs : BitVec 32) (w : World) : World :=
  { w with clock := { w.clock with timers := timerStart index intervalMs w.clock.timers } }

def expired (index : Nat) (w : World) : Bool × World :=
  let (timers, expired) := timerExpired index w.clock.timers
  (expired, { w with clock := { w.clock with timers := timers } })

/-! ### The network -/

/-- `findIface` and the rest of `netInit`. -/
def World.netInit (w : World) : Bool × World :=
  let (pcbs, ok) := Ptp.netInit (w.env.starts 0) w.pcbs
  let c := { w.clock with portUuidField := w.hwaddr }
  let c :=
    if ok then { c with netPath := ⟨netQInit c.netPath.eventQ, netQInit c.netPath.generalQ⟩ } else c
  (ok, { w with pcbs := pcbs, clock := c, env := { w.env with starts := rest w.env.starts } })

def netSelect (w : World) : Bool :=
  netQCheck w.clock.netPath.eventQ || netQCheck w.clock.netPath.generalQ

def netEmptyEventQ (w : World) : World :=
  { w with clock := { w.clock with netPath := { w.clock.netPath with
    eventQ := (netQEmpty w.clock.netPath.eventQ).1 } } }

/-- `netSend` with no variable for the time. It returns the length whether or not it has sent the
datagram. -/
def netSend (port : MessagePort) (peer : Bool) (length : Nat) (w : World) : Bool × World :=
  let sent := w.env.sends 0
  (sent, { w with
    env := { w.env with sends := rest w.env.sends }
    datagrams := w.datagrams ++ [⟨port, peer, w.clock.msgObuf, length, sent⟩] })

/-- `netSend` with a variable for the time, which is set if the datagram is sent. -/
def netSendTimed (port : MessagePort) (peer : Bool) (length : Nat) (time : TimeInternal)
    (w : World) :
    TimeInternal × World :=
  let (sent, w) := netSend port peer length w
  if sent then getTime w else (time, w)

def netSendEvent (length : Nat) (time : TimeInternal) (w : World) : TimeInternal × World :=
  netSendTimed .event false length time w

def netSendGeneral (length : Nat) (w : World) : World := (netSend .general false length w).2

def netSendPeerGeneral (length : Nat) (w : World) : World := (netSend .general true length w).2

/-- A datagram from one of the queues, with the time it is taken out. -/
def World.netRecv (port : MessagePort) (time : TimeInternal) (w : World) : TimeInternal × World :=
  let c := w.clock
  let r :=
    match port with
    | .event => netRecvEvent c.netPath c.msgIbuf
    | .general => netRecvGeneral c.netPath c.msgIbuf
  let netPath :=
    match port with
    | .event => { c.netPath with eventQ := r.queue }
    | .general => { c.netPath with generalQ := r.queue }
  let w :=
    { w with clock := { c with netPath := netPath, msgIbuf := r.buf, msgIbufLength := r.length } }
  if r.timed then getTime w else (time, w)

def netSendPeerEvent (length : Nat) (time : TimeInternal) (w : World) : TimeInternal × World :=
  netSendTimed .event true length time w

end Stm32F4.Ptp
