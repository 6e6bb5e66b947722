import Mathlib.Algebra.Order.Ring.Int
import Stm32F4.Ethernetif.Output
import Stm32F4.Ptp.Monitor
import Stm32F4.Ptp.Timer

/-! The data of a PTP port.

The types of `datatypes.h` under their own names, and the constants of `constants.h`. Octets are
`UInt8`, integers are words of their width, those of type `Integer…` read with a sign. The
indices of the table of foreign masters are natural numbers: its capacity is 5. The union
`msgTmp` is the announce message in it, the only one that is left there for later.

The default value of each type has all its octets zero, as the static data have it before the start.
-/
namespace Stm32F4.Ptp
open Ethernetif (Pbuf)

instance : Inhabited TimeInternal := ⟨⟨0, 0⟩⟩

/-! ### Messages -/

/-- `UInteger48` -/
structure UInteger48 where
  lsb : BitVec 32
  msb : BitVec 16
deriving DecidableEq, Inhabited

structure Timestamp where
  secondsField : UInteger48
  nanosecondsField : BitVec 32
deriving DecidableEq, Inhabited

abbrev ClockIdentity := Vector UInt8 8

structure PortIdentity where
  clockIdentity : ClockIdentity
  portNumber : BitVec 16
deriving DecidableEq, Inhabited

structure ClockQuality where
  clockClass : BitVec 8
  clockAccuracy : BitVec 8
  offsetScaledLogVariance : BitVec 16
deriving DecidableEq, Inhabited

structure MsgHeader where
  transportSpecific : BitVec 8
  messageType : BitVec 8
  versionPTP : BitVec 8
  messageLength : BitVec 16
  domainNumber : BitVec 8
  /-- `flagField[0]` -/
  flagField0 : BitVec 8
  /-- `flagField[1]` -/
  flagField1 : BitVec 8
  correctionfield : BitVec 64
  sourcePortIdentity : PortIdentity
  sequenceId : BitVec 16
  controlField : BitVec 8
  logMessageInterval : BitVec 8
deriving DecidableEq, Inhabited

structure MsgAnnounce where
  originTimestamp : Timestamp
  currentUtcOffset : BitVec 16
  grandmasterPriority1 : BitVec 8
  grandmasterClockQuality : ClockQuality
  grandmasterPriority2 : BitVec 8
  grandmasterIdentity : ClockIdentity
  stepsRemoved : BitVec 16
  timeSource : BitVec 8
deriving DecidableEq, Inhabited

structure MsgSync where
  originTimestamp : Timestamp
deriving DecidableEq, Inhabited

structure MsgDelayReq where
  originTimestamp : Timestamp
deriving DecidableEq, Inhabited

structure MsgFollowUp where
  preciseOriginTimestamp : Timestamp
deriving DecidableEq, Inhabited

structure MsgDelayResp where
  receiveTimestamp : Timestamp
  requestingPortIdentity : PortIdentity
deriving DecidableEq, Inhabited

structure MsgPDelayReq where
  originTimestamp : Timestamp
deriving DecidableEq, Inhabited

structure MsgPDelayResp where
  requestReceiptTimestamp : Timestamp
  requestingPortIdentity : PortIdentity
deriving DecidableEq, Inhabited

structure MsgPDelayRespFollowUp where
  responseOriginTimestamp : Timestamp
  requestingPortIdentity : PortIdentity
deriving DecidableEq, Inhabited

structure MsgManagement where
  ipaddr : BitVec 32
  toMasterOffset : Timestamp
deriving DecidableEq, Inhabited

def headerLength : Nat := 34
def announceLength : Nat := 64
def syncLength : Nat := 44
def followUpLength : Nat := 44
def pdelayReqLength : Nat := 54
def delayReqLength : Nat := 44
def delayRespLength : Nat := 54
def pdelayRespLength : Nat := 54
def pdelayRespFollowUpLength : Nat := 54
def managementLength : Nat := 48
def packetSize : Nat := 300

/-- The types of messages; their numbers are those of `toCode`. -/
inductive MessageType where
  | sync | delayReq | pdelayReq | pdelayResp | management
  | followUp | delayResp | pdelayRespFollowUp | announce
deriving DecidableEq, Repr, Inhabited

def MessageType.toCode : MessageType → BitVec 8
  | .sync => 0x0
  | .delayReq => 0x1
  | .pdelayReq => 0x2
  | .pdelayResp => 0x3
  | .management => 0x4
  | .followUp => 0x8
  | .delayResp => 0x9
  | .pdelayRespFollowUp => 0xa
  | .announce => 0xb

def ctrlSync : BitVec 8 := 0
def ctrlDelayReq : BitVec 8 := 1
def ctrlFollowUp : BitVec 8 := 2
def ctrlDelayResp : BitVec 8 := 3
def ctrlManagement : BitVec 8 := 4
def ctrlOther : BitVec 8 := 5

def flag0TwoStep : BitVec 8 := 0x02
def flag1Leap61 : BitVec 8 := 0x01
def flag1Leap59 : BitVec 8 := 0x02
def flag1UtcOffsetValid : BitVec 8 := 0x04
def flag1PtpTimescale : BitVec 8 := 0x08
def flag1TimeTraceable : BitVec 8 := 0x10
def flag1FrequencyTraceable : BitVec 8 := 0x20

/-- `getFlag`, of a flag field of any width. -/
def getFlag {w : Nat} (flagField mask : BitVec w) : Bool := flagField &&& mask == mask

/-! ### Data sets -/

/-- `PTP_INITIALIZING` to `PTP_SLAVE` -/
inductive PortState where
  | initializing | faulty | disabled | listening | preMaster | master | passive
  | uncalibrated | slave
deriving DecidableEq, Repr, Inhabited

inductive DelayMechanism where
  | e2e | p2p | delayDisabled
deriving DecidableEq, Repr, Inhabited

structure DefaultDS where
  twoStepFlag : Bool
  clockIdentity : ClockIdentity
  numberPorts : BitVec 16
  clockQuality : ClockQuality
  priority1 : BitVec 8
  priority2 : BitVec 8
  domainNumber : BitVec 8
  slaveOnly : Bool
deriving Inhabited

structure CurrentDS where
  stepsRemoved : BitVec 16
  offsetFromMaster : TimeInternal
  meanPathDelay : TimeInternal
deriving Inhabited

structure ParentDS where
  parentPortIdentity : PortIdentity
  parentStats : Bool
  observedParentOffsetScaledLogVariance : BitVec 16
  observedParentClockPhaseChangeRate : BitVec 32
  grandmasterIdentity : ClockIdentity
  grandmasterClockQuality : ClockQuality
  grandmasterPriority1 : BitVec 8
  grandmasterPriority2 : BitVec 8
deriving Inhabited

structure TimePropertiesDS where
  currentUtcOffset : BitVec 16
  currentUtcOffsetValid : Bool
  leap59 : Bool
  leap61 : Bool
  timeTraceable : Bool
  frequencyTraceable : Bool
  ptpTimescale : Bool
  timeSource : BitVec 8
deriving Inhabited

structure PortDS where
  portIdentity : PortIdentity
  portState : PortState
  logMinDelayReqInterval : BitVec 8
  peerMeanPathDelay : TimeInternal
  logAnnounceInterval : BitVec 8
  announceReceiptTimeout : BitVec 8
  logSyncInterval : BitVec 8
  delayMechanism : DelayMechanism
  logMinPdelayReqInterval : BitVec 8
  versionNumber : BitVec 8
deriving Inhabited

structure ForeignMasterRecord where
  foreignMasterPortIdentity : PortIdentity
  foreignMasterAnnounceMessages : BitVec 16
  announce : MsgAnnounce
  header : MsgHeader
deriving Inhabited

structure ForeignMasterDS where
  records : Nat → ForeignMasterRecord
  count : Nat
  capacity : Nat
  i : Nat
  best : Nat
deriving Inhabited

structure Filter where
  yPrev : BitVec 32
  ySum : BitVec 32
  s : BitVec 16
  sPrev : BitVec 16
  n : BitVec 32
deriving DecidableEq, Inhabited

structure Servo where
  noResetClock : Bool
  noAdjust : Bool
  ap : BitVec 16
  ai : BitVec 16
  sDelay : BitVec 16
  sOffset : BitVec 16
deriving Inhabited

structure RunTimeOpts where
  announceInterval : BitVec 8
  syncInterval : BitVec 8
  clockQuality : ClockQuality
  priority1 : BitVec 8
  priority2 : BitVec 8
  domainNumber : BitVec 8
  slaveOnly : Bool
  currentUtcOffset : BitVec 16
  inboundLatency : TimeInternal
  outboundLatency : TimeInternal
  maxForeignRecords : Nat
  delayMechanism : DelayMechanism
  servo : Servo
deriving Inhabited

/-- A queue of pbufs; `void *` is a chain of them. -/
structure BufQueue where
  pbuf : Nat → List Pbuf
  get : Nat
  put : Nat
  count : Nat
deriving Inhabited

structure NetPath where
  eventQ : BufQueue
  generalQ : BufQueue
deriving Inhabited

/-- `timers` is `itimer` and with it `elapsed_ms`. -/
structure PtpClock where
  defaultDS : DefaultDS
  currentDS : CurrentDS
  parentDS : ParentDS
  timePropertiesDS : TimePropertiesDS
  portDS : PortDS
  foreignMasterDS : ForeignMasterDS
  msgTmpHeader : MsgHeader
  msgTmp : MsgAnnounce
  msgObuf : Nat → UInt8
  msgIbuf : Nat → UInt8
  msgIbufLength : Nat
  tms : TimeInternal
  tsm : TimeInternal
  pdelayT1 : TimeInternal
  pdelayT2 : TimeInternal
  pdelayT3 : TimeInternal
  pdelayT4 : TimeInternal
  timestampSyncRecieve : TimeInternal
  timestampDelayReqSend : TimeInternal
  timestampDelayReqRecieve : TimeInternal
  correctionFieldSync : TimeInternal
  correctionFieldPDelayResp : TimeInternal
  sentPDelayReqSequenceId : BitVec 16
  sentDelayReqSequenceId : BitVec 16
  sentSyncSequenceId : BitVec 16
  sentAnnounceSequenceId : BitVec 16
  recvSyncSequenceId : BitVec 16
  waitingForFollowUp : Bool
  waitingForPDelayRespFollowUp : Bool
  ofmFilt : Filter
  owdFilt : Filter
  observedDrift : BitVec 32
  messageActivity : Bool
  timers : Timers
  netPath : NetPath
  recommendedState : PortState
  portUuidField : Vector UInt8 6
  inboundLatency : TimeInternal
  outboundLatency : TimeInternal
  servo : Servo
  events : BitVec 32
  rtOpts : RunTimeOpts
deriving Inhabited

end Stm32F4.Ptp
