import Mathlib.Algebra.Order.Ring.Int
import Stm32F4.Ptp.Foreign
import Stm32F4.Ptp.Msg
import Stm32F4.Ptp.Servo

/-! The protocol engine.

`protocol.c` function by function, the state machine of a port: `toState` leaves a state and enters
another one, `doState` looks for a better master, follows the recommended state and handles one
message as the state has it. Sending never fails as far as the code can see, `netSend` returns the
length in any case, so the transitions to `PTP_FAULTY` behind it are never taken and are left
out. -/
namespace Stm32F4.Ptp

/-! ### States -/

/-- `DEFAULT_QUALIFICATION_TIMEOUT` -/
def defaultQualificationTimeout : Int := -9

/-- The interval of the announce receipt timer. -/
def announceReceiptInterval (c : PtpClock) : BitVec 32 :=
  c.portDS.announceReceiptTimeout.setWidth 32 * pow2ms c.portDS.logAnnounceInterval.toInt

/-- Starts the timer with a random interval below `max`. -/
def startRandom (index : Nat) (max : BitVec 32) (w : World) : World :=
  let (interval, w) := getRand max w
  startTimer index interval w

/-- Leaving `portState`, for `state`. -/
def leaveState (state : PortState) (w : World) : World :=
  match w.clock.portDS.portState with
  | .master =>
    stopTimer pdelayreqIntervalTimer
      (stopTimer announceIntervalTimer (stopTimer syncIntervalTimer (initClock w)))
  | .uncalibrated | .slave =>
    if state = .uncalibrated ∨ state = .slave then w
    else
      let w := stopTimer managementIntervalTimer (stopTimer announceReceiptTimer w)
      let w :=
        match w.clock.portDS.delayMechanism with
        | .e2e => stopTimer delayreqIntervalTimer w
        | .p2p => stopTimer pdelayreqIntervalTimer w
        | .delayDisabled => w
      initClock w
  | .passive => stopTimer announceReceiptTimer (stopTimer pdelayreqIntervalTimer (initClock w))
  | .listening => stopTimer announceReceiptTimer (initClock w)
  | .preMaster => stopTimer qualificationTimeout (initClock w)
  | _ => w

def setState (state : PortState) (w : World) : World :=
  { w with clock := { w.clock with portDS := { w.clock.portDS with portState := state } } }

def recommend (state : PortState) (w : World) : World :=
  { w with clock := { w.clock with recommendedState := state } }

def enterState (state : PortState) (w : World) : World :=
  match state with
  | .initializing => recommend .initializing (setState .initializing w)
  | .faulty => setState .faulty w
  | .disabled => setState .disabled w
  | .listening =>
    recommend .listening
      (setState .listening (startTimer announceReceiptTimer (announceReceiptInterval w.clock) w))
  | .preMaster =>
    setState .preMaster (startTimer qualificationTimeout (pow2ms defaultQualificationTimeout) w)
  | .master =>
    let w := { w with clock := { w.clock with portDS := { w.clock.portDS with
      logMinDelayReqInterval := defaultDelayreqInterval } } }
    let w := startTimer syncIntervalTimer (pow2ms w.clock.portDS.logSyncInterval.toInt) w
    let w := startTimer announceIntervalTimer (pow2ms w.clock.portDS.logAnnounceInterval.toInt) w
    let w :=
      match w.clock.portDS.delayMechanism with
      | .p2p =>
        startRandom pdelayreqIntervalTimer
          (pow2ms w.clock.portDS.logMinPdelayReqInterval.toInt + 1) w
      | _ => w
    setState .master w
  | .passive =>
    let w := startTimer announceReceiptTimer (announceReceiptInterval w.clock) w
    let w :=
      match w.clock.portDS.delayMechanism with
      | .p2p =>
        startRandom pdelayreqIntervalTimer
          (pow2ms (w.clock.portDS.logMinPdelayReqInterval.toInt + 1)) w
      | _ => w
    setState .passive w
  | .uncalibrated =>
    let w := startTimer announceReceiptTimer (announceReceiptInterval w.clock) w
    let w :=
      match w.clock.portDS.delayMechanism with
      | .e2e =>
        startRandom delayreqIntervalTimer
          (pow2ms (w.clock.portDS.logMinDelayReqInterval.toInt + 1)) w
      | .p2p =>
        startRandom pdelayreqIntervalTimer
          (pow2ms (w.clock.portDS.logMinPdelayReqInterval.toInt + 1)) w
      | .delayDisabled => w
    setState .uncalibrated w
  | .slave => startTimer managementIntervalTimer 1000 (setState .slave w)

def toState (state : PortState) (w : World) : World :=
  enterState state (leaveState state { w with clock := { w.clock with messageActivity := true } })

def doInit (w : World) : Bool × World :=
  let (ok, w) := World.netInit { w with pcbs := netShutdown w.pcbs }
  if !ok then (false, w)
  else
    let c := initData w.clock
    let w := initClock { w with clock := { c with timers := initTimer c.timers } }
    let c := m1 w.clock
    (true, { w with clock := { c with msgObuf := msgPackHeader c c.msgObuf } })

/-! ### Sending -/

/-- Puts a message into the output buffer. -/
def pack (f : PtpClock → (Nat → UInt8) → Nat → UInt8) (w : World) : World :=
  { w with clock := { w.clock with msgObuf := f w.clock w.clock.msgObuf } }

/-- `fromInternalTime` into a variable that has not been set. -/
def toTimestamp (t : TimeInternal) (w : World) : Timestamp × World :=
  let (unset, w) := unsetTimestamp w
  (fromInternalTime t unset, w)

def issueAnnounce (w : World) : World :=
  let w := netSendGeneral announceLength (pack msgPackAnnounce w)
  { w with clock := { w.clock with sentAnnounceSequenceId := w.clock.sentAnnounceSequenceId + 1 } }

def issueFollowup (time : TimeInternal) (w : World) : World :=
  let (preciseOriginTimestamp, w) := toTimestamp time w
  netSendGeneral followUpLength (pack (msgPackFollowUp · · preciseOriginTimestamp) w)

def issueSync (w : World) : World :=
  let (internalTime, w) := getTime w
  let (originTimestamp, w) := toTimestamp internalTime w
  let (internalTime, w) :=
    netSendEvent syncLength internalTime (pack (msgPackSync · · originTimestamp) w)
  let w := { w with clock := { w.clock with sentSyncSequenceId := w.clock.sentSyncSequenceId + 1 } }
  if internalTime.seconds ≠ 0 ∧ w.clock.defaultDS.twoStepFlag then
    issueFollowup (addTime internalTime w.clock.outboundLatency) w
  else w

def issueDelayReq (w : World) : World :=
  let (internalTime, w) := getTime w
  let (originTimestamp, w) := toTimestamp internalTime w
  let (internalTime, w) :=
    netSendEvent delayReqLength internalTime (pack (msgPackDelayReq · · originTimestamp) w)
  let w :=
    { w with
      clock := { w.clock with sentDelayReqSequenceId := w.clock.sentDelayReqSequenceId + 1 } }
  if internalTime.seconds ≠ 0 then
    { w with
      clock :=
        { w.clock with timestampDelayReqSend := addTime internalTime w.clock.outboundLatency } }
  else w

def issuePDelayReq (w : World) : World :=
  let (internalTime, w) := getTime w
  let (originTimestamp, w) := toTimestamp internalTime w
  let (internalTime, w) :=
    netSendPeerEvent pdelayReqLength internalTime (pack (msgPackPDelayReq · · originTimestamp) w)
  let w :=
    { w with
      clock := { w.clock with sentPDelayReqSequenceId := w.clock.sentPDelayReqSequenceId + 1 } }
  if internalTime.seconds ≠ 0 then
    { w with clock := { w.clock with pdelayT1 := addTime internalTime w.clock.outboundLatency } }
  else w

/-- The time is that of sending afterwards. -/
def issuePDelayResp (time : TimeInternal) (pDelayReqHeader : MsgHeader) (w : World) :
    TimeInternal × World :=
  let (requestReceiptTimestamp, w) := toTimestamp time w
  let w := pack (fun _ buf => msgPackPDelayResp buf pDelayReqHeader requestReceiptTimestamp) w
  let (time, w) := netSendPeerEvent pdelayRespLength time w
  (if time.seconds ≠ 0 then addTime time w.clock.outboundLatency else time, w)

def issueDelayResp (time : TimeInternal) (delayReqHeader : MsgHeader) (w : World) : World :=
  let (requestReceiptTimestamp, w) := toTimestamp time w
  netSendGeneral pdelayRespLength
    (pack (msgPackDelayResp · · delayReqHeader requestReceiptTimestamp) w)

def issuePDelayRespFollowUp (time : TimeInternal) (pDelayReqHeader : MsgHeader)
    (w : World) : World :=
  let (responseOriginTimestamp, w) := toTimestamp time w
  let w :=
    pack (fun _ buf => msgPackPDelayRespFollowUp buf pDelayReqHeader responseOriginTimestamp) w
  netSendPeerGeneral pdelayRespFollowUpLength w

def issueManagement (w : World) : World :=
  let (offset, w) := unsetTimestamp w
  let o := w.clock.currentDS.offsetFromMaster
  let offset : Timestamp := ⟨{ offset.secondsField with lsb := o.seconds }, o.nanoseconds⟩
  netSendGeneral managementLength (pack (fun _ buf => msgPackManagement buf offset w.ipaddr) w)

def issueDelayReqTimerExpired (w : World) : World :=
  match w.clock.portDS.delayMechanism with
  | .e2e =>
    if w.clock.portDS.portState ≠ .slave then w
    else
      let (due, w) := expired delayreqIntervalTimer w
      if due then
        let max := pow2ms (w.clock.portDS.logMinDelayReqInterval.toInt + 1)
        issueDelayReq (startRandom delayreqIntervalTimer max w)
      else w
  | .p2p =>
    let (due, w) := expired pdelayreqIntervalTimer w
    if due then
      let max := pow2ms (w.clock.portDS.logMinPdelayReqInterval.toInt + 1)
      issuePDelayReq (startRandom pdelayreqIntervalTimer max w)
    else w
  | .delayDisabled => w

/-! ### Receiving -/

/-- The types `handle` knows, in its order. -/
def messageTypes : List MessageType :=
  [.announce, .sync, .followUp, .delayReq, .pdelayReq, .delayResp, .pdelayResp, .pdelayRespFollowUp,
    .management]

def typeOf (code : BitVec 8) : Option MessageType := messageTypes.find? fun ty => ty.toCode = code

/-- The message in `msgIbuf` is from the parent. -/
def isFromCurrentParent (c : PtpClock) : Bool :=
  isSamePortIdentity c.parentDS.parentPortIdentity c.msgTmpHeader.sourcePortIdentity

/-- The number is that of the last request: one less than the next number, as an `int`. -/
def isLastSent (next sequenceId : BitVec 16) : Bool :=
  (next.toNat : Int) - 1 == (sequenceId.toNat : Int)

def handleAnnounce (isFromSelf : Bool) (w : World) : World :=
  let c := w.clock
  if c.msgIbufLength < announceLength then toState .faulty w
  else if isFromSelf then w
  else
    let announce := msgUnpackAnnounce c.msgIbuf
    let c' := { c with events := setFlag c.events stateDecisionEvent, msgTmp := announce }
    match c.portDS.portState with
    | .initializing | .faulty | .disabled => w
    | .uncalibrated | .slave =>
      if isFromCurrentParent c then
        startTimer announceReceiptTimer (announceReceiptInterval c)
          { w with clock := s1 c' c'.msgTmpHeader announce }
      else { w with clock := addForeign c' c'.msgTmpHeader announce }
    | .passive =>
      let w := startTimer announceReceiptTimer (announceReceiptInterval c) { w with clock := c' }
      { w with clock := addForeign w.clock c'.msgTmpHeader announce }
    | .master | .preMaster | .listening =>
      { w with clock := addForeign c' c'.msgTmpHeader announce }

def handleSync (time : TimeInternal) (isFromSelf : Bool) (w : World) : World :=
  let c := w.clock
  if c.msgIbufLength < syncLength then toState .faulty w
  else
    match c.portDS.portState with
    | .uncalibrated | .slave =>
      if isFromSelf then w
      else if !isFromCurrentParent c then w
      else
        let correctionField := scaledNanosecondsToInternalTime c.msgTmpHeader.correctionfield
        let c := { c with timestampSyncRecieve := time }
        if getFlag c.msgTmpHeader.flagField0 flag0TwoStep then
          { w with clock := { c with
            waitingForFollowUp := true
            recvSyncSequenceId := c.msgTmpHeader.sequenceId
            correctionFieldSync := correctionField } }
        else
          let (unset, w) := unsetTime w
          let originTimestamp := toInternalTime unset (msgUnpackSync c.msgIbuf).originTimestamp
          let c := updateOffset c.timestampSyncRecieve originTimestamp correctionField
            { c with waitingForFollowUp := false }
          issueDelayReqTimerExpired (updateClock { w with clock := c })
    | .passive => issueDelayReqTimerExpired w
    | _ => w

def handleFollowUp (isFromSelf : Bool) (w : World) : World :=
  let c := w.clock
  if c.msgIbufLength < followUpLength then toState .faulty w
  else if isFromSelf then w
  else
    match c.portDS.portState with
    | .uncalibrated | .slave =>
      if !c.waitingForFollowUp then w
      else if !isFromCurrentParent c then w
      else if c.recvSyncSequenceId ≠ c.msgTmpHeader.sequenceId then w
      else
        let (unset, w) := unsetTime w
        let preciseOriginTimestamp :=
          toInternalTime unset (msgUnpackFollowUp c.msgIbuf).preciseOriginTimestamp
        let correctionField :=
          addTime (scaledNanosecondsToInternalTime c.msgTmpHeader.correctionfield)
            c.correctionFieldSync
        let c := updateOffset c.timestampSyncRecieve preciseOriginTimestamp correctionField
          { c with waitingForFollowUp := false }
        issueDelayReqTimerExpired (updateClock { w with clock := c })
    | .passive => issueDelayReqTimerExpired w
    | _ => w

def handleDelayReq (time : TimeInternal) (w : World) : World :=
  let c := w.clock
  match c.portDS.delayMechanism with
  | .e2e =>
    if c.msgIbufLength < delayReqLength then toState .faulty w
    else
      match c.portDS.portState with
      | .master => issueDelayResp time c.msgTmpHeader w
      | _ => w
  | _ => w

def handleDelayResp (w : World) : World :=
  let c := w.clock
  match c.portDS.delayMechanism with
  | .e2e =>
    if c.msgIbufLength < delayRespLength then toState .faulty w
    else
      match c.portDS.portState with
      | .uncalibrated | .slave =>
        let resp := msgUnpackDelayResp c.msgIbuf
        let isCurrentRequest := isSamePortIdentity c.portDS.portIdentity resp.requestingPortIdentity
        if isLastSent c.sentDelayReqSequenceId c.msgTmpHeader.sequenceId && isCurrentRequest &&
            isFromCurrentParent c then
          let received := toInternalTime c.timestampDelayReqRecieve resp.receiveTimestamp
          let correctionField := scaledNanosecondsToInternalTime c.msgTmpHeader.correctionfield
          let c := updateDelay c.timestampDelayReqSend received correctionField
            { c with timestampDelayReqRecieve := received }
          { w with clock := { c with portDS := { c.portDS with
            logMinDelayReqInterval := c.msgTmpHeader.logMessageInterval } } }
        else w
      | _ => w
  | _ => w

def handlePDelayReq (time : TimeInternal) (isFromSelf : Bool) (w : World) : World :=
  let c := w.clock
  match c.portDS.delayMechanism with
  | .p2p =>
    if c.msgIbufLength < pdelayReqLength then toState .faulty w
    else
      match c.portDS.portState with
      | .passive | .slave | .master =>
        if isFromSelf then w
        else
          let (time, w) := issuePDelayResp time c.msgTmpHeader w
          if time.seconds ≠ 0 ∧ getFlag c.msgTmpHeader.flagField0 flag0TwoStep then
            issuePDelayRespFollowUp time c.msgTmpHeader w
          else w
      | _ => w
  | _ => w

def handlePDelayResp (time : TimeInternal) (isFromSelf : Bool) (w : World) : World :=
  let c := w.clock
  match c.portDS.delayMechanism with
  | .p2p =>
    if c.msgIbufLength < pdelayRespLength then toState .faulty w
    else
      match c.portDS.portState with
      | .master | .slave =>
        let presp := msgUnpackPDelayResp c.msgIbuf
        let isCurrentRequest :=
          isSamePortIdentity c.portDS.portIdentity presp.requestingPortIdentity
        if isFromSelf then w
        else if isLastSent c.sentPDelayReqSequenceId c.msgTmpHeader.sequenceId &&
            isCurrentRequest then
          let correctionField := scaledNanosecondsToInternalTime c.msgTmpHeader.correctionfield
          if getFlag c.msgTmpHeader.flagField0 flag0TwoStep then
            let (unset, w) := unsetTime w
            { w with clock := { c with
              waitingForPDelayRespFollowUp := true
              pdelayT4 := time
              pdelayT2 := toInternalTime unset presp.requestReceiptTimestamp
              correctionFieldPDelayResp := correctionField } }
          else
            let c := { c with waitingForPDelayRespFollowUp := false, pdelayT4 := time }
            { w with clock := updatePeerDelay correctionField false c }
        else w
      | _ => w
  | _ => w

def handlePDelayRespFollowUp (w : World) : World :=
  let c := w.clock
  match c.portDS.delayMechanism with
  | .p2p =>
    if c.msgIbufLength < pdelayRespFollowUpLength then toState .faulty w
    else
      match c.portDS.portState with
      | .slave | .master =>
        if !c.waitingForPDelayRespFollowUp then w
        else if isLastSent c.sentPDelayReqSequenceId c.msgTmpHeader.sequenceId then
          let (unset, w) := unsetTime w
          let prespfollow := msgUnpackPDelayRespFollowUp c.msgIbuf
          let correctionField :=
            addTime (scaledNanosecondsToInternalTime c.msgTmpHeader.correctionfield)
              c.correctionFieldPDelayResp
          let c := updatePeerDelay correctionField true
            { c with pdelayT3 := toInternalTime unset prespfollow.responseOriginTimestamp }
          { w with clock := { c with waitingForPDelayRespFollowUp := false } }
        else w
      | _ => w
  | _ => w

def handleManagement (isFromSelf : Bool) (w : World) : World :=
  let c := w.clock
  if c.msgIbufLength < managementLength then toState .faulty w
  else
    match c.portDS.portState with
    | .master =>
      if isFromSelf then w
      else
        let manage := msgUnpackManagement c.msgIbuf
        ptpUnpackControlCall
          ⟨manage.toMasterOffset.secondsField.lsb, manage.toMasterOffset.nanosecondsField⟩
          manage.ipaddr w
    | _ => w

/-- The handling of the message in `msgIbuf`, which is long enough to have a header. -/
def dispatch (time : TimeInternal) (w : World) : World :=
  let header := msgUnpackHeader w.clock.msgIbuf
  let w := { w with clock := { w.clock with msgTmpHeader := header } }
  let c := w.clock
  if header.versionPTP ≠ c.portDS.versionNumber then w
  else if header.domainNumber ≠ c.defaultDS.domainNumber then w
  else
    let isFromSelf := isSamePortIdentity c.portDS.portIdentity header.sourcePortIdentity
    let time :=
      if !isFromSelf ∧ (0 : BitVec 32).slt time.seconds then subTime time c.inboundLatency else time
    match typeOf header.messageType with
    | some .announce => handleAnnounce isFromSelf w
    | some .sync => handleSync time isFromSelf w
    | some .followUp => handleFollowUp isFromSelf w
    | some .delayReq => handleDelayReq time w
    | some .pdelayReq => handlePDelayReq time isFromSelf w
    | some .delayResp => handleDelayResp w
    | some .pdelayResp => handlePDelayResp time isFromSelf w
    | some .pdelayRespFollowUp => handlePDelayRespFollowUp w
    | some .management => handleManagement isFromSelf w
    | none => w

/-- The next datagram, from the event queue if there is one there. -/
def receive (w : World) : TimeInternal × World :=
  let (time, w) := World.netRecv .event ⟨0, 0⟩ w
  if w.clock.msgIbufLength = 0 then World.netRecv .general time w else (time, w)

def handle (w : World) : World :=
  if !w.clock.messageActivity && !netSelect w then w
  else
    let (time, w) := receive w
    if w.clock.msgIbufLength = 0 then w
    else
      let w := { w with clock := { w.clock with messageActivity := true } }
      if w.clock.msgIbufLength < headerLength then toState .faulty w else dispatch time w

/-! ### The machine -/

/-- A clock that must not be a master. -/
def slaveOnlyClock (c : PtpClock) : Bool :=
  c.defaultDS.slaveOnly || c.defaultDS.clockQuality.clockClass == 255

/-- The first part of `doState`: the state decision event. -/
def decideState (w : World) : World :=
  let c := w.clock
  match c.portDS.portState with
  | .listening | .uncalibrated | .slave | .preMaster | .master | .passive =>
    if getFlag c.events stateDecisionEvent then
      let (c, recommended) := bmc { c with events := clearFlag c.events stateDecisionEvent }
      let recommended :=
        match recommended with
        | .master | .passive => if slaveOnlyClock c then .listening else recommended
        | _ => recommended
      recommend recommended { w with clock := c }
    else w
  | _ => w

def clearEvent (mask : BitVec 32) (w : World) : World :=
  { w with clock := { w.clock with events := clearFlag w.clock.events mask } }

/-- The second part: the recommended state. -/
def followRecommended (w : World) : World :=
  match w.clock.recommendedState with
  | .master =>
    match w.clock.portDS.portState with
    | .preMaster =>
      let (due, w) := expired qualificationTimeout w
      if due then toState .master w else w
    | .master => w
    | _ => toState .preMaster w
  | .passive => if w.clock.portDS.portState ≠ .passive then toState .passive w else w
  | .slave =>
    match w.clock.portDS.portState with
    | .uncalibrated =>
      let w :=
        if getFlag w.clock.events masterClockSelected then
          toState .slave (clearEvent masterClockSelected w)
        else w
      if getFlag w.clock.events masterClockChanged then clearEvent masterClockChanged w else w
    | .slave =>
      let w :=
        if getFlag w.clock.events synchronizationFault then
          toState .uncalibrated (clearEvent synchronizationFault w)
        else w
      if getFlag w.clock.events masterClockChanged then
        toState .uncalibrated (clearEvent masterClockChanged w)
      else w
    | _ => toState .uncalibrated w
  | .listening => if w.clock.portDS.portState ≠ .listening then toState .listening w else w
  | _ => w

/-- No announcement has come in time. -/
def announceTimeout (w : World) : World :=
  let w := { w with clock := forgetForeign w.clock }
  if !slaveOnlyClock w.clock then toState .master (recommend .master { w with clock := m1 w.clock })
  else if w.clock.portDS.portState ≠ .listening then toState .listening w
  else w

/-- What `PTP_PASSIVE` does, and the states before it go on to. -/
def actPassive (w : World) : World :=
  let (due, w) := expired announceReceiptTimer w
  if due then announceTimeout w else handle w

/-- The report of a port that has no announcements to send, before that. -/
def actManagement (w : World) : World :=
  let (due, w) := expired managementIntervalTimer w
  if due then handle (issueManagement w) else w

def actMaster (w : World) : World :=
  let (due, w) := expired syncIntervalTimer w
  let w := if due then issueSync w else w
  let (due, w) := expired announceIntervalTimer w
  let w := if due then issueAnnounce w else w
  issueDelayReqTimerExpired (handle w)

/-- The third part: the state itself. -/
def act (w : World) : World :=
  match w.clock.portDS.portState with
  | .initializing =>
    let (ok, w) := doInit w
    if ok then toState .listening w else toState .faulty w
  | .faulty => toState .initializing w
  | .disabled => handle w
  | .listening | .uncalibrated | .slave => actPassive (actManagement w)
  | .passive => actPassive w
  | .master => actMaster w
  | .preMaster => w

def doState (w : World) : World :=
  act (followRecommended
    (decideState { w with clock := { w.clock with messageActivity := false } }))

/-! ### The main loop -/

def ptpdStartup (rtOpts : RunTimeOpts) (w : World) : World :=
  let rtOpts :=
    if rtOpts.slaveOnly then
      { rtOpts with clockQuality := { rtOpts.clockQuality with clockClass := 255 } }
    else rtOpts
  let rtOpts :=
    if rtOpts.servo.ap.slt 1 then { rtOpts with servo := { rtOpts.servo with ap := 1 } } else rtOpts
  let rtOpts :=
    if rtOpts.servo.ai.slt 1 then { rtOpts with servo := { rtOpts.servo with ai := 1 } } else rtOpts
  toState .initializing { w with clock := { w.clock with rtOpts := rtOpts } }

/-- The options `PTPd_Init` starts with. -/
def defaultRtOpts : RunTimeOpts where
  announceInterval := 1
  syncInterval := 0
  clockQuality := ⟨248, 0xFE, 5000⟩
  priority1 := 248
  priority2 := 248
  domainNumber := 0
  slaveOnly := false
  currentUtcOffset := 34
  inboundLatency := ⟨0, 0⟩
  outboundLatency := ⟨0, 0⟩
  maxForeignRecords := 5
  delayMechanism := .p2p
  servo :=
    { noResetClock := false, noAdjust := false, ap := 2, ai := 16, sDelay := 6, sOffset := 1 }

/-- The loop of `ptpd_Periodic_Handle`, as far as that many turns go. -/
def runStack : Nat → World → Option World
  | 0, _ => none
  | n + 1, w =>
    let w := doState w
    if netSelect w then runStack n w else some w

/-- `ptpd_Periodic_Handle`, after `ms` milliseconds. -/
def ptpdPeriodicHandle (n : Nat) (ms : BitVec 32) (w : World) : Option World :=
  runStack n { w with clock := { w.clock with timers := catchAlarm ms w.clock.timers } }

end Stm32F4.Ptp
