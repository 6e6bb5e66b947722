import Mathlib.Algebra.Order.Ring.Int
import Mathlib.Logic.Relation
import Stm32F4.Ptp.Protocol

/-! The port as an abstract machine.

Of the world the protocol is about little: the state of the port and the one that has been
recommended, the foreign masters, what the port announces and whom it follows, and what it has sent
and done to the clock. A `Port` is just that, and `Step` lists what can happen to it, each kind of
step with the state the port is then in and the message it is due to. Every turn of `doState` is a
run of these steps (`portStep_steps`), so what they keep is kept by the protocol, whatever arrives
and whenever timers run out. -/
namespace Stm32F4.Ptp
open Ethernetif (Pbuf totLen)
open Lib

/-! ### What the protocol is about -/

/-- The part of the clock data. -/
structure Control where
  portState : PortState
  recommendedState : PortState
  /-- Is a state decision due? -/
  decisionDue : Bool
  foreignMasterDS : ForeignMasterDS
  defaultDS : DefaultDS
  portIdentity : PortIdentity
  parent : PortIdentity
  /-- What an announcement would say now. -/
  announced : Standing
  /-- The next number of a message. -/
  next : MessageType → BitVec 16
  msgObuf : Nat → UInt8
  /-- The slots of the two queues. -/
  slots : (Nat → List Pbuf) × (Nat → List Pbuf)
  rtOpts : RunTimeOpts

structure Port extends Control where
  pcbs : Pcbs
  datagrams : List Datagram
  /-- What has been done to the clock, but for a reset of its frequency. -/
  steered : List ClockCall

def PtpClock.next (c : PtpClock) : MessageType → BitVec 16
  | .sync => c.sentSyncSequenceId
  | .announce => c.sentAnnounceSequenceId
  | .delayReq => c.sentDelayReqSequenceId
  | .pdelayReq => c.sentPDelayReqSequenceId
  | _ => 0

def PtpClock.control (c : PtpClock) : Control where
  portState := c.portDS.portState
  recommendedState := c.recommendedState
  decisionDue := getFlag c.events stateDecisionEvent
  foreignMasterDS := c.foreignMasterDS
  defaultDS := c.defaultDS
  portIdentity := c.portDS.portIdentity
  parent := c.parentDS.parentPortIdentity
  announced :=
    { grandmasterPriority1 := c.parentDS.grandmasterPriority1
      grandmasterClockQuality := c.defaultDS.clockQuality
      grandmasterPriority2 := c.parentDS.grandmasterPriority2
      grandmasterIdentity := c.parentDS.grandmasterIdentity
      stepsRemoved := c.currentDS.stepsRemoved
      sender := c.portDS.portIdentity.clockIdentity }
  next := c.next
  msgObuf := c.msgObuf
  slots := (c.netPath.eventQ.pbuf, c.netPath.generalQ.pbuf)
  rtOpts := c.rtOpts

def World.port (w : World) : Port :=
  { w.clock.control with
    pcbs := w.pcbs
    datagrams := w.datagrams
    steered := w.clockCalls.filter (· ≠ .adjFreq 0) }

/-- A message in the input buffer. -/
structure Received where
  buf : Nat → UInt8
  length : Nat

def Received.header (m : Received) : MsgHeader := msgUnpackHeader m.buf
def Received.type (m : Received) : Option MessageType := typeOf m.header.messageType
def Received.sender (m : Received) : PortIdentity := m.header.sourcePortIdentity
def Received.heard (m : Received) : Heard := (m.header, msgUnpackAnnounce m.buf)

/-- A clock that must not be a master. -/
def Control.slaveOnly (k : Control) : Bool :=
  k.defaultDS.slaveOnly || k.defaultDS.clockQuality.clockClass == 255

/-- What the clock says of itself. -/
def Control.own (k : Control) : Standing where
  grandmasterPriority1 := k.defaultDS.priority1
  grandmasterClockQuality := k.defaultDS.clockQuality
  grandmasterPriority2 := k.defaultDS.priority2
  grandmasterIdentity := k.defaultDS.clockIdentity
  stepsRemoved := 0
  sender := k.portIdentity.clockIdentity

namespace Port

/-- The port goes to the state. -/
def enter (p : Port) (state : PortState) : Port :=
  match state with
  | .initializing | .listening => { p with portState := state, recommendedState := state }
  | _ => { p with portState := state }

/-- It has not been started. -/
def Off (p : Port) : Prop :=
  p.recommendedState = .initializing ∧ (p.portState = .initializing ∨ p.portState = .faulty)

/-- It has been started. -/
structure Up (p : Port) : Prop where
  recommended : p.recommendedState = .listening ∨ p.recommendedState = .passive ∨
    p.recommendedState = .slave ∨ p.recommendedState = .master
  initializing : p.portState ≠ .initializing
  disabled : p.portState ≠ .disabled

/-- The state is the recommended one, or on the way to it. -/
def InStep (p : Port) : Prop :=
  match p.recommendedState with
  | .listening => p.portState = .listening
  | .passive => p.portState = .passive
  | .slave => p.portState = .uncalibrated ∨ p.portState = .slave
  | .master => p.portState = .preMaster ∨ p.portState = .master
  | _ => False

/-- The port acts on the recommendation, or on a fault. -/
def Acting (p : Port) : Prop := p.InStep ∨ p.Up ∧ p.portState = .faulty

/-- The recommendation, on which a clock that must not be a master has its own view. -/
def recommendation (k : Control) (state : PortState) : PortState :=
  match state with
  | .master | .passive => if k.slaveOnly then .listening else state
  | _ => state

/-- The state decision, if one is due. A port with a fault puts it off. -/
inductive Decided (p : Port) : Port → Prop
  | not_due (h : p.decisionDue = false ∨ p.portState = .faulty) : Decided p p
  | due {c : PtpClock} (h : p.decisionDue = true) (hstate : p.portState ≠ .faulty)
      (hc : c.control = { p.toControl with decisionDue := false }) :
    Decided p { p with toControl := { (bmc c).1.control with
      recommendedState := recommendation (bmc c).1.control (bmc c).2 } }

/-- Where a recommendation leads from a state. -/
def Follows (recommended state state' : PortState) : Prop :=
  match recommended with
  | .master =>
    match state with
    | .preMaster => state' = .preMaster ∨ state' = .master
    | .master => state' = .master
    | _ => state' = .preMaster
  | .passive => state' = .passive
  | .slave =>
    state' = .uncalibrated ∨ state = .uncalibrated ∧ state' = .slave ∨
      state = .slave ∧ state' = .slave
  | .listening => state' = .listening
  | _ => False

/-- No announcement has come in time. -/
def timedOut (p : Port) : Port :=
  let ds := { p.foreignMasterDS with count := 0, i := 0 }
  if !p.slaveOnly then
    { p with
      foreignMasterDS := ds, recommendedState := .master, portState := .master
      parent := ⟨p.defaultDS.clockIdentity, 0⟩, announced := p.own }
  else if p.portState ≠ .listening then ({ p with foreignMasterDS := ds } : Port).enter .listening
  else { p with foreignMasterDS := ds }

/-- The messages that have numbers of their own. -/
def numbered : MessageType → Bool
  | .sync | .announce | .delayReq | .pdelayReq => true
  | _ => false

/-- In which state the port sends the message. A follow-up comes right after its message. -/
def Sends (p : Port) : Outgoing → Prop
  | .announce | .sync _ => p.portState = .master ∧ p.recommendedState = .master
  | .followUp _ => p.portState = .master ∧ p.recommendedState = .master ∧
      ∃ d ∈ p.datagrams.getLast?, (msgUnpackHeader d.buf).messageType = MessageType.sync.toCode ∧
        (msgUnpackHeader d.buf).sequenceId = p.next .sync - 1
  | .delayResp _ _ => p.portState = .master ∧ p.recommendedState = .master
  | .delayReq _ => p.portState = .slave
  | .pdelayResp _ _ | .pdelayRespFollowUp _ _ =>
    p.portState = .passive ∨ p.portState = .slave ∨ p.portState = .master
  | .management _ _ => p.portState = .listening ∨ p.portState = .uncalibrated ∨ p.portState = .slave
  | .pdelayReq _ => True

/-- The port after a message that was packed by `c`. -/
def send (p : Port) (c : PtpClock) (o : Outgoing) (d : Datagram) : Port :=
  { p with
    msgObuf := o.pack c p.msgObuf
    next := if numbered o.type then Function.update p.next o.type (p.next o.type + 1) else p.next
    datagrams := p.datagrams ++ [d] }

/-- What a port does in a state, which is to receive messages of the kind `A` and to send some. -/
inductive Act (A : Received → Prop) (p : Port) : Port → Prop
  | fault (h : p.Acting) : Act A p (p.enter .faulty)
  | foreign {m : Received} (h : p.InStep) (hm : A m) (htype : m.type = some .announce)
      (hlen : announceLength ≤ m.length) (hself : m.sender ≠ p.portIdentity) :
    Act A p { p with
      decisionDue := true, foreignMasterDS := p.foreignMasterDS.add m.heard.1 m.heard.2 }
  | parent {m : Received} (h : p.InStep)
      (hstate : p.portState = .uncalibrated ∨ p.portState = .slave) (hm : A m)
      (htype : m.type = some .announce) (hlen : announceLength ≤ m.length)
      (hself : m.sender ≠ p.portIdentity) (hparent : m.sender = p.parent) :
    Act A p { p with
      decisionDue := true
      announced :=
        { p.announced with
          grandmasterPriority1 := m.heard.2.grandmasterPriority1
          grandmasterPriority2 := m.heard.2.grandmasterPriority2
          grandmasterIdentity := m.heard.2.grandmasterIdentity
          stepsRemoved := m.heard.2.stepsRemoved + 1 } }
  | send {c : PtpClock} (o : Outgoing) (d : Datagram) (h : p.Acting)
      (hc : c.control = p.toControl) (ho : p.Sends o) (hd : d.buf = o.pack c p.msgObuf) :
    Act A p (p.send c o d)
  | steer {m : Received} (calls : List ClockCall) (h : p.InStep)
      (hstate : p.portState = .uncalibrated ∨ p.portState = .slave) (hm : A m)
      (htype : m.type = some .sync ∨ m.type = some .followUp) (hparent : m.sender = p.parent) :
    Act A p { p with steered := p.steered ++ calls }

abbrev Acts (A : Received → Prop) : Port → Port → Prop := Relation.ReflTransGen (Act A)

/-- The datagram is a message of the kind `A`, if it is received at all and long enough to be a
message. -/
def Carries (A : Received → Prop) (p : List Pbuf) : Prop :=
  ∀ buf, headerLength ≤ totLen p → totLen p ≤ packetSize →
    A ⟨recvCopy (totLen p) 0 p 0 buf, totLen p⟩

/-- What is in the slots of the queues is of the kind `A`. -/
def Queued (A : Received → Prop) (p : Port) : Prop :=
  ∀ i, Carries A (p.slots.1 i) ∧ Carries A (p.slots.2 i)

/-- What can happen to a port. -/
inductive Step (A : Received → Prop) (p : Port) : Port → Prop
  | start {c d : PtpClock} (a : Attempt) (hoff : p.Off) (hstate : p.portState = .initializing)
      (hc : c.control = p.toControl) (hd : d.control = (m1 (initData c)).control) :
    Step A p (({ p with
      toControl := { d.control with msgObuf := msgPackHeader d p.msgObuf }
      pcbs := restart p.pcbs a } : Port).enter .listening)
  | startFails (a : Attempt) (hoff : p.Off) (hstate : p.portState = .initializing) :
    Step A p (({ p with pcbs := restart p.pcbs a } : Port).enter .faulty)
  | faultCleared (hoff : p.Off) (hstate : p.portState = .faulty) : Step A p (p.enter .initializing)
  | consider {q : Port} {state : PortState} (hup : p.Up) (hq : Decided p q)
      (hstate : Follows q.recommendedState q.portState state) :
    Step A p (q.enter state)
  | timeout (h : p.Acting) (hmaster : p.portState ≠ .master) (hpre : p.portState ≠ .preMaster) :
      Step A p p.timedOut
  | act {q : Port} (h : Act A p q) : Step A p q
  | arrive {slots : (Nat → List Pbuf) × (Nat → List Pbuf)}
      (h : Queued A { p with slots := slots }) :
    Step A p { p with slots := slots }

abbrev Steps (A : Received → Prop) : Port → Port → Prop := Relation.ReflTransGen (Step A)

end Port

namespace Port
variable {p q : Port}

theorem Up.congr (h : p.Up) (hstate : q.portState = p.portState)
    (hrec : q.recommendedState = p.recommendedState) :
    q.Up :=
  ⟨hrec ▸ h.recommended, hstate ▸ h.initializing, hstate ▸ h.disabled⟩

theorem InStep.congr (h : p.InStep) (hstate : q.portState = p.portState)
    (hrec : q.recommendedState = p.recommendedState) : q.InStep := by
  rw [InStep, hstate, hrec]
  exact h

theorem Acting.congr (h : p.Acting) (hstate : q.portState = p.portState)
    (hrec : q.recommendedState = p.recommendedState) : q.Acting := by
  rcases h with h | ⟨h, hfaulty⟩
  · exact .inl (h.congr hstate hrec)
  · exact .inr ⟨h.congr hstate hrec, hstate.trans hfaulty⟩

end Port

/-! ### What changes nothing -/

theorem getFlag_eq {w : Nat} (x : BitVec w) (i : Nat) (h : i < w) :
    getFlag x (BitVec.twoPow w i) = x.getLsbD i := by
  rw [getFlag, BitVec.and_twoPow]
  cases x.getLsbD i with
  | true => simp
  | false =>
    simp only [Bool.false_eq_true, if_false, beq_eq_false_iff_ne]
    intro hzero
    have hbit := congrArg (fun y : BitVec w => y.getLsbD i) hzero
    simp [h] at hbit

/-- The flag of the state decision is not that of another event. -/
theorem decisionDue_setFlag (events mask : BitVec 32) (h : mask.getLsbD 6 = false) :
    getFlag (setFlag events mask) stateDecisionEvent = getFlag events stateDecisionEvent := by
  have hbit : stateDecisionEvent = BitVec.twoPow 32 6 := by decide
  rw [hbit, getFlag_eq _ _ (by decide), getFlag_eq _ _ (by decide), setFlag, BitVec.getLsbD_or, h,
    Bool.or_false]

theorem decisionDue_clearFlag (events mask : BitVec 32) (h : mask.getLsbD 6 = false) :
    getFlag (clearFlag events mask) stateDecisionEvent = getFlag events stateDecisionEvent := by
  have hbit : stateDecisionEvent = BitVec.twoPow 32 6 := by decide
  rw [hbit, getFlag_eq _ _ (by decide), getFlag_eq _ _ (by decide), clearFlag, BitVec.getLsbD_and,
    BitVec.getLsbD_not, h]
  simp

@[simp] theorem getFlag_setFlag_self {w : Nat} (x mask : BitVec w) :
    getFlag (setFlag x mask) mask = true := by
  rw [getFlag, setFlag, beq_iff_eq]
  ext i
  simp only [BitVec.getElem_and, BitVec.getElem_or, Bool.and_eq_right_iff_imp]
  exact fun h => by rw [h, Bool.or_true]

theorem getFlag_clearFlag_decision (events : BitVec 32) :
    getFlag (clearFlag events stateDecisionEvent) stateDecisionEvent = false := by
  have hbit : stateDecisionEvent = BitVec.twoPow 32 6 := by decide
  rw [hbit, getFlag_eq _ _ (by decide), clearFlag, BitVec.getLsbD_and, BitVec.getLsbD_not]
  simp

section Quiet
variable (w : World)

@[simp] theorem port_stopTimer (i : Nat) : (stopTimer i w).port = w.port := rfl
@[simp] theorem port_startTimer (i : Nat) (ms : BitVec 32) :
    (startTimer i ms w).port = w.port := rfl
@[simp] theorem port_startRandom (i : Nat) (max : BitVec 32) :
    (startRandom i max w).port = w.port := rfl
@[simp] theorem port_expired (i : Nat) : (expired i w).2.port = w.port := rfl
@[simp] theorem port_unsetTime : (unsetTime w).2.port = w.port := rfl
@[simp] theorem port_getTime : (getTime w).2.port = w.port := rfl

/-- A reset of the frequency is not counted. -/
theorem port_adjFreq_zero : (adjFreq 0 w).port = w.port := by
  simp [World.port, adjFreq, adjFreqMax]

theorem pbuf_netQGet (q : BufQueue) : (netQGet q).1.pbuf = q.pbuf := by
  rw [netQGet]
  split <;> rfl

theorem pbuf_netQEmptyLoop (n : Nat) (q : BufQueue) : (netQEmptyLoop n q).1.pbuf = q.pbuf := by
  induction n generalizing q with
  | zero => rfl
  | succ n ih => exact (ih (netQGet q).1).trans (pbuf_netQGet q)

theorem control_netPath (c : PtpClock) (netPath : NetPath)
    (hevent : netPath.eventQ.pbuf = c.netPath.eventQ.pbuf)
    (hgeneral : netPath.generalQ.pbuf = c.netPath.generalQ.pbuf) :
    { c with netPath := netPath }.control = c.control := by
  simp only [PtpClock.control, hevent, hgeneral]
  rfl

theorem port_netEmptyEventQ : (netEmptyEventQ w).port = w.port := by
  have hcontrol :=
    control_netPath w.clock { w.clock.netPath with eventQ := (netQEmpty w.clock.netPath.eventQ).1 }
    (pbuf_netQEmptyLoop _ _) rfl
  simp only [World.port, netEmptyEventQ, hcontrol]

@[simp] theorem port_initClock : (initClock w).port = w.port := by
  simp only [initClock]
  rw [port_netEmptyEventQ]
  cases w.clock.servo.noAdjust with
  | true => rfl
  | false => exact port_adjFreq_zero w

@[simp] theorem port_leaveState (state : PortState) : (leaveState state w).port = w.port := by
  unfold leaveState
  split
  · simp
  · split
    · rfl
    · rw [port_initClock]
      split <;> simp
  · split
    · rfl
    · rw [port_initClock]
      split <;> simp
  all_goals simp

@[simp] theorem port_toState (state : PortState) : (toState state w).port = w.port.enter state := by
  rw [toState]
  have hleave : (leaveState state
      { w with clock := { w.clock with messageActivity := true } }).port = w.port :=
    port_leaveState _ state
  rw [← hleave]
  generalize leaveState state _ = v
  cases state with
  | master =>
    simp only [enterState]
    split <;> rfl
  | passive =>
    simp only [enterState]
    split <;> rfl
  | uncalibrated =>
    simp only [enterState]
    split <;> rfl
  | _ => rfl

/-- The servo sets flags of its own. -/
theorem control_events (c : PtpClock) (events : BitVec 32)
    (h : getFlag events stateDecisionEvent = getFlag c.events stateDecisionEvent) :
    { c with events := events }.control = c.control := by
  simp only [PtpClock.control, h]
  rfl

@[simp] theorem control_updateOffset (a b x : TimeInternal) (c : PtpClock) :
    (updateOffset a b x c).control = c.control := by
  have hfault := decisionDue_setFlag c.events synchronizationFault (by decide)
  have hselected := decisionDue_setFlag c.events masterClockSelected (by decide)
  simp only [updateOffset]
  generalize subTime (subTime a b) x = tms
  split
  all_goals
    split
    · refine Eq.trans ?_ (control_events c
        (if c.portDS.portState =
          .slave then setFlag c.events synchronizationFault else c.events) ?_)
      · rfl
      · split
        · exact hfault
        · rfl
    · generalize filter _ _ = r
      refine Eq.trans (b := PtpClock.control { c with events := _ }) rfl (control_events c _ ?_)
      split
      · split
        · exact hselected
        · rfl
      · split
        · split
          · exact hfault
          · rfl
        · rfl

/-- Delays are no part of it. -/
theorem control_meanPathDelay (c : PtpClock) (tsm delay : TimeInternal) (owdFilt : Filter) :
    { c with
      tsm := tsm, currentDS := { c.currentDS with meanPathDelay := delay }
      owdFilt := owdFilt }.control =
      c.control := rfl

theorem control_peerMeanPathDelay (c : PtpClock) (delay : TimeInternal) (owdFilt : Filter) :
    { c with
      portDS := { c.portDS with peerMeanPathDelay := delay }
      owdFilt := owdFilt }.control = c.control := rfl

@[simp] theorem control_updateDelay (a b x : TimeInternal) (c : PtpClock) :
    (updateDelay a b x c).control = c.control := by
  simp only [updateDelay]
  split
  · rfl
  · split
    · exact control_meanPathDelay c _ _ c.owdFilt
    · exact control_meanPathDelay c _ _ _

@[simp] theorem control_updatePeerDelay (x : TimeInternal) (twoStep : Bool) (c : PtpClock) :
    (updatePeerDelay x twoStep c).control = c.control := by
  cases twoStep <;> simp only [updatePeerDelay, if_true, Bool.false_eq_true, if_false] <;> split
  · exact control_peerMeanPathDelay c _ c.owdFilt
  · exact control_peerMeanPathDelay c _ _
  · exact control_peerMeanPathDelay c _ c.owdFilt
  · exact control_peerMeanPathDelay c _ _

/-- The clock is steered, or not. -/
theorem port_updateClock :
    ∃ calls, (updateClock w).port = { w.port with steered := w.port.steered ++ calls } := by
  have hcall : ∀ (v : World) (adj : BitVec 32), ∃ calls,
      (adjFreq adj v).port = { v.port with steered := v.port.steered ++ calls } := by
    intro v adj
    simp only [adjFreq, World.port, List.filter_append]
    exact ⟨_, rfl⟩
  have hnone : w.port = { w.port with steered := w.port.steered ++ [] } := by rw [List.append_nil]
  simp only [updateClock]
  split
  · split
    · split
      · refine ⟨[.setTime (subTime (getTime w).1 w.clock.currentDS.offsetFromMaster)], ?_⟩
        rw [port_initClock]
        simp [World.port, setTime, getTime]
      · exact hcall _ _
    · exact ⟨[], hnone⟩
  · split
    · exact hcall { w with clock := { w.clock with observedDrift := _ } } _
    · exact ⟨[], hnone⟩

@[simp] theorem port_netSend (port : MessagePort) (peer : Bool) (length : Nat) :
    (netSend port peer length w).2.port =
    { w.port with
      datagrams :=
        w.port.datagrams ++ [⟨port, peer, w.clock.msgObuf, length, w.env.sends 0⟩] } := rfl

end Quiet

/-! ### What is sent -/

section Send
variable {A : Received → Prop} {w : World}

/-- A message is packed and sent. -/
theorem port_packed {o : Outgoing} {u : World} (hclock : u.clock = w.clock) (hu : u.port = w.port)
    (port : MessagePort) (peer : Bool) (length : Nat) :
    ∃ d : Datagram, d.buf = o.pack w.clock w.port.msgObuf ∧
      (netSend port peer length (pack (fun c buf => o.pack c buf) u)).2.port =
        { w.port.send w.clock o d with next := w.port.next } := by
  refine ⟨⟨port, peer, o.pack w.clock w.port.msgObuf, length, u.env.sends 0⟩, rfl, ?_⟩
  have hpack : (pack (fun c buf => o.pack c buf) u).port =
      { u.port with msgObuf := o.pack u.clock u.clock.msgObuf } := rfl
  rw [port_netSend, Port.send, hpack, hu, pack, hclock]
  rfl

theorem port_packedTimed {o : Outgoing} {u : World} (hclock : u.clock = w.clock)
    (hu : u.port = w.port)
    (port : MessagePort) (peer : Bool) (length : Nat) (time : TimeInternal) :
    ∃ d : Datagram, d.buf = o.pack w.clock w.port.msgObuf ∧
      (netSendTimed port peer length time (pack (fun c buf => o.pack c buf) u)).2.port =
        { w.port.send w.clock o d with next := w.port.next } := by
  obtain ⟨d, hd, hport⟩ := port_packed (o := o) hclock hu port peer length
  refine ⟨d, hd, ?_⟩
  rw [← hport]
  simp only [netSendTimed]
  split <;> rfl

/-- Without a number of its own it is sent already. -/
theorem step_of_packed {o : Outgoing} {v : World} {d : Datagram} (h : w.port.Acting)
    (ho : w.port.Sends o)
    (hn : Port.numbered o.type = false) (hd : d.buf = o.pack w.clock w.port.msgObuf)
    (hv : v.port = { w.port.send w.clock o d with next := w.port.next }) :
    Port.Act A w.port v.port := by
  have hsend : v.port = w.port.send w.clock o d := by
    rw [hv, Port.send, hn]
    rfl
  rw [hsend]
  exact .send o d h rfl ho hd

/-- With one, the number is used up. -/
theorem step_of_numbered {o : Outgoing} {r v : World} {d : Datagram} (h : w.port.Acting)
    (ho : w.port.Sends o)
    (hn : Port.numbered o.type = true) (hd : d.buf = o.pack w.clock w.port.msgObuf)
    (hr : r.port = { w.port.send w.clock o d with next := w.port.next })
    (hv : v.port = { r.port with
      next := Function.update r.port.next o.type (r.port.next o.type + 1) }) :
    v.port = w.port.send w.clock o d ∧ Port.Act A w.port v.port := by
  have hsend : v.port = w.port.send w.clock o d := by
    rw [hv, hr, Port.send, if_pos hn]
  rw [hsend]
  exact ⟨rfl, .send o d h rfl ho hd⟩

/-- The numbers after one message more. -/
theorem next_sync (c : PtpClock) : { c with sentSyncSequenceId := c.sentSyncSequenceId + 1 }.next =
    Function.update c.next .sync (c.next .sync + 1) := by
  funext ty
  cases ty <;> rfl

theorem next_announce (c : PtpClock) :
    { c with sentAnnounceSequenceId := c.sentAnnounceSequenceId + 1 }.next =
    Function.update c.next .announce (c.next .announce + 1) := by
  funext ty
  cases ty <;> rfl

theorem next_delayReq (c : PtpClock) :
    { c with sentDelayReqSequenceId := c.sentDelayReqSequenceId + 1 }.next =
    Function.update c.next .delayReq (c.next .delayReq + 1) := by
  funext ty
  cases ty <;> rfl

theorem next_pdelayReq (c : PtpClock) :
    { c with sentPDelayReqSequenceId := c.sentPDelayReqSequenceId + 1 }.next =
    Function.update c.next .pdelayReq (c.next .pdelayReq + 1) := by
  funext ty
  cases ty <;> rfl

theorem issueAnnounce_steps (h : w.port.Acting) (ho : w.port.Sends .announce) :
    Port.Acts A w.port (issueAnnounce w).port := by
  let r := netSendGeneral announceLength (pack msgPackAnnounce w)
  obtain ⟨d, hd, hr⟩ := port_packed (w := w) (o := .announce) rfl rfl .general false announceLength
  refine .single (step_of_numbered (r := r) h ho rfl hd hr ?_).2
  have hnext := next_announce r.clock
  rw [issueAnnounce, World.port, PtpClock.control, hnext]
  rfl

theorem issueFollowup_steps {time : TimeInternal} (h : w.port.Acting)
    (ho : ∀ t, w.port.Sends (.followUp t)) : Port.Acts A w.port (issueFollowup time w).port := by
  obtain ⟨d, hd, hv⟩ :=
    port_packed (w := w) (u := (toTimestamp time w).2) (o := .followUp (toTimestamp time w).1)
    rfl rfl .general false followUpLength
  exact .single (step_of_packed h (ho _) rfl hd hv)

theorem issueSync_steps (h : w.port.Acting)
    (hstate : w.port.portState = .master ∧ w.port.recommendedState = .master) :
    Port.Acts A w.port (issueSync w).port := by
  let ts := (toTimestamp (getTime w).1 (getTime w).2).1
  let u := (toTimestamp (getTime w).1 (getTime w).2).2
  let r := netSendEvent syncLength (getTime w).1 (pack (msgPackSync · · ts) u)
  let v : World :=
    { r.2 with clock := { r.2.clock with sentSyncSequenceId := r.2.clock.sentSyncSequenceId + 1 } }
  have heq : issueSync w = if r.1.seconds ≠ 0 ∧ v.clock.defaultDS.twoStepFlag then
      issueFollowup (addTime r.1 v.clock.outboundLatency) v else v := rfl
  obtain ⟨d, hd, hr⟩ :=
    port_packedTimed (w := w) (u := u) (o := .sync ts) rfl rfl .event false syncLength (getTime w).1
  obtain ⟨hsent, hsync⟩ :=
    step_of_numbered (A := A) (o := .sync ts) (r := r.2) (v := v) h hstate rfl hd hr (by
    have hnext := next_sync r.2.clock
    rw [World.port, PtpClock.control, hnext]
    rfl)
  rw [heq]
  split
  · refine .trans (.single hsync) (issueFollowup_steps ?_ fun t => ?_)
    · rw [hsent]
      exact h.congr rfl rfl
    · rw [hsent]
      refine ⟨hstate.1, hstate.2, d, by simp [Port.send], ?_⟩
      rw [hd, Outgoing.msgUnpackHeader_pack]
      refine ⟨rfl, ?_⟩
      show w.clock.sentSyncSequenceId =
        Function.update w.port.next .sync (w.clock.sentSyncSequenceId + 1) .sync - 1
      rw [Function.update_self, BitVec.add_sub_cancel]
  · exact .single hsync

/-- A `Sync` leaves the port in its state. -/
theorem state_issueSync (w : World) : (issueSync w).port.portState = w.port.portState ∧
    (issueSync w).port.recommendedState = w.port.recommendedState := by
  let ts := (toTimestamp (getTime w).1 (getTime w).2).1
  let u := (toTimestamp (getTime w).1 (getTime w).2).2
  let r := netSendEvent syncLength (getTime w).1 (pack (msgPackSync · · ts) u)
  let v : World :=
    { r.2 with clock := { r.2.clock with sentSyncSequenceId := r.2.clock.sentSyncSequenceId + 1 } }
  have heq : issueSync w = if r.1.seconds ≠ 0 ∧ v.clock.defaultDS.twoStepFlag then
      issueFollowup (addTime r.1 v.clock.outboundLatency) v else v := rfl
  have hclock : r.2.clock = (pack (msgPackSync · · ts) u).clock := by
    simp only [r, netSendEvent, netSendTimed]
    split <;> rfl
  have hv : v.port.portState = w.port.portState ∧ v.port.recommendedState =
      w.port.recommendedState := by
    simp only [v, World.port, hclock]
    exact ⟨rfl, rfl⟩
  rw [heq]
  split
  · exact hv
  · exact hv

theorem issueDelayReq_steps (h : w.port.Acting) (hstate : w.port.portState = .slave) :
    Port.Acts A w.port (issueDelayReq w).port := by
  let ts := (toTimestamp (getTime w).1 (getTime w).2).1
  let u := (toTimestamp (getTime w).1 (getTime w).2).2
  let r := netSendEvent delayReqLength (getTime w).1 (pack (msgPackDelayReq · · ts) u)
  let v : World :=
    { r.2 with
      clock := { r.2.clock with sentDelayReqSequenceId := r.2.clock.sentDelayReqSequenceId + 1 } }
  have heq : (issueDelayReq w).port = v.port := by
    show (if r.1.seconds ≠ 0 then { v with clock := { v.clock with
      timestampDelayReqSend := addTime r.1 v.clock.outboundLatency } } else v).port = _
    split <;> rfl
  obtain ⟨d, hd, hr⟩ :=
    port_packedTimed (w := w) (u := u) (o := .delayReq ts) rfl rfl .event false delayReqLength
    (getTime w).1
  rw [heq]
  refine .single (step_of_numbered (o := .delayReq ts) (r := r.2) (v := v) h hstate rfl hd hr ?_).2
  have hnext := next_delayReq r.2.clock
  rw [World.port, PtpClock.control, hnext]
  rfl

theorem issuePDelayReq_steps (h : w.port.Acting) : Port.Acts A w.port (issuePDelayReq w).port := by
  let ts := (toTimestamp (getTime w).1 (getTime w).2).1
  let u := (toTimestamp (getTime w).1 (getTime w).2).2
  let r := netSendPeerEvent pdelayReqLength (getTime w).1 (pack (msgPackPDelayReq · · ts) u)
  let v : World :=
    { r.2 with
      clock := { r.2.clock with sentPDelayReqSequenceId := r.2.clock.sentPDelayReqSequenceId + 1 } }
  have heq : (issuePDelayReq w).port = v.port := by
    show (if r.1.seconds ≠ 0 then { v with clock := { v.clock with
      pdelayT1 := addTime r.1 v.clock.outboundLatency } } else v).port = _
    split <;> rfl
  obtain ⟨d, hd, hr⟩ :=
    port_packedTimed (w := w) (u := u) (o := .pdelayReq ts) rfl rfl .event true pdelayReqLength
    (getTime w).1
  rw [heq]
  refine .single
    (step_of_numbered (o := .pdelayReq ts) (r := r.2) (v := v) h trivial rfl hd hr ?_).2
  have hnext := next_pdelayReq r.2.clock
  rw [World.port, PtpClock.control, hnext]
  rfl

theorem issuePDelayResp_steps (time : TimeInternal) (header : MsgHeader) (h : w.port.Acting)
    (ho : ∀ t, w.port.Sends (.pdelayResp header t)) :
    Port.Acts A w.port (issuePDelayResp time header w).2.port := by
  obtain ⟨d, hd, hv⟩ := port_packedTimed (w := w) (u := (toTimestamp time w).2)
    (o := .pdelayResp header (toTimestamp time w).1) rfl rfl .event true pdelayRespLength time
  exact .single (step_of_packed h (ho _) rfl hd hv)

/-- The answer leaves the port in its state. -/
theorem state_issuePDelayResp (w : World) (time : TimeInternal) (header : MsgHeader) :
    (issuePDelayResp time header w).2.port.portState = w.port.portState ∧
      (issuePDelayResp time header w).2.port.recommendedState = w.port.recommendedState := by
  obtain ⟨d, -, hv⟩ := port_packedTimed (w := w) (u := (toTimestamp time w).2)
    (o := .pdelayResp header (toTimestamp time w).1) rfl rfl .event true pdelayRespLength time
  have hv : (issuePDelayResp time header w).2.port = _ := hv
  rw [hv]
  exact ⟨rfl, rfl⟩

theorem issueDelayResp_steps {time : TimeInternal} {header : MsgHeader} (h : w.port.Acting)
    (ho : ∀ t, w.port.Sends (.delayResp header t)) :
    Port.Acts A w.port (issueDelayResp time header w).port := by
  obtain ⟨d, hd, hv⟩ := port_packed (w := w) (u := (toTimestamp time w).2)
    (o := .delayResp header (toTimestamp time w).1) rfl rfl .general false pdelayRespLength
  exact .single (step_of_packed h (ho _) rfl hd hv)

theorem issuePDelayRespFollowUp_steps {time : TimeInternal} {header : MsgHeader} (h : w.port.Acting)
    (ho : ∀ t, w.port.Sends (.pdelayRespFollowUp header t)) :
    Port.Acts A w.port (issuePDelayRespFollowUp time header w).port := by
  obtain ⟨d, hd, hv⟩ := port_packed (w := w) (u := (toTimestamp time w).2)
    (o := .pdelayRespFollowUp header (toTimestamp time w).1) rfl rfl .general true
    pdelayRespFollowUpLength
  exact .single (step_of_packed h (ho _) rfl hd hv)

theorem issueManagement_steps (h : w.port.Acting) (ho : ∀ t ip, w.port.Sends (.management t ip)) :
    Port.Acts A w.port (issueManagement w).port := by
  obtain ⟨d, hd, hv⟩ := port_packed (w := w) (u := (unsetTimestamp w).2)
    (o := .management
      ⟨{ (unsetTimestamp w).1.secondsField with lsb := w.clock.currentDS.offsetFromMaster.seconds },
        w.clock.currentDS.offsetFromMaster.nanoseconds⟩ w.ipaddr)
    rfl rfl .general false managementLength
  exact .single (step_of_packed h (ho _ _) rfl hd hv)

theorem issueDelayReqTimerExpired_steps (h : w.port.Acting) :
    Port.Acts A w.port (issueDelayReqTimerExpired w).port := by
  unfold issueDelayReqTimerExpired
  split
  · split
    · exact .refl
    · have hslave : w.port.portState = .slave := not_not.mp ‹_›
      let u := (expired delayreqIntervalTimer w).2
      let v :=
        startRandom delayreqIntervalTimer
          (pow2ms (u.clock.portDS.logMinDelayReqInterval.toInt + 1)) u
      have hreq : Port.Acts A v.port (issueDelayReq v).port := issueDelayReq_steps h hslave
      simp only
      split
      · exact hreq
      · exact .refl
  · let u := (expired pdelayreqIntervalTimer w).2
    let v :=
      startRandom pdelayreqIntervalTimer
        (pow2ms (u.clock.portDS.logMinPdelayReqInterval.toInt + 1)) u
    have hreq : Port.Acts A v.port (issuePDelayReq v).port := issuePDelayReq_steps h
    simp only
    split
    · exact hreq
    · exact .refl
  · exact .refl

end Send

/-! ### What is received -/

def World.received (w : World) : Received := ⟨w.clock.msgIbuf, w.clock.msgIbufLength⟩

theorem Port.Acting.inStep {p : Port} (h : p.Acting) (hstate : p.portState ≠ .faulty) : p.InStep :=
  h.resolve_right fun hup => hstate hup.2

/-- A message of that type is at hand. -/
structure Handling (A : Received → Prop) (ty : MessageType) (w : World) : Prop where
  acting : w.port.Acting
  header : w.clock.msgTmpHeader = w.received.header
  kind : A w.received
  type : w.received.type = some ty

theorem port_withClock (w : World) (c : PtpClock) :
    { w with clock := c }.port = { w.port with toControl := c.control } :=
  rfl

theorem control_addForeign (c : PtpClock) (header : MsgHeader) (announce : MsgAnnounce) :
    (addForeign c header announce).control =
      { c.control with foreignMasterDS := c.control.foreignMasterDS.add header announce } := rfl

/-- A slave announces what its master does. -/
theorem control_s1 (c : PtpClock) (header : MsgHeader) (announce : MsgAnnounce) :
    (s1 c header announce).control =
      { c.control with
        parent := header.sourcePortIdentity
        announced :=
          { c.control.announced with
            grandmasterPriority1 := announce.grandmasterPriority1
            grandmasterPriority2 := announce.grandmasterPriority2
            grandmasterIdentity := announce.grandmasterIdentity
            stepsRemoved := announce.stepsRemoved + 1 } } := by
  have hchanged := decisionDue_setFlag c.events masterClockChanged (by decide)
  have hdue : getFlag (s1 c header announce).events stateDecisionEvent =
      getFlag c.events stateDecisionEvent := by
    simp only [s1]
    split
    · rfl
    · exact hchanged
  rw [PtpClock.control, hdue]
  rfl

section Handle
variable {A : Received → Prop} {w : World}

theorem fault_steps (h : w.port.Acting) : Port.Acts A w.port (toState .faulty w).port := by
  rw [port_toState]
  exact .single (.fault h)

/-- An announcement of the parent is followed at once. -/
theorem port_followed {c : PtpClock} {header : MsgHeader} (announce : MsgAnnounce)
    (hc : c.control = { w.clock.control with decisionDue := true })
    (hparent : header.sourcePortIdentity = w.port.parent) :
    { w with clock := s1 c header announce }.port =
      { w.port with
        decisionDue := true
        announced :=
          { w.port.announced with
            grandmasterPriority1 := announce.grandmasterPriority1
            grandmasterPriority2 := announce.grandmasterPriority2
            grandmasterIdentity := announce.grandmasterIdentity
            stepsRemoved := announce.stepsRemoved + 1 } } := by
  rw [port_withClock w (s1 c header announce), control_s1, hc, hparent]
  rfl

theorem handleAnnounce_steps (h : Handling A .announce w) :
    Port.Acts A w.port
      (handleAnnounce
        (isSamePortIdentity w.clock.portDS.portIdentity w.clock.msgTmpHeader.sourcePortIdentity)
        w).port := by
  simp only [handleAnnounce]
  split
  · exact fault_steps h.acting
  have hlen : announceLength ≤ w.received.length := Nat.not_lt.mp ‹_›
  split
  · exact .refl
  have hself : w.received.sender ≠ w.port.portIdentity := by
    intro heq
    rw [h.header] at *
    exact ‹¬ _› (isSamePortIdentity_iff.mpr heq.symm)
  let announce := msgUnpackAnnounce w.clock.msgIbuf
  let c' := { w.clock with events := setFlag w.clock.events stateDecisionEvent, msgTmp := announce }
  have hdue : c'.control = { w.clock.control with decisionDue := true } := by
    have hset : getFlag (setFlag w.clock.events stateDecisionEvent) stateDecisionEvent = true :=
      getFlag_setFlag_self ..
    simp only [PtpClock.control, c', hset]
    rfl
  have hadd (hstate : w.port.portState ≠ .faulty) (c : PtpClock)
      (hc : c.control = { w.clock.control with decisionDue := true }) :
      Port.Acts A w.port { w with clock := addForeign c w.clock.msgTmpHeader announce }.port := by
    rw [port_withClock w (addForeign c _ _), control_addForeign, hc, h.header]
    exact .single (.foreign (h.acting.inStep hstate) h.kind h.type hlen hself)
  have hfollow (hstate : w.port.portState = .uncalibrated ∨ w.port.portState = .slave) :
      Port.Acts A w.port
      (if isFromCurrentParent w.clock then
        startTimer announceReceiptTimer (announceReceiptInterval w.clock)
          { w with clock := s1 c' w.clock.msgTmpHeader announce }
      else { w with clock := addForeign c' w.clock.msgTmpHeader announce }).port := by
    have hne : w.port.portState ≠ .faulty := by rcases hstate with hs | hs <;> rw [hs] <;> decide
    split
    · have hsame : w.clock.parentDS.parentPortIdentity = w.clock.msgTmpHeader.sourcePortIdentity :=
        isSamePortIdentity_iff.mp ‹_›
      have hparent : w.received.sender = w.port.parent := by
        rw [h.header] at hsame
        exact hsame.symm
      have hstep := Port.Act.parent (h.acting.inStep hne) hstate h.kind h.type hlen hself hparent
      rw [port_startTimer, port_followed announce hdue hsame.symm]
      exact .single hstep
    · exact hadd hne c' hdue
  split
  · exact .refl
  · exact .refl
  · exact .refl
  · exact hfollow (.inl ‹_›)
  · exact hfollow (.inr ‹_›)
  · have hstate : w.port.portState = .passive := ‹_›
    exact hadd (by rw [hstate]; decide)
      (startTimer announceReceiptTimer (announceReceiptInterval w.clock) { w with
        clock := c' }).clock hdue
  · have hstate : w.port.portState = .master := ‹_›
    exact hadd (by rw [hstate]; decide) c' hdue
  · have hstate : w.port.portState = .preMaster := ‹_›
    exact hadd (by rw [hstate]; decide) c' hdue
  · have hstate : w.port.portState = .listening := ‹_›
    exact hadd (by rw [hstate]; decide) c' hdue

/-- A message of the parent steers the clock. -/
theorem steer_steps {m : Received} {v : World} (h : w.port.InStep)
    (hstate : w.port.portState = .uncalibrated ∨ w.port.portState = .slave)
    (hm : A m) (htype : m.type = some .sync ∨ m.type = some .followUp)
    (hparent : m.sender = w.port.parent)
    (hv : v.port = w.port) :
    Port.Acts A w.port (issueDelayReqTimerExpired (updateClock v)).port := by
  obtain ⟨calls, hcalls⟩ := port_updateClock v
  rw [hv] at hcalls
  have hsteer : Port.Act A w.port (updateClock v).port := by
    rw [hcalls]
    exact .steer calls h hstate hm htype hparent
  have hacting : (updateClock v).port.Acting := by
    rw [hcalls]
    exact .inl (h.congr rfl rfl)
  exact .trans (.single hsteer) (issueDelayReqTimerExpired_steps hacting)

theorem Handling.parent {ty : MessageType} (h : Handling A ty w)
    (hparent : isFromCurrentParent w.clock = true) :
    w.received.sender = w.port.parent := by
  have hsame : w.clock.parentDS.parentPortIdentity = w.clock.msgTmpHeader.sourcePortIdentity :=
    isSamePortIdentity_iff.mp hparent
  rw [h.header] at hsame
  exact hsame.symm

theorem handleSync_steps {time : TimeInternal} {isFromSelf : Bool} (h : Handling A .sync w) :
    Port.Acts A w.port (handleSync time isFromSelf w).port := by
  have hfollow (hstate : w.port.portState = .uncalibrated ∨ w.port.portState = .slave)
      (hparent : isFromCurrentParent w.clock = true) {v : World} (hv : v.port = w.port) :
      Port.Acts A w.port (issueDelayReqTimerExpired (updateClock v)).port := by
    have hne : w.port.portState ≠ .faulty := by rcases hstate with hs | hs <;> rw [hs] <;> decide
    exact steer_steps (h.acting.inStep hne) hstate h.kind (.inl h.type) (h.parent hparent) hv
  simp only [handleSync]
  split
  · exact fault_steps h.acting
  split
  case h_3 => exact issueDelayReqTimerExpired_steps h.acting
  case h_4 => exact .refl
  all_goals
    have hstate : w.port.portState = .uncalibrated ∨ w.port.portState = .slave := by
      first | exact .inl ‹_› | exact .inr ‹_›
    split
    · exact .refl
    split
    · exact .refl
    have hparent : isFromCurrentParent w.clock = true := by
      have hnot : ¬ (!isFromCurrentParent w.clock) = true := ‹_›
      simpa only [Bool.not_eq_true', Bool.not_eq_false] using hnot
    split
    · exact .refl
    · apply hfollow hstate hparent
      rw [port_withClock (unsetTime w).2 (updateOffset _ _ _ _), control_updateOffset]
      rfl

theorem handleFollowUp_steps {isFromSelf : Bool} (h : Handling A .followUp w) :
    Port.Acts A w.port (handleFollowUp isFromSelf w).port := by
  simp only [handleFollowUp]
  split
  · exact fault_steps h.acting
  split
  · exact .refl
  split
  case h_3 => exact issueDelayReqTimerExpired_steps h.acting
  case h_4 => exact .refl
  all_goals
    have hstate : w.port.portState = .uncalibrated ∨ w.port.portState = .slave := by
      first | exact .inl ‹_› | exact .inr ‹_›
    split
    · exact .refl
    split
    · exact .refl
    have hparent : isFromCurrentParent w.clock = true := by
      have hnot : ¬ (!isFromCurrentParent w.clock) = true := ‹_›
      simpa only [Bool.not_eq_true', Bool.not_eq_false] using hnot
    split
    · exact .refl
    · have hne : w.port.portState ≠ .faulty := by rcases hstate with hs | hs <;> rw [hs] <;> decide
      apply steer_steps (h.acting.inStep hne) hstate h.kind (.inr h.type) (h.parent hparent)
      rw [port_withClock (unsetTime w).2 (updateOffset _ _ _ _), control_updateOffset]
      rfl

theorem handleDelayReq_steps {time : TimeInternal} (h : Handling A .delayReq w)
    (hrec : w.port.portState = .master →
    w.port.recommendedState = .master) : Port.Acts A w.port (handleDelayReq time w).port := by
  simp only [handleDelayReq]
  split
  · split
    · exact fault_steps h.acting
    split
    · exact issueDelayResp_steps h.acting fun _ => ⟨‹_›, hrec ‹_›⟩
    · exact .refl
  · exact .refl

theorem control_logMinDelayReqInterval (c : PtpClock) (log : BitVec 8) :
    { c with portDS := { c.portDS with logMinDelayReqInterval := log } }.control = c.control := rfl

/-- A step that changes nothing that counts. -/
theorem steps_of_eq {v : World} (hv : v.port = w.port) : Port.Acts A w.port v.port := by
  rw [hv]

theorem handleDelayResp_steps (h : Handling A .delayResp w) :
    Port.Acts A w.port (handleDelayResp w).port := by
  simp only [handleDelayResp]
  split
  · split
    · exact fault_steps h.acting
    split
    · split
      · apply steps_of_eq
        rw [port_withClock w _, control_logMinDelayReqInterval, control_updateDelay]
        rfl
      · exact .refl
    · split
      · apply steps_of_eq
        rw [port_withClock w _, control_logMinDelayReqInterval, control_updateDelay]
        rfl
      · exact .refl
    · exact .refl
  · exact .refl

theorem respond_steps {time : TimeInternal} {header : MsgHeader} (h : w.port.Acting)
    (hstate : w.port.portState = .passive ∨ w.port.portState = .slave ∨
      w.port.portState = .master) :
    Port.Acts A w.port
      (let (time, w) := issuePDelayResp time header w
       if time.seconds ≠ 0 ∧ getFlag header.flagField0 flag0TwoStep then
         issuePDelayRespFollowUp time header w
       else w).port := by
  have hresp := issuePDelayResp_steps (A := A) time header h fun _ => hstate
  obtain ⟨hs, hr⟩ := state_issuePDelayResp w time header
  generalize issuePDelayResp time header w = r at *
  obtain ⟨time', v⟩ := r
  simp only at hs hr hresp ⊢
  split
  · refine hresp.trans (issuePDelayRespFollowUp_steps (h.congr hs hr) fun _ => ?_)
    rw [Port.Sends, hs]
    exact hstate
  · exact hresp

theorem handlePDelayReq_steps {time : TimeInternal} {isFromSelf : Bool}
    (h : Handling A .pdelayReq w) :
    Port.Acts A w.port (handlePDelayReq time isFromSelf w).port := by
  unfold handlePDelayReq
  simp only []
  split
  · split
    · exact fault_steps h.acting
    split
    · split
      · exact .refl
      · exact respond_steps h.acting (.inl ‹_›)
    · split
      · exact .refl
      · exact respond_steps h.acting (.inr (.inl ‹_›))
    · split
      · exact .refl
      · exact respond_steps h.acting (.inr (.inr ‹_›))
    · exact .refl
  · exact .refl

theorem control_pdelayTimes (c : PtpClock) (waiting : Bool) (t4 t2 correctionField : TimeInternal) :
    { c with
      waitingForPDelayRespFollowUp := waiting, pdelayT4 := t4, pdelayT2 := t2
      correctionFieldPDelayResp := correctionField }.control = c.control := rfl

theorem control_waitingForPDelayRespFollowUp (c : PtpClock) (waiting : Bool) :
    { c with waitingForPDelayRespFollowUp := waiting }.control = c.control := rfl

theorem handlePDelayResp_steps {time : TimeInternal} {isFromSelf : Bool}
    (h : Handling A .pdelayResp w) :
    Port.Acts A w.port (handlePDelayResp time isFromSelf w).port := by
  simp only [handlePDelayResp]
  split
  · split
    · exact fault_steps h.acting
    split
    any_goals
      split
      · exact .refl
      split
      · split
        · apply steps_of_eq
          rw [port_withClock (unsetTime w).2 _, control_pdelayTimes]
          rfl
        · apply steps_of_eq
          rw [port_withClock w (updatePeerDelay _ _ _), control_updatePeerDelay]
          rfl
      · exact .refl
    · exact .refl
  · exact .refl

theorem handlePDelayRespFollowUp_steps (h : Handling A .pdelayRespFollowUp w) :
    Port.Acts A w.port (handlePDelayRespFollowUp w).port := by
  have hcontrol (t : TimeInternal) : { w.clock with pdelayT3 := t }.control = w.clock.control := rfl
  simp only [handlePDelayRespFollowUp]
  split
  · split
    · exact fault_steps h.acting
    split
    any_goals
      split
      · exact .refl
      split
      · apply steps_of_eq
        rw [port_withClock (unsetTime w).2 _, control_waitingForPDelayRespFollowUp,
          control_updatePeerDelay, hcontrol]
        rfl
      · exact .refl
    · exact .refl
  · exact .refl

theorem handleManagement_steps {isFromSelf : Bool} (h : Handling A .management w) :
    Port.Acts A w.port (handleManagement isFromSelf w).port := by
  simp only [handleManagement]
  split
  · exact fault_steps h.acting
  split
  · split
    · exact .refl
    · exact .refl
  · exact .refl

end Handle

end Stm32F4.Ptp
