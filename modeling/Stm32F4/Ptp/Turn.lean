import Mathlib.Algebra.Order.Ring.Int
import Stm32F4.Lib.Run
import Stm32F4.Ptp.Port

/-! Turns and runs.

A turn of `doState` decides and follows the recommendation, which is one step of the abstract port,
and then acts as its state has it. Receiving, sending and steering are the steps that were proved of
the handlers, and a timeout is one more (`doState_steps`). What arrives between turns is one too, so
from power-up on every run of a port is a run of the abstract one (`run_steps`), and it is enough to
prove of a step what a run is to keep. -/
namespace Stm32F4.Ptp
open Ethernetif (Pbuf totLen)
open Lib

/-! ### A turn -/

section Turn
variable {A : Received → Prop} {w : World}

theorem not_headerLength_le_zero : ¬ headerLength ≤ 0 := by decide

/-- What a queue gives is of the kind `A`. -/
theorem netRecv_carries {q : BufQueue} (buf : Nat → UInt8) (hq : ∀ i, Port.Carries A (q.pbuf i)) :
    (netRecv buf q).queue.pbuf = q.pbuf ∧
      (headerLength ≤ (netRecv buf q).length →
        A ⟨(netRecv buf q).buf, (netRecv buf q).length⟩) := by
  have hpbuf := pbuf_netQGet q
  cases hget : (netQGet q).2 with
  | none =>
    have hget : netQGet q = ((netQGet q).1, none) := Prod.ext rfl hget
    rw [netRecv_of_none hget]
    exact ⟨hpbuf, fun hlen => absurd hlen not_headerLength_le_zero⟩
  | some p =>
    have hp : p = q.pbuf q.get := by
      rw [netQGet] at hget
      split at hget
      · contradiction
      · exact (Option.some.inj hget).symm
    have hget : netQGet q = ((netQGet q).1, some p) := Prod.ext rfl hget
    rw [netRecv_of_get hget]
    split
    · exact ⟨hpbuf, fun hlen => absurd hlen not_headerLength_le_zero⟩
    · refine ⟨hpbuf, fun hlen => ?_⟩
      rw [hp] at *
      exact hq _ buf hlen (Nat.not_lt.mp ‹_›)

/-- What is taken in changes the port only if it is handled. -/
theorem control_recv (c : PtpClock) (netPath : NetPath) (buf : Nat → UInt8) (length : Nat)
    (hevent : netPath.eventQ.pbuf = c.netPath.eventQ.pbuf)
    (hgeneral : netPath.generalQ.pbuf = c.netPath.generalQ.pbuf) :
    { c with netPath := netPath, msgIbuf := buf, msgIbufLength := length }.control = c.control :=
  control_netPath { c with msgIbuf := buf, msgIbufLength := length } netPath hevent hgeneral

theorem port_recv (netPath : NetPath) (buf : Nat → UInt8) (length : Nat) (timed : Bool)
    (time : TimeInternal)
    (hevent : netPath.eventQ.pbuf = w.clock.netPath.eventQ.pbuf)
    (hgeneral : netPath.generalQ.pbuf = w.clock.netPath.generalQ.pbuf) :
    let v : World :=
      { w with
        clock := { w.clock with netPath := netPath, msgIbuf := buf, msgIbufLength := length } }
    let r := if timed then getTime v else (time, v)
    r.2.port = w.port ∧ r.2.received = ⟨buf, length⟩ := by
  have hcontrol := control_recv w.clock netPath buf length hevent hgeneral
  cases timed with
  | true =>
    refine ⟨?_, rfl⟩
    rw [if_pos rfl, port_getTime, port_withClock w _, hcontrol]
    rfl
  | false =>
    refine ⟨?_, rfl⟩
    rw [if_neg Bool.false_ne_true, port_withClock w _, hcontrol]
    rfl

theorem netRecv_port (port : MessagePort) (time : TimeInternal) (hq : w.port.Queued A) :
    (World.netRecv port time w).2.port = w.port ∧
      (headerLength ≤ (World.netRecv port time w).2.clock.msgIbufLength →
        A (World.netRecv port time w).2.received) := by
  cases port with
  | event =>
    obtain ⟨hpbuf, hkind⟩ :=
      netRecv_carries (q := w.clock.netPath.eventQ) w.clock.msgIbuf fun i => (hq i).1
    let r := netRecvEvent w.clock.netPath w.clock.msgIbuf
    obtain ⟨hport, hreceived⟩ :=
      port_recv (w := w) { w.clock.netPath with eventQ := r.queue } r.buf r.length r.timed time
      hpbuf rfl
    have hreceived : (World.netRecv .event time w).2.received = ⟨r.buf, r.length⟩ := hreceived
    refine ⟨hport, fun hlen => ?_⟩
    rw [hreceived]
    exact hkind (hlen.trans_eq (congrArg Received.length hreceived))
  | general =>
    obtain ⟨hpbuf, hkind⟩ :=
      netRecv_carries (q := w.clock.netPath.generalQ) w.clock.msgIbuf fun i => (hq i).2
    let r := netRecvGeneral w.clock.netPath w.clock.msgIbuf
    obtain ⟨hport, hreceived⟩ :=
      port_recv (w := w) { w.clock.netPath with generalQ := r.queue } r.buf r.length r.timed time
      rfl hpbuf
    have hreceived : (World.netRecv .general time w).2.received = ⟨r.buf, r.length⟩ := hreceived
    refine ⟨hport, fun hlen => ?_⟩
    rw [hreceived]
    exact hkind (hlen.trans_eq (congrArg Received.length hreceived))

theorem receive_port (hq : w.port.Queued A) : (receive w).2.port = w.port ∧
    (headerLength ≤ (receive w).2.clock.msgIbufLength → A (receive w).2.received) := by
  obtain ⟨hport, hkind⟩ := netRecv_port .event ⟨0, 0⟩ hq
  simp only [receive]
  generalize World.netRecv .event ⟨0, 0⟩ w = r at *
  obtain ⟨time, v⟩ := r
  simp only at hport hkind ⊢
  split
  · obtain ⟨hport', hkind'⟩ := netRecv_port (w := v) .general time (hport ▸ hq)
    exact ⟨hport'.trans hport, hkind'⟩
  · exact ⟨hport, hkind⟩

theorem dispatch_steps (time : TimeInternal) (h : w.port.Acting)
    (hrec : w.port.portState = .master → w.port.recommendedState = .master) (hkind : A w.received) :
    Port.Acts A w.port (dispatch time w).port := by
  simp only [dispatch]
  obtain ⟨header, hheader⟩ : ∃ header, msgUnpackHeader w.clock.msgIbuf = header := ⟨_, rfl⟩
  rw [hheader]
  let v : World := { w with clock := { w.clock with msgTmpHeader := header } }
  have hport : w.port = v.port := rfl
  have hhandling (ty : MessageType) (hty : typeOf header.messageType = some ty) : Handling A ty v :=
    ⟨h.congr rfl rfl, hheader.symm, hkind, by rw [← hty, ← hheader]; rfl⟩
  rw [hport] at hrec ⊢
  split
  · exact .refl
  split
  · exact .refl
  split
  · exact handleAnnounce_steps (hhandling .announce ‹_›)
  · exact handleSync_steps (hhandling .sync ‹_›)
  · exact handleFollowUp_steps (hhandling .followUp ‹_›)
  · exact handleDelayReq_steps (hhandling .delayReq ‹_›) hrec
  · exact handlePDelayReq_steps (hhandling .pdelayReq ‹_›)
  · exact handleDelayResp_steps (hhandling .delayResp ‹_›)
  · exact handlePDelayResp_steps (hhandling .pdelayResp ‹_›)
  · exact handlePDelayRespFollowUp_steps (hhandling .pdelayRespFollowUp ‹_›)
  · exact handleManagement_steps (hhandling .management ‹_›)
  · exact .refl

theorem handle_steps (h : w.port.Acting)
    (hrec : w.port.portState = .master → w.port.recommendedState = .master)
    (hq : w.port.Queued A) : Port.Acts A w.port (handle w).port := by
  obtain ⟨hport, hkind⟩ := receive_port hq
  unfold handle
  generalize receive w = r at *
  obtain ⟨time, v⟩ := r
  simp only at hport hkind ⊢
  split
  · exact .refl
  split
  · exact steps_of_eq hport
  let u : World := { v with clock := { v.clock with messageActivity := true } }
  have hu : u.port = w.port := hport
  have hacting : u.port.Acting := hu ▸ h
  rw [← hu]
  split
  · exact fault_steps hacting
  · have hlen : headerLength ≤ u.clock.msgIbufLength := Nat.not_lt.mp ‹_›
    exact dispatch_steps time hacting (hu ▸ hrec) (hkind hlen)

end Turn

/-! ### Decisions -/

section Decide
variable {A : Received → Prop} {w : World}

theorem control_m1 (c : PtpClock) : (m1 c).control =
    { c.control with parent := ⟨c.defaultDS.clockIdentity, 0⟩, announced := c.control.own } := rfl

/-- What a decision comes to. -/
theorem bmc_cases (c : PtpClock) :
    let r := c.foreignMasterDS.records (bmcBest c)
    let k : Control :=
      { c.control with foreignMasterDS := { c.foreignMasterDS with best := bmcBest c } }
    ((bmc c).1.control = k ∧ ((bmc c).2 = .listening ∨ (bmc c).2 = .passive)) ∨
      ((bmc c).1.control = { k with parent := ⟨k.defaultDS.clockIdentity, 0⟩, announced := k.own } ∧
        (bmc c).2 = .master) ∨
      ((bmc c).1.control =
          { k with
            parent := r.header.sourcePortIdentity
            announced :=
              { k.announced with
                grandmasterPriority1 := r.announce.grandmasterPriority1
                grandmasterPriority2 := r.announce.grandmasterPriority2
                grandmasterIdentity := r.announce.grandmasterIdentity
                stepsRemoved := r.announce.stepsRemoved + 1 } } ∧
        (bmc c).2 = .slave) := by
  intro r k
  simp only [bmc, bmcStateDecision]
  split
  · exact .inl ⟨rfl, .inl rfl⟩
  · split
    · split
      · exact .inr (.inl ⟨rfl, rfl⟩)
      · exact .inl ⟨rfl, .inr rfl⟩
    · split
      · exact .inr (.inl ⟨rfl, rfl⟩)
      · exact .inr (.inr ⟨control_s1 .., rfl⟩)

/-- A decision leaves the state and the rest of the port alone. -/
theorem control_bmc (c : PtpClock) : ∃ parent announced, (bmc c).1.control =
    { c.control with
      foreignMasterDS := { c.foreignMasterDS with best := bmcBest c }, parent := parent,
      announced := announced } := by
  rcases bmc_cases c with ⟨h, -⟩ | ⟨h, -⟩ | ⟨h, -⟩
  · exact ⟨_, _, h⟩
  · exact ⟨_, _, h⟩
  · exact ⟨_, _, h⟩

theorem decideState_decided (h : w.port.Up) : Port.Decided w.port (decideState w).port := by
  cases hdue : getFlag w.clock.events stateDecisionEvent with
  | false =>
    have hsame : decideState w = w := by
      simp only [decideState, hdue]
      split <;> rfl
    rw [hsame]
    exact .not_due (.inl hdue)
  | true =>
    let c := { w.clock with events := clearFlag w.clock.events stateDecisionEvent }
    have hc : c.control = { w.port.toControl with decisionDue := false } := by
      have hclear := getFlag_clearFlag_decision w.clock.events
      simp only [PtpClock.control, c, hclear]
      rfl
    by_cases hfaulty : w.clock.portDS.portState = .faulty
    · have hsame : decideState w = w := by simp only [decideState, hfaulty]
      rw [hsame]
      exact .not_due (.inr hfaulty)
    · have hport : (decideState w).port = { w.port with toControl := { (bmc c).1.control with
          recommendedState := Port.recommendation (bmc c).1.control (bmc c).2 } } := by
        have hbody : decideState w =
            recommend (Port.recommendation (bmc c).1.control (bmc c).2)
              { w with clock := (bmc c).1 } := by
          cases hstate : w.clock.portDS.portState with
          | initializing => exact absurd hstate h.initializing
          | disabled => exact absurd hstate h.disabled
          | faulty => exact absurd hstate hfaulty
          | _ =>
            simp only [decideState, hstate, hdue, if_true]
            generalize bmc _ = r
            obtain ⟨d, recommended⟩ := r
            cases recommended <;> rfl
        rw [hbody]
        generalize bmc c = r
        rfl
      rw [hport]
      exact .due hdue hfaulty hc

theorem Port.enter_self {p : Port} {state : PortState} (hstate : p.portState = state)
    (hinit : state ≠ .initializing)
    (hrec : state = .listening → p.recommendedState = .listening) : p.enter state = p := by
  obtain ⟨⟨⟩⟩ := p
  cases state with
  | initializing => exact absurd rfl hinit
  | _ => simp_all [Port.enter]

theorem port_clearEvent {mask : BitVec 32} (h : mask.getLsbD 6 = false) :
    (clearEvent mask w).port = w.port := by
  have hdue := decisionDue_clearFlag w.clock.events mask h
  rw [clearEvent, port_withClock w _, control_events _ _ hdue]
  rfl

/-- What follows a recommendation. -/
theorem followRecommended_follows (h : w.port.Up) : ∃ state,
    Port.Follows w.port.recommendedState w.port.portState state ∧
      (followRecommended w).port = w.port.enter state := by
  have hstay {state : PortState} (hs : w.port.portState = state)
      (hrec : state = .listening → w.port.recommendedState = .listening) :
      w.port = w.port.enter state := by
    refine (Port.enter_self hs ?_ hrec).symm
    rintro rfl
    exact h.initializing hs
  unfold followRecommended
  split
  · -- A master qualifies first.
    have hrec : w.port.recommendedState = .master := ‹_›
    rw [hrec]
    split
    · have hs : w.port.portState = .preMaster := ‹_›
      rw [hs]
      simp only
      split
      · exact ⟨.master, .inr rfl, port_toState ..⟩
      · exact ⟨.preMaster, .inl rfl, hstay hs (by simp)⟩
    · have hs : w.port.portState = .master := ‹_›
      rw [hs]
      exact ⟨.master, rfl, hstay hs (by simp)⟩
    · have hpre : w.port.portState ≠ .preMaster := ‹_›
      have hmaster : w.port.portState ≠ .master := ‹_›
      refine ⟨.preMaster, ?_, port_toState ..⟩
      cases hs : w.port.portState with
      | preMaster => exact absurd hs hpre
      | master => exact absurd hs hmaster
      | _ => rfl
  · have hrec : w.port.recommendedState = .passive := ‹_›
    rw [hrec]
    refine ⟨.passive, rfl, ?_⟩
    split
    · exact port_toState ..
    · exact hstay (not_not.mp ‹_›) (by simp)
  · have hrec : w.port.recommendedState = .slave := ‹_›
    rw [hrec]
    split
    · have hs : w.port.portState = .uncalibrated := ‹_›
      have hclear (v : World) :
          (if getFlag v.clock.events masterClockChanged then clearEvent masterClockChanged v
          else v).port = v.port := by
        split
        · exact port_clearEvent (by decide)
        · rfl
      rw [hs]
      simp only [hclear]
      split
      · refine ⟨.slave, .inr (.inl ⟨rfl, rfl⟩), ?_⟩
        rw [port_toState, port_clearEvent (by decide)]
      · exact ⟨.uncalibrated, .inl rfl, hstay hs (by simp)⟩
    · have hs : w.port.portState = .slave := ‹_›
      have hfault : (if getFlag w.clock.events synchronizationFault then
          toState .uncalibrated (clearEvent synchronizationFault w) else w).port =
            w.port.enter .uncalibrated ∨
          (if getFlag w.clock.events synchronizationFault then
          toState .uncalibrated (clearEvent synchronizationFault w) else w).port = w.port := by
        split
        · exact .inl (by rw [port_toState, port_clearEvent (by decide)])
        · exact .inr rfl
      rw [hs]
      simp only
      generalize (if getFlag w.clock.events synchronizationFault then
        toState .uncalibrated (clearEvent synchronizationFault w) else w) = v at *
      split
      · refine ⟨.uncalibrated, .inl rfl, ?_⟩
        rw [port_toState, port_clearEvent (by decide)]
        rcases hfault with hv | hv <;> rw [hv]
        rfl
      · rcases hfault with hv | hv
        · exact ⟨.uncalibrated, .inl rfl, hv⟩
        · exact ⟨.slave, .inr (.inr ⟨rfl, rfl⟩), hv.trans (hstay hs (by simp))⟩
    · exact ⟨.uncalibrated, .inl rfl, port_toState ..⟩
  · have hrec : w.port.recommendedState = .listening := ‹_›
    rw [hrec]
    refine ⟨.listening, rfl, ?_⟩
    split
    · exact port_toState ..
    · exact hstay (not_not.mp ‹_›) fun _ => hrec
  · rcases h.recommended with hrec | hrec | hrec | hrec
    all_goals exact absurd hrec (by assumption)

end Decide

/-! ### Turns -/

namespace Port
variable {A : Received → Prop} {p q : Port}

theorem InStep.up (h : p.InStep) : p.Up := by
  rw [InStep] at h
  split at h
  · exact ⟨.inl ‹_›, by rw [h]; decide, by rw [h]; decide⟩
  · exact ⟨.inr (.inl ‹_›), by rw [h]; decide, by rw [h]; decide⟩
  · refine ⟨.inr (.inr (.inl ‹_›)), ?_, ?_⟩ <;> rcases h with h | h <;> rw [h] <;> decide
  · refine ⟨.inr (.inr (.inr ‹_›)), ?_, ?_⟩ <;> rcases h with h | h <;> rw [h] <;> decide
  · exact absurd h not_false

theorem Acting.up (h : p.Acting) : p.Up := by
  rcases h with h | h
  · exact h.up
  · exact h.1

/-- Only who is to be a master is one. -/
theorem Acting.master (h : p.Acting) (hstate : p.portState = .master) :
    p.recommendedState = .master := by
  have hin := h.inStep (by rw [hstate]; decide)
  rw [InStep, hstate] at hin
  split at hin
  · contradiction
  · contradiction
  · rcases hin with hin | hin <;> contradiction
  · assumption
  · exact absurd hin not_false

/-- What is kept as long as the port stays in its state. -/
structure Kept (p q : Port) : Prop where
  state : q.portState = p.portState ∨ q.portState = .faulty
  recommended : q.recommendedState = p.recommendedState
  slots : q.slots = p.slots
  acting : q.Acting

theorem Kept.of_eq (h : p.Acting) (hstate : q.portState = p.portState)
    (hrec : q.recommendedState = p.recommendedState)
    (hslots : q.slots = p.slots) : Kept p q := ⟨.inl hstate, hrec, hslots, h.congr hstate hrec⟩

theorem Act.kept (h : Act A p q) (hacting : p.Acting) : Kept p q := by
  cases h with
  | fault _ =>
    refine ⟨.inr rfl, rfl, rfl, .inr ⟨⟨hacting.up.recommended, ?_, ?_⟩, rfl⟩⟩ <;> exact nofun
  | foreign _ _ _ _ _ => exact .of_eq hacting rfl rfl rfl
  | parent _ _ _ _ _ _ _ => exact .of_eq hacting rfl rfl rfl
  | send _ _ _ _ _ _ => exact .of_eq hacting rfl rfl rfl
  | steer _ _ _ _ _ _ => exact .of_eq hacting rfl rfl rfl

theorem Acts.kept (h : Acts A p q) (hacting : p.Acting) : Kept p q := by
  induction h with
  | refl => exact .of_eq hacting rfl rfl rfl
  | tail _ hact ih =>
    have hstep := hact.kept ih.acting
    refine ⟨?_, hstep.recommended.trans ih.recommended, hstep.slots.trans ih.slots, hstep.acting⟩
    rcases hstep.state with hs | hs
    · rw [hs]
      exact ih.state
    · exact .inr hs

theorem Acts.steps (h : Acts A p q) : Steps A p q := by
  refine Relation.ReflTransGen.mono ?_ _ _ h
  exact fun _ _ => .act

theorem Queued.congr (h : p.Queued A) (hslots : q.slots = p.slots) : q.Queued A := by
  intro i
  rw [hslots]
  exact h i

/-- A port that follows a recommendation is in step with it. -/
theorem Follows.inStep {state : PortState} (h : Follows q.recommendedState q.portState state) :
    (q.enter state).InStep := by
  unfold Follows at h
  split at h
  · have hrec : q.recommendedState = .master := ‹_›
    have hstate : state = .preMaster ∨ state = .master := by
      split at h
      · exact h
      · exact .inr h
      · exact .inl h
    rcases hstate with rfl | rfl <;> simp [InStep, enter, hrec]
  · have hrec : q.recommendedState = .passive := ‹_›
    rw [h]
    simp [InStep, enter, hrec]
  · have hrec : q.recommendedState = .slave := ‹_›
    have hstate : state = .uncalibrated ∨ state = .slave := by
      rcases h with h | h | h
      · exact .inl h
      · exact .inr h.2
      · exact .inr h.2
    rcases hstate with rfl | rfl <;> simp [InStep, enter, hrec]
  · rw [h]
    simp [InStep, enter]
  · exact absurd h not_false

end Port

section Turn
variable {A : Received → Prop} {w : World}

theorem port_announceTimeout : (announceTimeout w).port = w.port.timedOut := by
  have honly : slaveOnlyClock (forgetForeign w.clock) = w.port.slaveOnly := rfl
  simp only [announceTimeout, Port.timedOut, honly]
  split
  · rw [port_toState]
    rfl
  · have hstate : (forgetForeign w.clock).portDS.portState = w.port.portState := rfl
    simp only [hstate]
    split
    · rw [port_toState]
      rfl
    · rfl

theorem actPassive_steps (h : w.port.Acting) (hmaster : w.port.portState ≠ .master)
    (hpre : w.port.portState ≠ .preMaster)
    (hq : w.port.Queued A) : Port.Steps A w.port (actPassive w).port := by
  have hport := port_expired w announceReceiptTimer
  simp only [actPassive]
  generalize expired announceReceiptTimer w = r at *
  obtain ⟨due, v⟩ := r
  simp only at hport ⊢
  rw [← hport] at h hmaster hpre hq ⊢
  split
  · rw [port_announceTimeout]
    exact .single (.timeout h hmaster hpre)
  · exact (handle_steps h h.master hq).steps

theorem actManagement_acts (h : w.port.Acting)
    (hstate : w.port.portState = .listening ∨ w.port.portState = .uncalibrated ∨
      w.port.portState = .slave)
    (hq : w.port.Queued A) : Port.Acts A w.port (actManagement w).port := by
  have hport := port_expired w managementIntervalTimer
  simp only [actManagement]
  generalize expired managementIntervalTimer w = r at *
  obtain ⟨due, v⟩ := r
  simp only at hport ⊢
  rw [← hport] at h hstate hq ⊢
  split
  · have hsent := issueManagement_steps (A := A) h fun _ _ => hstate
    have hkept := hsent.kept h
    exact hsent.trans (handle_steps hkept.acting hkept.acting.master (hq.congr hkept.slots))
  · exact .refl

theorem actMaster_acts (h : w.port.InStep) (hstate : w.port.portState = .master)
    (hq : w.port.Queued A) :
    Port.Acts A w.port (actMaster w).port := by
  have hacting : w.port.Acting := .inl h
  have hrec := hacting.master hstate
  simp only [actMaster]
  have hport := port_expired w syncIntervalTimer
  generalize expired syncIntervalTimer w = r at *
  obtain ⟨due, w₁⟩ := r
  simp only at hport ⊢
  -- A `Sync` leaves the port a master.
  obtain ⟨hsync, hs, hr⟩ : Port.Acts A w.port (if due then issueSync w₁ else w₁).port ∧
      (if due then issueSync w₁ else w₁).port.portState = .master ∧
      (if due then issueSync w₁ else w₁).port.recommendedState = .master := by
    rw [← hport] at hacting hstate hrec ⊢
    split
    · exact ⟨issueSync_steps hacting ⟨hstate, hrec⟩, (state_issueSync w₁).1.trans hstate,
        (state_issueSync w₁).2.trans hrec⟩
    · exact ⟨.refl, hstate, hrec⟩
  have hkept := hsync.kept hacting
  generalize (if due then issueSync w₁ else w₁) = w₂ at *
  have hport₂ := port_expired w₂ announceIntervalTimer
  generalize expired announceIntervalTimer w₂ = r at *
  obtain ⟨due', w₃⟩ := r
  simp only at hport₂ ⊢
  have hannounce : Port.Acts A w₂.port (if due' then issueAnnounce w₃ else w₃).port := by
    have hacting₂ := hkept.acting
    rw [← hport₂] at hacting₂ hs hr ⊢
    split
    · exact issueAnnounce_steps hacting₂ ⟨hs, hr⟩
    · exact .refl
  have hkept' := hannounce.kept hkept.acting
  generalize (if due' then issueAnnounce w₃ else w₃) = w₄ at *
  have hhandle :=
    handle_steps hkept'.acting hkept'.acting.master (hq.congr (hkept'.slots.trans hkept.slots))
  have hlast := hhandle.kept hkept'.acting
  exact hsync.trans (hannounce.trans (hhandle.trans (issueDelayReqTimerExpired_steps hlast.acting)))

theorem act_steps (h : w.port.InStep) (hq : w.port.Queued A) :
    Port.Steps A w.port (act w).port := by
  have hacting : w.port.Acting := .inl h
  have hpassive (v : World) (hv : Port.Acts A w.port v.port) (hmaster : w.port.portState ≠ .master)
      (hpre : w.port.portState ≠ .preMaster) : Port.Steps A w.port (actPassive v).port := by
    have hkept := hv.kept hacting
    refine hv.steps.trans (actPassive_steps hkept.acting ?_ ?_ (hq.congr hkept.slots))
    · rcases hkept.state with hs | hs <;> rw [hs]
      · exact hmaster
      · decide
    · rcases hkept.state with hs | hs <;> rw [hs]
      · exact hpre
      · decide
  unfold act
  split
  · exact absurd ‹_› h.up.initializing
  · exact absurd ‹_› fun hs => by
      have hin := h
      rw [Port.InStep, show w.port.portState = .faulty from hs] at hin
      split at hin <;> simp_all
  · exact absurd ‹_› h.up.disabled
  · have hs : w.port.portState = .listening := ‹_›
    exact hpassive _ (actManagement_acts hacting (.inl hs) hq) (by rw [hs]; decide)
      (by rw [hs]; decide)
  · have hs : w.port.portState = .uncalibrated := ‹_›
    exact hpassive _ (actManagement_acts hacting (.inr (.inl hs)) hq) (by rw [hs]; decide)
      (by rw [hs]; decide)
  · have hs : w.port.portState = .slave := ‹_›
    exact hpassive _ (actManagement_acts hacting (.inr (.inr hs)) hq) (by rw [hs]; decide)
      (by rw [hs]; decide)
  · have hs : w.port.portState = .passive := ‹_›
    exact hpassive w .refl (by rw [hs]; decide) (by rw [hs]; decide)
  · exact (actMaster_acts h ‹_› hq).steps
  · exact .refl

/-- A start of the network is one of the control blocks. -/
theorem port_netInit (u : World) :
    (World.netInit u).2.port = { u.port with pcbs := (Ptp.netInit (u.env.starts 0) u.pcbs).1 } := by
  simp only [World.netInit]
  generalize Ptp.netInit (u.env.starts 0) u.pcbs = r
  obtain ⟨pcbs, ok⟩ := r
  cases ok <;> rfl

theorem act_off (h : w.port.Off) : Port.Steps A w.port (act w).port := by
  obtain ⟨-, hstate | hstate⟩ := id h
  · have hport := port_netInit { w with pcbs := netShutdown w.pcbs }
    have hact : act w =
        if (doInit w).1 then toState .listening (doInit w).2 else toState .faulty (doInit w).2 := by
      rw [act, show w.clock.portDS.portState = .initializing from hstate]
    rw [hact]
    simp only [doInit]
    generalize World.netInit { w with pcbs := netShutdown w.pcbs } = r at *
    obtain ⟨ok, v⟩ := r
    cases ok with
    | false =>
      simp only [Bool.not_false, if_true, Bool.false_eq_true, if_false, port_toState]
      simp only at hport
      rw [hport]
      exact .single (.startFails (w.env.starts 0) h hstate)
    | true =>
      simp only [Bool.not_true, Bool.false_eq_true, if_false, if_true, port_toState]
      simp only at hport
      let c := initData v.clock
      let u := initClock { v with clock := { c with timers := initTimer c.timers } }
      let d := m1 u.clock
      have hu : u.port = { v.port with toControl := c.control } := port_initClock _
      have hd : d.control = (m1 (initData v.clock)).control := by
        rw [control_m1, control_m1, show u.clock.control = c.control from
          congrArg Port.toControl hu]
        have hdata : u.clock.defaultDS = c.defaultDS := congrArg (fun p : Port => p.defaultDS) hu
        rw [hdata]
      have hobuf : d.msgObuf = w.port.msgObuf := by
        have hmsg : u.clock.msgObuf = v.clock.msgObuf := congrArg (fun p : Port => p.msgObuf) hu
        have hv : v.clock.msgObuf = w.clock.msgObuf := congrArg (fun p : Port => p.msgObuf) hport
        exact hmsg.trans hv
      have hlast : { u with clock := { d with msgObuf := msgPackHeader d d.msgObuf } }.port =
          { w.port with
            toControl := { d.control with msgObuf := msgPackHeader d w.port.msgObuf }
            pcbs := restart w.pcbs (w.env.starts 0) } := by
        rw [hobuf]
        have hrest : { u.port with toControl := w.port.toControl } =
            { w.port with pcbs := restart w.pcbs (w.env.starts 0) } := by
          rw [hu, hport]
          rfl
        have hall := congrArg (fun p : Port => { p with
          toControl := { d.control with msgObuf := msgPackHeader d w.port.msgObuf } }) hrest
        exact hall
      rw [hlast]
      have hsame := congrArg Port.toControl hport
      exact .single (.start (c := v.clock) (d := d) (w.env.starts 0) h hstate hsame hd)
  · have hact : act w = toState .initializing w := by
      rw [act, show w.clock.portDS.portState = .faulty from hstate]
    rw [hact, port_toState]
    exact .single (.faultCleared h hstate)

end Turn

namespace Port
variable {A : Received → Prop} {p q : Port}

theorem recommendation_cases (k : Control) (c : PtpClock) :
    recommendation k (bmc c).2 = .listening ∨ recommendation k (bmc c).2 = .passive ∨
      recommendation k (bmc c).2 = .slave ∨ recommendation k (bmc c).2 = .master := by
  have hslave : k.slaveOnly = true ∨ k.slaveOnly = false := by cases k.slaveOnly <;> simp
  rcases bmc_cases c with ⟨-, h | h⟩ | ⟨-, h⟩ | ⟨-, h⟩ <;> rw [h] <;> rcases hslave with hs | hs <;>
    simp [recommendation, hs]

/-- A decision leaves the state alone. -/
theorem Decided.up (h : Decided p q) (hup : p.Up) : q.Up := by
  cases h with
  | not_due _ => exact hup
  | due _ _ hc =>
    rename_i c _ _
    obtain ⟨parent, announced, hbmc⟩ := control_bmc c
    have hstate : (bmc c).1.control.portState = p.portState := by rw [hbmc, hc]
    refine ⟨recommendation_cases _ _, ?_, ?_⟩
    · show (bmc c).1.control.portState ≠ _
      rw [hstate]
      exact hup.initializing
    · show (bmc c).1.control.portState ≠ _
      rw [hstate]
      exact hup.disabled

theorem Decided.slots (h : Decided p q) : q.slots = p.slots := by
  cases h with
  | not_due _ => rfl
  | due _ _ hc =>
    rename_i c _ _
    obtain ⟨parent, announced, hbmc⟩ := control_bmc c
    show (bmc c).1.control.slots = p.slots
    rw [hbmc, hc]

@[simp] theorem slots_enter (p : Port) (state : PortState) : (p.enter state).slots = p.slots := by
  cases state <;> rfl

theorem timedOut_inStep (p : Port) (h : p.Acting) :
    p.timedOut.InStep ∧ p.timedOut.slots = p.slots := by
  simp only [timedOut]
  split
  · exact ⟨.inr rfl, rfl⟩
  · split
    · exact ⟨rfl, rfl⟩
    · have hstate : p.portState = .listening := not_not.mp ‹_›
      exact ⟨(h.inStep (by rw [hstate]; decide)).congr rfl rfl, rfl⟩

theorem Act.acting (h : Act A p q) : p.Acting := by
  cases h with
  | fault h => exact h
  | foreign h _ _ _ _ => exact .inl h
  | parent h _ _ _ _ _ _ => exact .inl h
  | send _ _ h _ _ _ => exact h
  | steer _ h _ _ _ _ => exact .inl h

theorem Step.queued (h : Step A p q) (hq : p.Queued A) : q.Queued A := by
  cases h with
  | start _ _ _ hc hd =>
    rename_i c d _ _ _
    have hc : c.control.slots = p.slots := congrArg Control.slots hc
    have hd : d.control.slots = (m1 (initData c)).control.slots := congrArg Control.slots hd
    exact hq.congr (hd.trans hc)
  | startFails _ _ _ => exact hq.congr rfl
  | faultCleared _ _ => exact hq.congr rfl
  | consider _ hdecided _ => exact hq.congr ((slots_enter _ _).trans hdecided.slots)
  | timeout h _ _ => exact hq.congr (timedOut_inStep p h).2
  | act h => exact hq.congr (h.kept h.acting).slots
  | arrive h => exact h

/-- A port is off or up. -/
theorem Step.ready (h : Step A p q) (hp : p.Off ∨ p.Up) : q.Off ∨ q.Up := by
  cases h with
  | start _ _ _ _ _ => exact .inr ⟨.inl rfl, nofun, nofun⟩
  | startFails _ hoff _ => exact .inl ⟨hoff.1, .inr rfl⟩
  | faultCleared _ _ => exact .inl ⟨rfl, .inl rfl⟩
  | consider _ _ hfollows => exact .inr hfollows.inStep.up
  | timeout h _ _ => exact .inr (timedOut_inStep p h).1.up
  | act h => exact .inr (h.kept h.acting).acting.up
  | arrive _ =>
    rcases hp with hp | hp
    · exact .inl hp
    · exact .inr (hp.congr rfl rfl)

/-- What every step keeps a run keeps. -/
theorem Steps.keeps {I : Port → Prop} (hstep : ∀ p q, I p → Step A p q → I q) (h : Steps A p q)
    (hp : I p) : I q := by
  induction h with
  | refl => exact hp
  | tail _ hlast ih => exact hstep _ _ ih hlast

end Port

section Turn
variable {A : Received → Prop} {w : World}

/-- **A turn is a run of the abstract port.** -/
theorem doState_steps (h : w.port.Off ∨ w.port.Up) (hq : w.port.Queued A) :
    Port.Steps A w.port (doState w).port := by
  let v : World := { w with clock := { w.clock with messageActivity := false } }
  have hv : w.port = v.port := rfl
  have hdo : doState w = act (followRecommended (decideState v)) := rfl
  rw [hdo]
  rw [hv] at h hq ⊢
  rcases h with h | h
  · have hdecide : decideState v = v := by
      obtain ⟨-, hstate | hstate⟩ := h
      · simp only [decideState, show v.clock.portDS.portState = .initializing from hstate]
      · simp only [decideState, show v.clock.portDS.portState = .faulty from hstate]
    have hfollow : followRecommended v = v := by
      simp only [followRecommended, show v.clock.recommendedState = .initializing from h.1]
    rw [hdecide, hfollow]
    exact act_off h
  · have hdecided := decideState_decided h
    obtain ⟨state, hfollows, hport⟩ := followRecommended_follows (hdecided.up h)
    have hconsider : Port.Step A v.port (followRecommended (decideState v)).port := by
      rw [hport]
      exact .consider h hdecided hfollows
    have hin : (followRecommended (decideState v)).port.InStep := by
      rw [hport]
      exact hfollows.inStep
    exact .trans (.single hconsider) (act_steps hin (hconsider.queued hq))

end Turn

/-! ### Runs -/

/-- What happens to a port: a datagram comes to one of its two ports, time passes, or the main loop
takes a turn. -/
inductive PortEvent where
  | eventDatagram (p : List Pbuf)
  | generalDatagram (p : List Pbuf)
  | alarm (ms : BitVec 32)
  | turn

def portStep (w : World) : PortEvent → World
  | .eventDatagram p =>
    { w with clock := { w.clock with netPath := (netRecvEventCallback w.clock.netPath p).1 } }
  | .generalDatagram p =>
    { w with clock := { w.clock with netPath := (netRecvGeneralCallback w.clock.netPath p).1 } }
  | .alarm ms => { w with clock := { w.clock with timers := catchAlarm ms w.clock.timers } }
  | .turn => doState w

/-- The port as `PTPd_Init` leaves it, with what it is going to meet. -/
def powerUp (rtOpts : RunTimeOpts) (ipaddr : BitVec 32) (hwaddr : Vector UInt8 6)
    (env : Env) : World :=
  ptpdStartup rtOpts
    { clock := default, pcbs := noPcbs, ipaddr, hwaddr, env, datagrams := [], clockCalls := [],
      controlCalls := [] }

/-- A datagram that comes is of the kind `A`. -/
def PortEvent.Carries (A : Received → Prop) : PortEvent → Prop
  | .eventDatagram p | .generalDatagram p => Port.Carries A p
  | .alarm _ | .turn => True

section Run
variable {A : Received → Prop} {w : World}

theorem port_powerUp (rtOpts : RunTimeOpts) (ipaddr : BitVec 32) (hwaddr : Vector UInt8 6)
    (env : Env) :
    (powerUp rtOpts ipaddr hwaddr env).port.Off ∧
      (powerUp rtOpts ipaddr hwaddr env).port.Queued A := by
  rw [powerUp, ptpdStartup, port_toState]
  refine ⟨⟨rfl, .inl rfl⟩, fun i => ⟨fun buf hlen => ?_, fun buf hlen => ?_⟩⟩
  · exact absurd hlen not_headerLength_le_zero
  · exact absurd hlen not_headerLength_le_zero

theorem carries_netQPut {q : BufQueue} {p : List Pbuf} (hq : ∀ i, Port.Carries A (q.pbuf i))
    (hp : Port.Carries A p) :
    ∀ i, Port.Carries A ((netRecvCallback q p).1.pbuf i) := by
  have hput : ∀ i, Port.Carries A ((netQPut q p).1.pbuf i) := by
    intro i
    rw [netQPut]
    split
    · exact hq i
    · by_cases hi : i = q.put
      · rw [hi]
        simp only [Function.update_self]
        exact hp
      · simp only [Function.update_of_ne hi]
        exact hq i
  intro i
  have hsame : (netRecvCallback q p).1.pbuf = (netQPut q p).1.pbuf := by
    rw [netRecvCallback]
    split <;> simp_all
  rw [hsame]
  exact hput i

theorem portStep_steps {e : PortEvent} (h : w.port.Off ∨ w.port.Up) (hq : w.port.Queued A)
    (he : e.Carries A) :
    Port.Steps A w.port (portStep w e).port := by
  cases e with
  | eventDatagram p =>
    exact .single (.arrive fun i => ⟨carries_netQPut (fun i => (hq i).1) he i, (hq i).2⟩)
  | generalDatagram p =>
    exact .single (.arrive fun i => ⟨(hq i).1, carries_netQPut (fun i => (hq i).2) he i⟩)
  | alarm ms => exact .refl
  | turn => exact doState_steps h hq

/-- What holds of a port that is off or up, with messages of the kind `A` in its queues. -/
structure Ready (A : Received → Prop) (w : World) : Prop where
  ready : w.port.Off ∨ w.port.Up
  queued : w.port.Queued A

theorem Ready.run {es : List PortEvent} (h : Ready A w) (hes : ∀ e ∈ es, e.Carries A) :
    Port.Steps A w.port (es.foldl portStep w).port ∧ Ready A (es.foldl portStep w) := by
  induction es generalizing w with
  | nil => exact ⟨.refl, h⟩
  | cons e rest ih =>
    obtain ⟨he, hrest⟩ := List.forall_mem_cons.mp hes
    have hstep := portStep_steps h.ready h.queued he
    have hnext : Ready A (portStep w e) :=
      ⟨hstep.keeps (fun _ _ hp hs => hs.ready hp) h.ready,
        hstep.keeps (fun _ _ hp hs => hs.queued hp) h.queued⟩
    obtain ⟨hrun, hlast⟩ := ih hnext hrest
    exact ⟨hstep.trans hrun, hlast⟩

theorem ready_powerUp (rtOpts : RunTimeOpts) (ipaddr : BitVec 32) (hwaddr : Vector UInt8 6)
    (env : Env) :
    Ready A (powerUp rtOpts ipaddr hwaddr env) := by
  obtain ⟨hoff, hqueued⟩ := port_powerUp (A := A) rtOpts ipaddr hwaddr env
  exact ⟨.inl hoff, hqueued⟩

/-- **Every run of a port is one of the abstract port**, from power-up on and whatever arrives. -/
theorem run_steps (rtOpts : RunTimeOpts) (ipaddr : BitVec 32) (hwaddr : Vector UInt8 6) (env : Env)
    {es : List PortEvent}
    (hes : ∀ e ∈ es, e.Carries A) :
    Port.Steps A (powerUp rtOpts ipaddr hwaddr env).port
      (es.foldl portStep (powerUp rtOpts ipaddr hwaddr env)).port :=
  ((ready_powerUp rtOpts ipaddr hwaddr env).run hes).1

/-- The header is in the first octets. -/
theorem msgUnpackHeader_congr {f g : Nat → UInt8} (h : ∀ k < headerLength, f k = g k) :
    msgUnpackHeader f = msgUnpackHeader g := by
  have hcut (b : Nat → UInt8) :
      msgUnpackHeader b = msgUnpackHeader fun k => if k < headerLength then b k else 0 := rfl
  have hsame : (fun k => if k < headerLength then f k else 0) =
      fun k => if k < headerLength then g k else 0 := by
    funext k
    split
    · exact h k ‹_›
    · rfl
  rw [hcut f, hcut g, hsame]

theorem msgUnpackHeader_recvCopy {q : Pbuf} (hq : headerLength ≤ q.len) (buf : Nat → UInt8) :
    msgUnpackHeader (recvCopy (totLen [q]) 0 [q] 0 buf) = msgUnpackHeader q.payload := by
  have hsolid : Solid [q] := List.forall_mem_singleton.mpr (Nat.lt_of_lt_of_le (by decide) hq)
  have hlen : totLen [q] = q.len := by simp [totLen]
  have hoctets : (octetsFrom [q] 0).length = totLen [q] := by rw [octetsFrom_zero, length_payload]
  obtain ⟨hcopy, -⟩ :=
    recvCopy_eq (i := 0) buf hsolid (fun r hr => hsolid r (List.mem_of_head? hr)) hoctets
  have hpayload : Ethernetif.payload [q] = firstCells q.payload (totLen [q]) := by
    simp [Ethernetif.payload, Pbuf.bytes, totLen]
  simp only [Nat.zero_add, octetsFrom_zero] at hcopy
  rw [hpayload] at hcopy
  refine msgUnpackHeader_congr fun k hk => firstCells_eq_iff.mp hcopy k ?_
  omega

/-- A datagram of one segment carries what its header says. -/
theorem Port.carries_single {q : Pbuf} (hq : headerLength ≤ q.len)
    (h : ∀ m : Received, m.header = msgUnpackHeader q.payload → A m) : Port.Carries A [q] :=
  fun buf _ _ => h _ (msgUnpackHeader_recvCopy hq buf)

/-- A clock that is worse than this one. -/
def worseClock : PtpClock :=
  { (default : PtpClock) with
    portDS := { (default : PtpClock).portDS with
      portIdentity := ⟨Vector.replicate 8 1, 1⟩, versionNumber := versionPtp }
    parentDS := { (default : PtpClock).parentDS with
      grandmasterPriority1 := 250, grandmasterIdentity := Vector.replicate 8 1 } }

/-- What it announces. -/
def worseAnnouncement : List Pbuf :=
  [⟨Outgoing.announce.pack worseClock (msgPackHeader worseClock fun _ => 0), announceLength⟩]

/-- The network starts and sends, at one second. -/
def sending : Env :=
  { (default : Env) with
    time := fun _ => ⟨1, 0⟩, sends := fun _ => true, starts := fun _ => ⟨true, true, true⟩ }

/-- The port is started and hears the other clock. -/
def hearing : List PortEvent := [.turn, .turn, .generalDatagram worseAnnouncement, .turn]

/-- An announcement of that clock. -/
def FromWorse (m : Received) : Prop :=
  m.type = some .announce ∧ m.sender = worseClock.portDS.portIdentity

theorem worseAnnouncement_carries : Port.Carries FromWorse worseAnnouncement := by
  refine Port.carries_single (by decide) fun m hm => ?_
  rw [FromWorse, Received.type, Received.sender, hm]
  decide +kernel

theorem hearing_carries : ∀ e ∈ hearing, e.Carries FromWorse := by
  simp [hearing, PortEvent.Carries, worseAnnouncement_carries]

theorem run_steps_hearing :
    Port.Steps FromWorse (powerUp defaultRtOpts 0 (.replicate 6 0) sending).port
        (hearing.foldl portStep (powerUp defaultRtOpts 0 (.replicate 6 0) sending)).port ∧
      (hearing.foldl portStep
        (powerUp defaultRtOpts 0 (.replicate 6 0) sending)).clock.foreignMasterDS.count = 1 :=
  ⟨run_steps defaultRtOpts 0 (.replicate 6 0) sending hearing_carries, by decide +kernel⟩

end Run

end Stm32F4.Ptp
