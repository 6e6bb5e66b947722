import Mathlib.Algebra.Order.Ring.Int
import Stm32F4.Ptp.Safety

/-! The main loop.

`ptpd_Periodic_Handle` takes turns as long as a message is in a queue, and time stands still
meanwhile. A port that waits to become a master handles no messages, and waits for its timer. So the
loop does not end if the port gets there while one more message waits (`preMaster_hang`,
`decision_hang`). -/
namespace Stm32F4.Ptp
open Ethernetif (Pbuf)
open Lib

theorem timerUpdate_again (t : Timers) : timerUpdate (timerUpdate t) = timerUpdate t := by
  have helapsed : (timerUpdate t).elapsedMs = 0 := by
    rw [timerUpdate]
    split <;> rfl
  generalize timerUpdate t = u at helapsed
  have hzero : u.elapsedMs.sle 0 = true := by
    rw [helapsed]
    decide
  rw [timerUpdate, if_pos hzero, ← helapsed]

/-- A timer that has not expired does not expire without time. -/
theorem timerExpired_again {i : Nat} {t : Timers} (h : (timerExpired i t).2 = false) :
    timerExpired i (timerExpired i t).1 = ((timerExpired i t).1, false) := by
  have hsame : timerExpired i t = (timerUpdate t, false) := by
    rw [timerExpired] at h ⊢
    split at h
    · rw [if_pos ‹_›]
    · rw [if_neg ‹_›]
      split at h
      · rw [if_pos ‹_›]
      · contradiction
  have hagain : timerExpired i (timerUpdate t) = timerExpired i t := by
    rw [timerExpired, timerExpired, timerUpdate_again]
  rw [hsame, hagain, hsame]

/-- The port waits to become a master, and a message waits for the port. -/
def Stuck (w : World) : Prop :=
  w.clock.portDS.portState = .preMaster ∧ w.clock.recommendedState = .master ∧
    getFlag w.clock.events stateDecisionEvent = false ∧
      (timerExpired qualificationTimeout w.clock.timers).2 = false ∧
    netSelect w = true

instance (w : World) : Decidable (Stuck w) := inferInstanceAs (Decidable (_ ∧ _))

/-- A turn changes nothing but to take the time off the timers. -/
theorem Stuck.turn {w : World} (h : Stuck w) :
    Stuck (doState w) ∧ (doState w).datagrams = w.datagrams := by
  obtain ⟨hstate, hrec, hdue, htimer, hselect⟩ := h
  let v : World := { w with clock := { w.clock with messageActivity := false } }
  have hdecide : decideState v = v := by
    simp only [decideState, v, hstate, hdue, Bool.false_eq_true, if_false]
  have hfollow : followRecommended v = (expired qualificationTimeout v).2 := by
    simp only [followRecommended, v, hrec, hstate, expired, htimer, Bool.false_eq_true, if_false]
  have hact : act (expired qualificationTimeout v).2 = (expired qualificationTimeout v).2 := by
    rw [act, show (expired qualificationTimeout v).2.clock.portDS.portState = .preMaster from
      hstate]
  have hturn : doState w = (expired qualificationTimeout v).2 := by
    rw [doState, hdecide, hfollow, hact]
  rw [hturn]
  refine ⟨⟨hstate, hrec, hdue, ?_, hselect⟩, rfl⟩
  show (timerExpired qualificationTimeout (timerExpired qualificationTimeout w.clock.timers).1).2 =
    false
  rw [timerExpired_again htimer]

/-- **The main loop does not come back.** However many turns it takes, the port waits and the
message too. -/
theorem preMaster_hang {w : World} (h : Stuck w) (n : Nat) : runStack n w = none := by
  induction n generalizing w with
  | zero => rfl
  | succ n ih =>
    have hturn := h.turn.1
    rw [runStack]
    simp only [hturn.2.2.2.2, if_true]
    exact ih hturn

/-! ### How the port gets there -/

section Decision
variable {w : World}

theorem timers_initClock (w : World) : (initClock w).clock.timers = w.clock.timers ∧
    (initClock w).clock.netPath.generalQ = w.clock.netPath.generalQ := by
  simp only [initClock]
  split <;> exact ⟨rfl, rfl⟩

theorem elapsedMs_stopTimer (i : Nat) (w : World) :
    (stopTimer i w).clock.timers.elapsedMs = w.clock.timers.elapsedMs := by
  simp only [stopTimer, timerStop]
  split <;> rfl

/-- The time on the count and what is in the general queue are as before. -/
def Still (w v : World) : Prop :=
  v.clock.timers.elapsedMs = w.clock.timers.elapsedMs ∧
    v.clock.netPath.generalQ = w.clock.netPath.generalQ

theorem Still.initClock {v : World} (h : Still w v) : Still w (initClock v) := by
  rw [Still, (timers_initClock v).1, (timers_initClock v).2]
  exact h

theorem Still.stopTimer {v : World} (i : Nat) (h : Still w v) : Still w (stopTimer i v) :=
  ⟨(elapsedMs_stopTimer i v).trans h.1, h.2⟩

theorem still_leaveState (state : PortState) (w : World) : Still w (leaveState state w) := by
  have hw : Still w w := ⟨rfl, rfl⟩
  unfold leaveState
  split
  · exact ((hw.initClock.stopTimer _).stopTimer _).stopTimer _
  · split
    · exact hw
    · refine Still.initClock ?_
      split
      · exact ((hw.stopTimer _).stopTimer _).stopTimer _
      · exact ((hw.stopTimer _).stopTimer _).stopTimer _
      · exact (hw.stopTimer _).stopTimer _
  · split
    · exact hw
    · refine Still.initClock ?_
      split
      · exact ((hw.stopTimer _).stopTimer _).stopTimer _
      · exact ((hw.stopTimer _).stopTimer _).stopTimer _
      · exact (hw.stopTimer _).stopTimer _
  · exact (hw.initClock.stopTimer _).stopTimer _
  · exact hw.initClock.stopTimer _
  · exact hw.initClock.stopTimer _
  · exact hw

theorem bmc_still (c : PtpClock) : (bmc c).1.timers = c.timers ∧ (bmc c).1.netPath = c.netPath := by
  simp only [bmc, bmcStateDecision]
  split
  · exact ⟨rfl, rfl⟩
  · split
    · split <;> exact ⟨rfl, rfl⟩
    · split <;> exact ⟨rfl, rfl⟩

theorem decideState_still (w : World) : Still w (decideState w) := by
  have hbmc := bmc_still { w.clock with events := clearFlag w.clock.events stateDecisionEvent }
  simp only [decideState]
  generalize bmc _ = r at hbmc ⊢
  have hkeeps (state : PortState) : Still w (recommend state { w with clock := r.1 }) :=
    ⟨congrArg Timers.elapsedMs hbmc.1, congrArg NetPath.generalQ hbmc.2⟩
  have hw : Still w w := ⟨rfl, rfl⟩
  cases getFlag w.clock.events stateDecisionEvent with
  | true =>
    simp only [if_true]
    split
    case h_7 => exact hw
    all_goals exact hkeeps _
  | false =>
    simp only [Bool.false_eq_true, if_false]
    split <;> exact hw

/-- A timer that has just been started needs time to expire. -/
theorem timerExpired_start {i : Nat} (ms : BitVec 32) {t : Timers} (h : t.elapsedMs = 0) :
    (timerExpired i (timerStart i ms t)).2 = false := by
  have hstart : (timerStart i ms t).elapsedMs = 0 := by
    rw [timerStart]
    split <;> exact h
  have hzero : (timerStart i ms t).elapsedMs.sle 0 = true := by
    rw [hstart]
    decide
  rw [timerExpired, timerUpdate, if_pos hzero]
  by_cases hi : i ≥ timerArraySize
  · rw [if_pos hi]
  · rw [if_neg hi, timerStart, if_neg hi]
    simp

theorem Port.Decided.made {p q : Port} (h : Port.Decided p q) (hp : p.portState ≠ .faulty) :
    q.decisionDue = false := by
  cases h with
  | not_due h =>
    rcases h with h | h
    · exact h
    · exact absurd h hp
  | due _ _ hc =>
    rename_i c _ _
    obtain ⟨parent, announced, hbmc⟩ := control_bmc c
    show (bmc c).1.control.decisionDue = false
    rw [hbmc, hc]

/-- What a turn begins with. -/
def considered (w : World) : World :=
  decideState { w with clock := { w.clock with messageActivity := false } }

/-- The next turn takes the port to `PRE_MASTER`, and a message waits for it. -/
structure Caught (w : World) : Prop where
  faulty : w.clock.portDS.portState ≠ .faulty
  preMaster : w.clock.portDS.portState ≠ .preMaster
  master : w.clock.portDS.portState ≠ .master
  time : w.clock.timers.elapsedMs = 0
  recommended : (considered w).clock.recommendedState = .master
  message : netQCheck w.clock.netPath.generalQ = true

theorem stuck_of_decision (hup : w.port.Up) (h : Caught w) : Stuck (doState w) := by
  let v : World := { w with clock := { w.clock with messageActivity := false } }
  have hdecided : Port.Decided v.port (considered w).port := decideState_decided hup
  have hstill : Still v (considered w) := decideState_still v
  have hdue : (considered w).port.decisionDue = false := hdecided.made h.faulty
  have hsame : (considered w).clock.portDS.portState = w.clock.portDS.portState := by
    obtain ⟨_, _, _, _, _, hport⟩ := hdecided.cases
    exact congrArg (fun p : Port => p.portState) hport
  have hturn : doState w = toState .preMaster (considered w) := by
    have hfollow : followRecommended (considered w) = toState .preMaster (considered w) := by
      rw [followRecommended, h.recommended]
      simp only
      split
      · exact absurd (hsame.symm.trans ‹_›) h.preMaster
      · exact absurd (hsame.symm.trans ‹_›) h.master
      · rfl
    have hentered : (toState .preMaster (considered w)).port.portState = .preMaster := by
      rw [port_toState]
      rfl
    show act (followRecommended (considered w)) = _
    rw [hfollow, act,
      show (toState .preMaster (considered w)).clock.portDS.portState = .preMaster from hentered]
  rw [hturn]
  have hport := port_toState (considered w) .preMaster
  have hleft := still_leaveState .preMaster
    { considered w with clock := { (considered w).clock with messageActivity := true } }
  refine ⟨congrArg (fun p : Port => p.portState) hport, ?_, ?_, ?_, ?_⟩
  · exact (congrArg (fun p : Port => p.recommendedState) hport).trans h.recommended
  · exact (congrArg (fun p : Port => p.decisionDue) hport).trans hdue
  · exact timerExpired_start _ ((hleft.1.trans hstill.1).trans h.time)
  · have hqueue : (toState .preMaster (considered w)).clock.netPath.generalQ =
        w.clock.netPath.generalQ :=
      hleft.2.trans hstill.2
    rw [netSelect, hqueue, h.message, Bool.or_true]

theorem runStack_hang (hup : w.port.Up) (h : Caught w) (n : Nat) : runStack n w = none := by
  cases n with
  | zero => rfl
  | succ n =>
    have hstuck := stuck_of_decision hup h
    rw [runStack]
    simp only [hstuck.2.2.2.2, if_true]
    exact preMaster_hang hstuck n

/-- A port that has not been started decides nothing. -/
theorem considered_of_off (h : w.port.Off) :
    (considered w).clock.recommendedState = .initializing := by
  have hsame : considered w = { w with clock := { w.clock with messageActivity := false } } := by
    obtain ⟨-, hstate | hstate⟩ := h
    · simp only [considered, decideState, show w.clock.portDS.portState = .initializing from hstate]
    · simp only [considered, decideState, show w.clock.portDS.portState = .faulty from hstate]
  rw [hsame]
  exact h.1

theorem Caught.not_off (h : Caught w) : ¬ w.port.Off := by
  intro hoff
  have hrec := (considered_of_off hoff).symm.trans h.recommended
  exact absurd hrec (by decide)

/-- What `ptpd_Periodic_Handle` has after its first turn. -/
def firstTurn (ms : BitVec 32) (w : World) : World := doState (portStep w (.alarm ms))

theorem periodic_hang {ms : BitVec 32} (hup : (firstTurn ms w).port.Up)
    (h : Caught (firstTurn ms w)) (n : Nat) :
    ptpdPeriodicHandle n ms w = none := by
  cases n with
  | zero => rfl
  | succ n =>
    have hselect : netSelect (firstTurn ms w) = true := by rw [netSelect, h.message, Bool.or_true]
    have hrest := runStack_hang hup h n
    show (if netSelect (firstTurn ms w) then runStack n (firstTurn ms w)
      else some (firstTurn ms w)) = none
    rw [if_pos hselect, hrest]

/-- **How the loop is lost.** Whatever has happened since power-up: if the first turn has taken the
time off the timers and handled a message after which the port is recommended a master, and there is
another general message, `ptpd_Periodic_Handle` never returns. -/
theorem decision_hang (rtOpts : RunTimeOpts) (ipaddr : BitVec 32)
    (hwaddr : Vector UInt8 6) (env : Env)
    (es : List PortEvent) (ms : BitVec 32)
    (h : Caught (firstTurn ms (es.foldl portStep (powerUp rtOpts ipaddr hwaddr env)))) (n : Nat) :
    ptpdPeriodicHandle n ms (es.foldl portStep (powerUp rtOpts ipaddr hwaddr env)) = none := by
  obtain ⟨-, hready⟩ := (ready_powerUp rtOpts ipaddr hwaddr env).run (carries_any es)
  obtain ⟨-, hlast⟩ := hready.run (carries_any [.alarm ms, .turn])
  exact periodic_hang (hlast.ready.resolve_left h.not_off) h n

/-- Two of them come at once. -/
def twoAnnouncements : List PortEvent :=
  [.turn, .turn, .generalDatagram worseAnnouncement, .generalDatagram worseAnnouncement]

theorem decision_hang_twoAnnouncements :
    ptpdPeriodicHandle 1000 1 (twoAnnouncements.foldl portStep
      (powerUp defaultRtOpts 0 (.replicate 6 0) sending)) = none := by
  apply decision_hang defaultRtOpts 0 (.replicate 6 0) sending twoAnnouncements 1
  constructor
  all_goals decide +kernel

end Decision

end Stm32F4.Ptp
