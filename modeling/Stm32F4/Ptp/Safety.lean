import Mathlib.Algebra.Order.Ring.Int
import Stm32F4.Ptp.Turn

/-! What a port never does.

All of it holds in every run from power-up, whatever arrives. A clock that must not be a master is
none, and says nothing that only a master says (`slaveOnly_run`). A port that has been started stays
the port it is (`started_run`), announces nobody but itself (`announced_run`) and numbers what it
tries to send without a gap (`sequenceIds_run`, `followUp_run`): a datagram that could not be sent
has used up its number. Who has not been heard announcing itself does not steer the clock
(`unheard_run`). -/
namespace Stm32F4.Ptp
open Ethernetif (Pbuf totLen)
open Lib

def Datagram.header (d : Datagram) : MsgHeader := msgUnpackHeader d.buf
def Datagram.type (d : Datagram) : Option MessageType := typeOf d.header.messageType

theorem typeOf_toCode (ty : MessageType) : typeOf ty.toCode = some ty := by
  cases ty <;> decide

theorem Datagram.header_of_pack {d : Datagram} {c : PtpClock} {b : Nat → UInt8} {o : Outgoing}
    (h : d.buf = o.pack c b) :
    d.header = o.header c (msgUnpackHeader b) := by
  rw [Datagram.header, h, Outgoing.msgUnpackHeader_pack]

theorem Datagram.type_of_pack {d : Datagram} {c : PtpClock} {b : Nat → UInt8} {o : Outgoing}
    (h : d.buf = o.pack c b) :
    d.type = some o.type := by
  rw [Datagram.type, Datagram.header_of_pack h]
  exact typeOf_toCode o.type

/-! ### What stays -/

namespace Port
variable {A : Received → Prop} {p q : Port}

theorem Off.not_up (h : p.Off) : ¬ p.Up := by
  intro hup
  rcases hup.recommended with hrec | hrec | hrec | hrec
  all_goals exact absurd (h.1.symm.trans hrec) (by decide)

theorem Up.recommended_ne (h : p.Up) : p.recommendedState ≠ .initializing := by
  rcases h.recommended with hrec | hrec | hrec | hrec
  all_goals
    rw [hrec]
    decide

/-- A decision is about the recommendation and what goes with it. -/
theorem Decided.cases (h : Decided p q) : ∃ due ds parent announced recommended,
    q = { p with
      decisionDue := due, foreignMasterDS := ds, parent := parent, announced := announced
      recommendedState := recommended } := by
  cases h with
  | not_due _ => exact ⟨_, _, _, _, _, rfl⟩
  | due _ _ hc =>
    rename_i c _ _
    obtain ⟨parent, announced, hbmc⟩ := control_bmc c
    rw [hc] at hbmc
    rw [hbmc]
    exact ⟨_, _, _, _, _, rfl⟩

theorem enter_cases (p : Port) (state : PortState) : ∃ recommended,
    p.enter state = { p with portState := state, recommendedState := recommended } := by
  cases state <;> exact ⟨_, rfl⟩

/-- A timeout is too. -/
theorem timedOut_cases (p : Port) : ∃ state ds parent announced recommended,
    p.timedOut = { p with
      portState := state, foreignMasterDS := ds, parent := parent, announced := announced
      recommendedState := recommended } := by
  rw [timedOut]
  split
  · exact ⟨_, _, _, _, _, rfl⟩
  · split <;> exact ⟨_, _, _, _, _, rfl⟩

/-- What stays the same once the port has been started. -/
structure Settled (p q : Port) : Prop where
  up : q.Up
  rtOpts : q.rtOpts = p.rtOpts
  defaultDS : q.defaultDS = p.defaultDS
  portIdentity : q.portIdentity = p.portIdentity
  pcbs : q.pcbs = p.pcbs

theorem Step.settled (h : Step A p q) (hup : p.Up) : Settled p q := by
  have hready : q.Up := by
    rcases h.ready (.inr hup) with hoff | hready
    · exfalso
      cases h with
      | start _ hp _ _ _ => exact hp.not_up hup
      | startFails _ hp _ => exact hp.not_up hup
      | faultCleared hp _ => exact hp.not_up hup
      | consider _ _ hfollows => exact hoff.not_up hfollows.inStep.up
      | timeout hacting _ _ => exact hoff.not_up (timedOut_inStep p hacting).1.up
      | act hact => exact hoff.not_up (hact.kept hact.acting).acting.up
      | arrive _ => exact hoff.not_up (hup.congr rfl rfl)
    · exact hready
  cases h with
  | start _ hp _ _ _ => exact absurd hup hp.not_up
  | startFails _ hp _ => exact absurd hup hp.not_up
  | faultCleared hp _ => exact absurd hup hp.not_up
  | consider _ hdecided _ =>
    obtain ⟨_, _, _, _, _, rfl⟩ := hdecided.cases
    obtain ⟨_, henter⟩ := enter_cases _ _
    rw [henter] at hready ⊢
    exact ⟨hready, rfl, rfl, rfl, rfl⟩
  | timeout _ _ _ =>
    obtain ⟨_, _, _, _, _, htimedOut⟩ := timedOut_cases p
    rw [htimedOut] at hready ⊢
    exact ⟨hready, rfl, rfl, rfl, rfl⟩
  | act hact =>
    cases hact with
    | fault _ => exact ⟨hready, rfl, rfl, rfl, rfl⟩
    | foreign _ _ _ _ _ => exact ⟨hready, rfl, rfl, rfl, rfl⟩
    | parent _ _ _ _ _ _ _ => exact ⟨hready, rfl, rfl, rfl, rfl⟩
    | send _ _ _ _ _ _ => exact ⟨hready, rfl, rfl, rfl, rfl⟩
    | steer _ _ _ _ _ _ => exact ⟨hready, rfl, rfl, rfl, rfl⟩
  | arrive _ => exact ⟨hready, rfl, rfl, rfl, rfl⟩

theorem Settled.refl (h : p.Up) : Settled p p := ⟨h, rfl, rfl, rfl, rfl⟩

theorem Steps.settled (h : Steps A p q) (hup : p.Up) : Settled p q := by
  induction h with
  | refl => exact .refl hup
  | tail _ hstep ih =>
    have hlast := hstep.settled ih.up
    exact ⟨hlast.up, hlast.rtOpts.trans ih.rtOpts, hlast.defaultDS.trans ih.defaultDS,
      hlast.portIdentity.trans ih.portIdentity, hlast.pcbs.trans ih.pcbs⟩

/-- Only what is sent is added to what has been sent. -/
theorem Step.sends (h : Step A p q) (hup : p.Up) :
    q.datagrams = p.datagrams ∧ q.msgObuf = p.msgObuf ∧ q.next = p.next ∨
    ∃ (c : PtpClock) (o : Outgoing) (d : Datagram), c.control = p.toControl ∧ p.Sends o ∧
      d.buf = o.pack c p.msgObuf ∧
      q = p.send c o d := by
  cases h with
  | start _ hp _ _ _ => exact absurd hup hp.not_up
  | startFails _ hp _ => exact absurd hup hp.not_up
  | faultCleared hp _ => exact absurd hup hp.not_up
  | consider _ hdecided _ =>
    obtain ⟨_, _, _, _, _, rfl⟩ := hdecided.cases
    obtain ⟨_, henter⟩ := enter_cases _ _
    rw [henter]
    exact .inl ⟨rfl, rfl, rfl⟩
  | timeout _ _ _ =>
    obtain ⟨_, _, _, _, _, htimedOut⟩ := timedOut_cases p
    rw [htimedOut]
    exact .inl ⟨rfl, rfl, rfl⟩
  | act hact =>
    cases hact with
    | fault _ => exact .inl ⟨rfl, rfl, rfl⟩
    | foreign _ _ _ _ _ => exact .inl ⟨rfl, rfl, rfl⟩
    | parent _ _ _ _ _ _ _ => exact .inl ⟨rfl, rfl, rfl⟩
    | send o d _ hc ho hd => exact .inr ⟨_, o, d, hc, ho, hd, rfl⟩
    | steer _ _ _ _ _ _ => exact .inl ⟨rfl, rfl, rfl⟩
  | arrive _ => exact .inl ⟨rfl, rfl, rfl⟩

end Port

/-- The start with the options as they are corrected. -/
theorem port_powerUp_eq (rtOpts : RunTimeOpts) (ipaddr : BitVec 32) (hwaddr : Vector UInt8 6)
    (env : Env) :
    ∃ options : RunTimeOpts,
      ((rtOpts.slaveOnly = true ∨ rtOpts.clockQuality.clockClass = 255) →
        options.slaveOnly = true ∨ options.clockQuality.clockClass = 255) ∧
      (powerUp rtOpts ipaddr hwaddr env).port = ({
        toControl := { (default : PtpClock).control with rtOpts := options }
        pcbs := noPcbs, datagrams := [], steered := [] } : Port).enter .initializing := by
  have hap (o : RunTimeOpts) :
      (if o.servo.ap.slt 1 then { o with servo := { o.servo with ap := 1 } } else o).slaveOnly =
        o.slaveOnly ∧
      (if o.servo.ap.slt 1 then { o with servo := { o.servo with ap := 1 } } else o).clockQuality =
        o.clockQuality := by
    split <;> exact ⟨rfl, rfl⟩
  have hai (o : RunTimeOpts) :
      (if o.servo.ai.slt 1 then { o with servo := { o.servo with ai := 1 } } else o).slaveOnly =
        o.slaveOnly ∧
      (if o.servo.ai.slt 1 then { o with servo := { o.servo with ai := 1 } } else o).clockQuality =
        o.clockQuality := by
    split <;> exact ⟨rfl, rfl⟩
  refine ⟨_, fun h => ?_, port_toState _ _⟩
  rw [(hai _).1, (hai _).2, (hap _).1, (hap _).2]
  split
  · exact .inr rfl
  · exact h

section Run
variable (rtOpts : RunTimeOpts) (ipaddr : BitVec 32) (hwaddr : Vector UInt8 6) (env : Env)

/-- What every step keeps is kept from power-up on. -/
theorem run_keeps {A : Received → Prop} {I : Port → Prop}
    (hinit : I (powerUp rtOpts ipaddr hwaddr env).port)
    (hstep : ∀ p q, p.Off ∨ p.Up → I p → Port.Step A p q → I q) {es : List PortEvent}
    (hes : ∀ e ∈ es, e.Carries A) :
    I (es.foldl portStep (powerUp rtOpts ipaddr hwaddr env)).port := by
  have hoff := (port_powerUp (A := A) rtOpts ipaddr hwaddr env).1
  have hkeeps := (run_steps rtOpts ipaddr hwaddr env hes).keeps (I := fun p => (p.Off ∨ p.Up) ∧ I p)
    fun p q hp hs => ⟨hs.ready hp.1, hstep p q hp.1 hp.2 hs⟩
  exact (hkeeps ⟨.inl hoff, hinit⟩).2

theorem carries_any (es : List PortEvent) : ∀ e ∈ es, e.Carries fun _ => True := by
  intro e _
  cases e with
  | eventDatagram p => exact fun _ _ _ => trivial
  | generalDatagram p => exact fun _ _ _ => trivial
  | alarm ms => trivial
  | turn => trivial

end Run

/-! ### Slaves -/

/-- What only a master sends. -/
def mastersOnly : List MessageType := [.announce, .sync, .followUp, .delayResp]

theorem Port.Sends.master {p : Port} {o : Outgoing} (h : p.Sends o) (ho : o.type ∈ mastersOnly) :
    p.portState = .master := by
  cases o with
  | announce => exact h.1
  | sync _ => exact h.1
  | followUp _ => exact h.1
  | delayResp _ _ => exact h.1
  | _ => simp [Outgoing.type, mastersOnly] at ho

theorem initializing_slavish :
    PortState.initializing ≠ .preMaster ∧ PortState.initializing ≠ .master ∧
      PortState.initializing ≠ .passive := by decide

theorem faulty_slavish :
    PortState.faulty ≠ .preMaster ∧ PortState.faulty ≠ .master ∧
      PortState.faulty ≠ .passive := by decide

theorem listening_slavish :
    PortState.listening ≠ .preMaster ∧ PortState.listening ≠ .master ∧
      PortState.listening ≠ .passive := by decide

/-- The port of a clock that must not be a master. -/
structure Slavish (p : Port) : Prop where
  options : p.rtOpts.slaveOnly = true ∨ p.rtOpts.clockQuality.clockClass = 255
  only : p.Up → p.slaveOnly = true
  state : p.portState ≠ .preMaster ∧ p.portState ≠ .master ∧ p.portState ≠ .passive
  recommended : p.recommendedState ≠ .master ∧ p.recommendedState ≠ .passive
  sent : ∀ d ∈ p.datagrams, ∀ ty ∈ mastersOnly, d.type ≠ some ty

section Slaves
variable {A : Received → Prop} {p q : Port}

theorem Port.Decided.slavish (h : Port.Decided p q) (hup : p.Up) (hp : Slavish p) :
    q.recommendedState ≠ .master ∧ q.recommendedState ≠ .passive := by
  cases h with
  | not_due _ => exact hp.recommended
  | due _ _ hc =>
    rename_i c _ _
    obtain ⟨parent, announced, hbmc⟩ := control_bmc c
    have honly : (bmc c).1.control.slaveOnly = true := by
      rw [hbmc, hc]
      exact hp.only hup
    show Port.recommendation (bmc c).1.control (bmc c).2 ≠ _ ∧
      Port.recommendation (bmc c).1.control (bmc c).2 ≠ _
    generalize (bmc c).2 = state
    cases state <;> simp [Port.recommendation, honly]

theorem Port.Follows.slavish {recommended state state' : PortState}
    (h : Port.Follows recommended state state')
    (hmaster : recommended ≠ .master) (hpassive : recommended ≠ .passive) :
    state' ≠ .preMaster ∧ state' ≠ .master ∧ state' ≠ .passive := by
  unfold Port.Follows at h
  split at h
  · exact absurd rfl hmaster
  · exact absurd rfl hpassive
  · rcases h with rfl | ⟨-, rfl⟩ | ⟨-, rfl⟩ <;> decide
  · rw [h]
    decide
  · exact absurd h not_false

theorem Slavish.enter {state : PortState} (h : Slavish p) (hp : p.Up)
    (hstate : state ≠ .preMaster ∧ state ≠ .master ∧ state ≠ .passive) :
    Slavish (p.enter state) := by
  have hrec : (p.enter state).recommendedState ≠ .master ∧
      (p.enter state).recommendedState ≠ .passive := by
    cases state with
    | initializing => exact initializing_slavish.2
    | listening => exact listening_slavish.2
    | _ => exact h.recommended
  obtain ⟨recommended, henter⟩ := Port.enter_cases p state
  rw [henter] at hrec ⊢
  exact ⟨h.options, fun _ => h.only hp, hstate, hrec, h.sent⟩

theorem Slavish.started (h : Slavish p) (hp : p.Up) (hstep : Port.Step A p q) : Slavish q := by
  have hsettled := hstep.settled hp
  have hsent : ∀ d ∈ q.datagrams, ∀ ty ∈ mastersOnly, d.type ≠ some ty := by
    rcases hstep.sends hp with ⟨hsame, -, -⟩ | ⟨c, o, d, hc, ho, hd, rfl⟩
    · rw [hsame]
      exact h.sent
    · intro e he ty hty
      rcases List.mem_append.mp he with he | he
      · exact h.sent e he ty hty
      · rw [List.mem_singleton.mp he, Datagram.type_of_pack hd]
        rintro ⟨⟩
        exact h.state.2.1 (ho.master hty)
  have hoptions : q.rtOpts.slaveOnly = true ∨ q.rtOpts.clockQuality.clockClass = 255 :=
    hsettled.rtOpts ▸ h.options
  have honly : q.slaveOnly = true := by
    rw [Control.slaveOnly, hsettled.defaultDS]
    exact h.only hp
  suffices hstates : (q.portState ≠ .preMaster ∧ q.portState ≠ .master ∧ q.portState ≠ .passive) ∧
      q.recommendedState ≠ .master ∧ q.recommendedState ≠ .passive from
    ⟨hoptions, fun _ => honly, hstates.1, hstates.2, hsent⟩
  cases hstep with
  | start _ hoff _ _ _ => exact absurd hp hoff.not_up
  | startFails _ hoff _ => exact absurd hp hoff.not_up
  | faultCleared hoff _ => exact absurd hp hoff.not_up
  | consider _ hdecided hfollows =>
    rename_i r state _
    obtain ⟨hmaster, hpassive⟩ := hdecided.slavish hp h
    have hstate := hfollows.slavish hmaster hpassive
    cases state with
    | initializing => exact ⟨hstate, initializing_slavish.2⟩
    | listening => exact ⟨hstate, listening_slavish.2⟩
    | _ => exact ⟨hstate, hmaster, hpassive⟩
  | timeout _ _ _ =>
    have hslave : (!p.slaveOnly) = false := by rw [h.only hp]; rfl
    rw [Port.timedOut, if_neg (by rw [hslave]; decide)]
    split
    · exact ⟨listening_slavish, listening_slavish.2⟩
    · exact ⟨h.state, h.recommended⟩
  | act hact =>
    cases hact with
    | fault _ => exact ⟨faulty_slavish, h.recommended⟩
    | foreign _ _ _ _ _ => exact ⟨h.state, h.recommended⟩
    | parent _ _ _ _ _ _ _ => exact ⟨h.state, h.recommended⟩
    | send _ _ _ _ _ _ => exact ⟨h.state, h.recommended⟩
    | steer _ _ _ _ _ _ => exact ⟨h.state, h.recommended⟩
  | arrive _ => exact ⟨h.state, h.recommended⟩

theorem Slavish.step (h : Slavish p) (hp : p.Off ∨ p.Up) (hstep : Port.Step A p q) : Slavish q := by
  rcases hp with hp | hp
  · cases hstep with
    | start a hoff hstate hc hd =>
      rename_i c d
      have hopts : c.control.rtOpts = p.rtOpts := congrArg Control.rtOpts hc
      have hrtOpts : d.control.rtOpts = p.rtOpts := (congrArg Control.rtOpts hd).trans hopts
      have hdefaultDS : d.control.slaveOnly = (m1 (initData c)).control.slaveOnly :=
        congrArg Control.slaveOnly hd
      refine ⟨?_, fun _ => ?_, listening_slavish, listening_slavish.2, h.sent⟩
      · show d.control.rtOpts.slaveOnly = true ∨ d.control.rtOpts.clockQuality.clockClass = 255
        rw [hrtOpts]
        exact h.options
      · show d.control.slaveOnly = true
        rw [hdefaultDS]
        show (c.control.rtOpts.slaveOnly || c.control.rtOpts.clockQuality.clockClass == 255) = true
        rw [hopts, Bool.or_eq_true, beq_iff_eq]
        exact h.options
    | startFails a hoff _ =>
      refine ⟨h.options, fun hup => ?_, faulty_slavish, h.recommended, h.sent⟩
      exact absurd hoff.1 hup.recommended_ne
    | faultCleared hoff _ =>
      exact ⟨h.options, fun hup => absurd rfl hup.recommended_ne, initializing_slavish,
        initializing_slavish.2, h.sent⟩
    | consider hup _ _ => exact absurd hup hp.not_up
    | timeout hacting _ _ => exact absurd hacting.up hp.not_up
    | act hact => exact absurd hact.acting.up hp.not_up
    | arrive _ =>
      exact ⟨h.options, fun hup => h.only (hup.congr rfl rfl), h.state, h.recommended, h.sent⟩
  · exact h.started hp hstep

theorem slavish_powerUp {rtOpts : RunTimeOpts}
    (h : rtOpts.slaveOnly = true ∨ rtOpts.clockQuality.clockClass = 255)
    (ipaddr : BitVec 32) (hwaddr : Vector UInt8 6) (env : Env) :
    Slavish (powerUp rtOpts ipaddr hwaddr env).port := by
  have hoff := (port_powerUp (A := fun _ => True) rtOpts ipaddr hwaddr env).1
  obtain ⟨options, hoptions, hpowerUp⟩ := port_powerUp_eq rtOpts ipaddr hwaddr env
  refine ⟨?_, fun hup => absurd hup hoff.not_up, ?_, ?_, ?_⟩ <;> rw [hpowerUp]
  · exact hoptions h
  · exact initializing_slavish
  · exact initializing_slavish.2
  · exact List.forall_mem_nil _

/-- **A clock that must not be a master is none**, whatever arrives: it is in none of the states on
the way, and it never sends what only a master sends. -/
theorem slaveOnly_run (rtOpts : RunTimeOpts)
    (h : rtOpts.slaveOnly = true ∨ rtOpts.clockQuality.clockClass = 255)
    (ipaddr : BitVec 32) (hwaddr : Vector UInt8 6) (env : Env) (es : List PortEvent) :
    let w := es.foldl portStep (powerUp rtOpts ipaddr hwaddr env)
    (w.clock.portDS.portState ≠ .preMaster ∧ w.clock.portDS.portState ≠ .master ∧
      w.clock.portDS.portState ≠ .passive) ∧
      ∀ d ∈ w.datagrams, ∀ ty ∈ mastersOnly, d.type ≠ some ty := by
  have hslavish := run_keeps rtOpts ipaddr hwaddr env (slavish_powerUp h ipaddr hwaddr env)
    (fun _ _ hp h hstep => h.step hp hstep) (carries_any es)
  exact ⟨hslavish.state, hslavish.sent⟩

/-- Time passes, and the port decides what to be. -/
def deciding : List PortEvent := hearing ++ [.turn, .alarm 20000, .turn, .alarm 20000, .turn]

example : (deciding.foldl portStep
    (powerUp defaultRtOpts 0 (.replicate 6 0) sending)).clock.portDS.portState = .master := by
  decide +kernel

def slaveOnlyRtOpts : RunTimeOpts := { defaultRtOpts with slaveOnly := true }

theorem slaveOnly_run_deciding :
    (deciding.foldl portStep
      (powerUp slaveOnlyRtOpts 0 (.replicate 6 0) sending)).clock.portDS.portState ≠ .master :=
  (slaveOnly_run slaveOnlyRtOpts (.inl rfl) 0 (.replicate 6 0) sending deciding).1.2.1

end Slaves

/-! ### Identity -/

/-- **A port that has been started stays the port it is.** It never goes back to its start, it never
goes off, and it keeps its options, its data set, its identity and its control blocks. -/
theorem started_run (rtOpts : RunTimeOpts) (ipaddr : BitVec 32)
    (hwaddr : Vector UInt8 6) (env : Env)
    (es es' : List PortEvent) :
    let w := es.foldl portStep (powerUp rtOpts ipaddr hwaddr env)
    let w' := (es ++ es').foldl portStep (powerUp rtOpts ipaddr hwaddr env)
    w.port.Off ∨ Port.Settled w.port w'.port := by
  intro w w'
  obtain ⟨-, hready⟩ := (ready_powerUp rtOpts ipaddr hwaddr env).run (carries_any es)
  have hw' : w' = es'.foldl portStep w := List.foldl_append
  rcases hready.ready with hoff | hup
  · exact .inl hoff
  · obtain ⟨hsteps, -⟩ := hready.run (carries_any es')
    rw [hw']
    exact .inr (hsteps.settled hup)

/-! ### Announcements -/

/-- What an announcement says. -/
def Datagram.standing (d : Datagram) : Standing := Ptp.standing d.header (msgUnpackAnnounce d.buf)

theorem Datagram.standing_of_pack {d : Datagram} {c : PtpClock} {b : Nat → UInt8}
    (h : d.buf = Outgoing.announce.pack c b)
    (hb : (msgUnpackHeader b).sourcePortIdentity = c.portDS.portIdentity) :
    d.standing = c.control.announced := by
  have hbody := Outgoing.Body.announce.inj (Outgoing.unpack_pack c b .announce)
  have hsource : (Outgoing.announce.header c (msgUnpackHeader b)).sourcePortIdentity =
      c.portDS.portIdentity := hb
  rw [Datagram.standing, Datagram.header_of_pack h, h, hbody, Ptp.standing, hsource]
  rfl

/-- What the port says of itself is so. -/
structure Genuine (p : Port) : Prop where
  header : p.Up → (msgUnpackHeader p.msgObuf).sourcePortIdentity = p.portIdentity
  announced : p.recommendedState = .master → p.announced = p.own
  sent : ∀ d ∈ p.datagrams, d.header.sourcePortIdentity = p.portIdentity ∧
    (d.type = some .announce → d.standing = p.own)
  silent : p.Off → p.datagrams = []

section Announcements
variable {A : Received → Prop} {p q : Port}

theorem Port.Settled.own (h : Port.Settled p q) : q.own = p.own := by
  rw [Control.own, h.defaultDS, h.portIdentity]
  rfl

/-- Whoever is to be a master announces itself. -/
theorem Port.Decided.genuine (h : Port.Decided p q) (hp : Genuine p)
    (hq : q.recommendedState = .master) :
    q.announced = q.own := by
  cases h with
  | not_due _ => exact hp.announced hq
  | due _ _ hc =>
    rename_i c _ _
    have hmaster : (bmc c).2 = .master := by
      have hq : Port.recommendation (bmc c).1.control (bmc c).2 = .master := hq
      generalize (bmc c).2 = state at hq ⊢
      cases state with
      | master => rfl
      | passive => simp [Port.recommendation] at hq; split at hq <;> contradiction
      | _ => contradiction
    rcases bmc_cases c with ⟨-, h | h⟩ | ⟨h, -⟩ | ⟨-, h⟩
    · exact absurd (h.symm.trans hmaster) (by decide)
    · exact absurd (h.symm.trans hmaster) (by decide)
    · show (bmc c).1.control.announced = (bmc c).1.control.own
      rw [h]
      rfl
    · exact absurd (h.symm.trans hmaster) (by decide)

theorem Genuine.send {c : PtpClock} {o : Outgoing} {d : Datagram} (h : Genuine p) (hp : p.Up)
    (hc : c.control = p.toControl) (ho : p.Sends o) (hd : d.buf = o.pack c p.msgObuf) :
    Genuine (p.send c o d) := by
  have hheader := h.header hp
  have hsource : c.portDS.portIdentity = p.portIdentity := congrArg Control.portIdentity hc
  have hup : (p.send c o d).Up := hp.congr rfl rfl
  refine ⟨fun _ => ?_, h.announced, fun e he => ?_, fun hoff => absurd hup hoff.not_up⟩
  · show (msgUnpackHeader (o.pack c p.msgObuf)).sourcePortIdentity = p.portIdentity
    rw [Outgoing.msgUnpackHeader_pack]
    exact hheader
  · rcases List.mem_append.mp he with he | he
    · exact h.sent e he
    rw [List.mem_singleton.mp he]
    refine ⟨?_, fun htype => ?_⟩
    · rw [Datagram.header_of_pack hd]
      exact hheader
    · rw [Datagram.type_of_pack hd] at htype
      cases o with
      | announce =>
        rw [Datagram.standing_of_pack hd (hheader.trans hsource.symm), hc]
        exact h.announced ho.2
      | _ => cases htype

theorem Genuine.started (h : Genuine p) (hp : p.Up) (hstep : Port.Step A p q) : Genuine q := by
  rcases hstep.sends hp with ⟨hdatagrams, hobuf, -⟩ | ⟨c, o, d, hc, ho, hd, rfl⟩
  swap
  · exact h.send hp hc ho hd
  have hsettled := hstep.settled hp
  suffices hannounced : q.recommendedState = .master → q.announced = q.own by
    refine ⟨fun _ => ?_, hannounced, ?_, fun hoff => absurd hsettled.up hoff.not_up⟩
    · rw [hobuf, hsettled.portIdentity]
      exact h.header hp
    · rw [hdatagrams, hsettled.own, hsettled.portIdentity]
      exact h.sent
  cases hstep with
  | start _ hoff _ _ _ => exact absurd hp hoff.not_up
  | startFails _ hoff _ => exact absurd hp hoff.not_up
  | faultCleared hoff _ => exact absurd hp hoff.not_up
  | consider _ hdecided _ =>
    rename_i r state _ _
    cases state with
    | initializing => exact fun hmaster => absurd hmaster initializing_slavish.2.1
    | listening => exact fun hmaster => absurd hmaster listening_slavish.2.1
    | _ => exact hdecided.genuine h
  | timeout _ _ _ =>
    rw [Port.timedOut]
    split
    · exact fun _ => rfl
    · split
      · exact fun hmaster => absurd hmaster listening_slavish.2.1
      · exact h.announced
  | act hact =>
    cases hact with
    | fault _ => exact h.announced
    | foreign _ _ _ _ _ => exact h.announced
    | parent hin hstate _ _ _ _ _ =>
      -- A slave is not to be a master.
      intro hmaster
      have hmaster : p.recommendedState = .master := hmaster
      rw [Port.InStep, hmaster] at hin
      rcases hstate with hs | hs <;> rw [hs] at hin <;> rcases hin with hin | hin <;> contradiction
    | send _ _ _ _ _ _ => exact h.announced
    | steer _ _ _ _ _ _ => exact h.announced
  | arrive _ => exact h.announced

theorem Genuine.step (h : Genuine p) (hp : p.Off ∨ p.Up) (hstep : Port.Step A p q) : Genuine q := by
  rcases hp with hp | hp
  · have hsilent := h.silent hp
    have hnone {e : Datagram} {P : Prop} (he : e ∈ p.datagrams) : P := by
      rw [hsilent] at he
      contradiction
    cases hstep with
    | start a hoff hstate hc hd =>
      rename_i c d
      refine ⟨fun _ => ?_, fun hmaster => absurd hmaster listening_slavish.2.1,
        fun e he => hnone he, fun _ => hsilent⟩
      exact (Outgoing.own_msgPackHeader d p.msgObuf).source
    | startFails a hoff _ =>
      exact ⟨fun hup => absurd hoff.1 hup.recommended_ne, h.announced, fun e he => hnone he,
        fun _ => hsilent⟩
    | faultCleared hoff _ =>
      exact ⟨fun hup => absurd rfl hup.recommended_ne, fun hmaster =>
        absurd hmaster initializing_slavish.2.1,
        fun e he => hnone he, fun _ => hsilent⟩
    | consider hup _ _ => exact absurd hup hp.not_up
    | timeout hacting _ _ => exact absurd hacting.up hp.not_up
    | act hact => exact absurd hact.acting.up hp.not_up
    | arrive _ =>
      have hnot (slots) : ¬ ({ p with slots := slots } : Port).Up :=
        fun hup => hp.not_up (hup.congr rfl rfl)
      exact ⟨fun hup => absurd hup (hnot _), h.announced, fun e he => hnone he, fun _ => hsilent⟩
  · exact h.started hp hstep

/-- **A port announces itself only.** Whatever has arrived, all it has sent is from its own
identity, and all it has announced is its own clock. -/
theorem announced_run (rtOpts : RunTimeOpts) (ipaddr : BitVec 32)
    (hwaddr : Vector UInt8 6) (env : Env)
    (es : List PortEvent) :
    let w := es.foldl portStep (powerUp rtOpts ipaddr hwaddr env)
    ∀ d ∈ w.datagrams, d.header.sourcePortIdentity = w.clock.portDS.portIdentity ∧
      (d.type = some .announce → d.standing = w.clock.control.own) := by
  have hinit : Genuine (powerUp rtOpts ipaddr hwaddr env).port := by
    have hoff := (port_powerUp (A := fun _ => True) rtOpts ipaddr hwaddr env).1
    obtain ⟨options, -, hpowerUp⟩ := port_powerUp_eq rtOpts ipaddr hwaddr env
    refine ⟨fun hup => absurd hup hoff.not_up, ?_, ?_, ?_⟩ <;> rw [hpowerUp]
    · exact fun hmaster => absurd hmaster initializing_slavish.2.1
    · exact List.forall_mem_nil _
    · exact fun _ => rfl
  exact (run_keeps rtOpts ipaddr hwaddr env hinit (fun _ _ hp h hstep => h.step hp hstep)
    (carries_any es)).sent

/-- Nobody else is there, and the port becomes a master. -/
def nobody : List PortEvent := [.turn, .turn, .alarm 20000, .turn, .alarm 20000, .turn]

def alone : World := nobody.foldl portStep (powerUp defaultRtOpts 0 (.replicate 6 0) sending)

example : alone.datagrams.map (·.type) = [some .sync, some .followUp, some .announce] := by
  decide +kernel

theorem announced_run_alone :
    (alone.datagrams.all fun d => d.header.sourcePortIdentity =
      alone.clock.portDS.portIdentity) = true :=
  List.all_eq_true.mpr fun d hd =>
    decide_eq_true (announced_run defaultRtOpts 0 (.replicate 6 0) sending nobody d hd).1

end Announcements

/-! ### Numbers -/

/-- The numbers of the messages of a type. -/
def sequenceIds (ty : MessageType) (ds : List Datagram) : List (BitVec 16) :=
  (ds.filter fun d => d.type = some ty).map fun d => d.header.sequenceId

theorem sequenceIds_append (ty : MessageType) (ds : List Datagram) (d : Datagram) :
    sequenceIds ty (ds ++ [d]) =
    sequenceIds ty ds ++ if d.type = some ty then [d.header.sequenceId] else [] := by
  rw [sequenceIds, List.filter_append, List.map_append, sequenceIds]
  congr 1
  by_cases htype : d.type = some ty <;> simp [htype]

/-- Each `FollowUp` comes right after its `Sync`. -/
def Paired (ds : List Datagram) : Prop :=
  ∀ before d after, ds = before ++ d :: after → d.type = some .followUp →
    ∃ s ∈ before.getLast?, s.type = some .sync ∧ s.header.sequenceId = d.header.sequenceId

theorem Paired.append {ds : List Datagram} {d : Datagram} (h : Paired ds)
    (hd : d.type = some .followUp →
      ∃ s ∈ ds.getLast?, s.type = some .sync ∧ s.header.sequenceId = d.header.sequenceId) :
    Paired (ds ++ [d]) := by
  intro before e after hsplit he
  rcases List.eq_nil_or_concat after with rfl | ⟨after', x, rfl⟩
  · obtain ⟨rfl, hlast⟩ := List.append_inj' hsplit rfl
    obtain rfl := List.singleton_inj.mp hlast
    exact hd he
  · have hsplit : ds ++ [d] = (before ++ e :: after') ++ [x] := by
      rw [hsplit, List.concat_eq_append, List.append_assoc, List.cons_append]
    exact h before e after' (List.append_inj' hsplit rfl).1 he

theorem Outgoing.sequenceId_of_numbered {o : Outgoing} (c : PtpClock) (old : BitVec 16)
    (h : Port.numbered o.type = true) : o.sequenceId c old = c.next o.type := by
  cases o with
  | announce => rfl
  | sync _ => rfl
  | delayReq _ => rfl
  | pdelayReq _ => rfl
  | _ => contradiction

/-- The messages are numbered as they are sent. -/
structure Numbered (p : Port) : Prop where
  ids : ∀ ty, Port.numbered ty = true →
    sequenceIds ty p.datagrams =
      (List.range (sequenceIds ty p.datagrams).length).map (BitVec.ofNat 16) ∧
      p.next ty = BitVec.ofNat 16 (sequenceIds ty p.datagrams).length
  paired : Paired p.datagrams

section Numbers
variable {A : Received → Prop} {p q : Port}

theorem Numbered.congr (h : Numbered p) (hdatagrams : q.datagrams = p.datagrams)
    (hnext : q.next = p.next) :
    Numbered q := by
  refine ⟨?_, ?_⟩
  · rw [hdatagrams, hnext]
    exact h.ids
  · rw [hdatagrams]
    exact h.paired

theorem Numbered.send {c : PtpClock} {o : Outgoing} {d : Datagram} (h : Numbered p)
    (hc : c.control = p.toControl)
    (ho : p.Sends o) (hd : d.buf = o.pack c p.msgObuf) : Numbered (p.send c o d) := by
  have hnext : c.next = p.next := congrArg Control.next hc
  have htype := Datagram.type_of_pack hd
  have hid : d.header.sequenceId = o.sequenceId c (msgUnpackHeader p.msgObuf).sequenceId := by
    rw [Datagram.header_of_pack hd]
    rfl
  refine ⟨fun ty hty => ?_, h.paired.append fun hfollow => ?_⟩
  · obtain ⟨hids, hcount⟩ := h.ids ty hty
    show sequenceIds ty (p.datagrams ++ [d]) =
        (List.range (sequenceIds ty (p.datagrams ++ [d])).length).map (BitVec.ofNat 16) ∧
      (if Port.numbered o.type then Function.update p.next o.type (p.next o.type + 1) else p.next)
        ty =
        BitVec.ofNat 16 (sequenceIds ty (p.datagrams ++ [d])).length
    rw [sequenceIds_append, htype]
    by_cases hsame : o.type = ty
    · -- The message takes its number, and the next one is one more.
      subst hsame
      rw [Outgoing.sequenceId_of_numbered c _ hty, hnext, hcount] at hid
      rw [if_pos rfl, if_pos hty, Function.update_self, hid, hcount, List.length_append,
        List.length_singleton, List.range_succ, List.map_append, ← hids, BitVec.ofNat_add]
      exact ⟨rfl, rfl⟩
    · have hother : some o.type ≠ some ty := fun heq => hsame (Option.some.inj heq)
      rw [if_neg hother, List.append_nil]
      refine ⟨hids, ?_⟩
      split
      · rw [Function.update_of_ne (Ne.symm hsame)]
        exact hcount
      · exact hcount
  · rw [htype] at hfollow
    cases o with
    | followUp t =>
      obtain ⟨-, -, s, hs, hsync, hnumber⟩ := ho
      refine ⟨s, hs, ?_, ?_⟩
      · rw [Datagram.type, Datagram.header, hsync]
        exact typeOf_toCode .sync
      · rw [hid, Datagram.header, hnumber, ← hnext]
        rfl
    | _ => cases hfollow

theorem Numbered.step (h : Numbered p) (hp : p.Off ∨ p.Up) (hstep : Port.Step A p q) :
    Numbered q := by
  rcases hp with hp | hp
  · cases hstep with
    | start a hoff hstate hc hd =>
      rename_i c d
      have hfirst : c.control.next = p.next := congrArg Control.next hc
      have hlast : d.control.next = (m1 (initData c)).control.next := congrArg Control.next hd
      exact h.congr rfl (hlast.trans hfirst)
    | startFails a _ _ => exact h.congr rfl rfl
    | faultCleared _ _ => exact h.congr rfl rfl
    | consider hup _ _ => exact absurd hup hp.not_up
    | timeout hacting _ _ => exact absurd hacting.up hp.not_up
    | act hact => exact absurd hact.acting.up hp.not_up
    | arrive _ => exact h.congr rfl rfl
  · rcases hstep.sends hp with ⟨hdatagrams, -, hnext⟩ | ⟨c, o, d, hc, ho, hd, rfl⟩
    · exact h.congr hdatagrams hnext
    · exact h.send hc ho hd

theorem numbered_powerUp (rtOpts : RunTimeOpts) (ipaddr : BitVec 32) (hwaddr : Vector UInt8 6)
    (env : Env) :
    Numbered (powerUp rtOpts ipaddr hwaddr env).port := by
  obtain ⟨options, -, hpowerUp⟩ := port_powerUp_eq rtOpts ipaddr hwaddr env
  rw [hpowerUp]
  refine ⟨fun ty _ => ⟨rfl, ?_⟩, fun before d after hsplit => ?_⟩
  · cases ty <;> rfl
  · exact absurd hsplit (by simp [Port.enter])

/-- **The messages of a kind are numbered one after the other**, from 0 on and round, and none is
left out, sent or refused. -/
theorem sequenceIds_run (rtOpts : RunTimeOpts) (ipaddr : BitVec 32)
    (hwaddr : Vector UInt8 6) (env : Env)
    (es : List PortEvent) (ty : MessageType) (hty : Port.numbered ty = true) :
    let ids := sequenceIds ty (es.foldl portStep (powerUp rtOpts ipaddr hwaddr env)).datagrams
    ids = (List.range ids.length).map (BitVec.ofNat 16) :=
  ((run_keeps rtOpts ipaddr hwaddr env (numbered_powerUp rtOpts ipaddr hwaddr env)
    (fun _ _ hp h hstep => h.step hp hstep) (carries_any es)).ids ty hty).1

theorem sequenceIds_run_alone :
    sequenceIds .sync alone.datagrams =
      (List.range (sequenceIds .sync alone.datagrams).length).map (BitVec.ofNat 16) :=
  sequenceIds_run defaultRtOpts 0 (.replicate 6 0) sending nobody .sync rfl

/-- **A `FollowUp` follows its `Sync`** at once, and has its number. Each of the two may have been
refused. -/
theorem followUp_run (rtOpts : RunTimeOpts) (ipaddr : BitVec 32)
    (hwaddr : Vector UInt8 6) (env : Env)
    (es : List PortEvent) :
    Paired (es.foldl portStep (powerUp rtOpts ipaddr hwaddr env)).datagrams :=
  (run_keeps rtOpts ipaddr hwaddr env (numbered_powerUp rtOpts ipaddr hwaddr env)
    (fun _ _ hp h hstep => h.step hp hstep) (carries_any es)).paired

end Numbers

/-! ### Trust -/

/-- Who is in `P` announces itself and gives no time, and the others give time unannounced. -/
def Parted (P : PortIdentity → Prop) (m : Received) : Prop :=
  (m.type = some .announce → P m.sender) ∧
    (m.type = some .sync ∨ m.type = some .followUp → ¬ P m.sender)

/-- The port knows who is in `P` and no others. -/
structure Trusting (P : PortIdentity → Prop) (p : Port) : Prop where
  records : ∀ i, P (p.foreignMasterDS.records i).header.sourcePortIdentity
  parent : p.recommendedState = .slave → P p.parent
  steered : p.steered = []

section Trust
variable {P : PortIdentity → Prop} {p q : Port}

theorem records_add {ds : ForeignMasterDS} {header : MsgHeader} (announce : MsgAnnounce)
    (h : ∀ i, P (ds.records i).header.sourcePortIdentity)
    (hheader : P header.sourcePortIdentity) (i : Nat) :
    P ((ds.add header announce).records i).header.sourcePortIdentity := by
  rw [ForeignMasterDS.add]
  split
  · rename_i j _
    by_cases hi : i = j
    · simp only [hi, Function.update_self]
      exact hheader
    · simp only [Function.update_of_ne hi]
      exact h i
  · by_cases hi : i = ds.i
    · simp only [hi, Function.update_self]
      exact hheader
    · simp only [Function.update_of_ne hi]
      exact h i

theorem initializing_ne_slave : PortState.initializing ≠ .slave := by decide
theorem listening_ne_slave : PortState.listening ≠ .slave := by decide
theorem master_ne_slave : PortState.master ≠ .slave := by decide

/-- Who is chosen has been heard. -/
theorem Port.Decided.trusting (h : Port.Decided p q) (hp : Trusting P p) : Trusting P q := by
  cases h with
  | not_due _ => exact hp
  | due _ _ hc =>
    rename_i c _ _
    have hrecords : ∀ i, P (c.foreignMasterDS.records i).header.sourcePortIdentity := by
      have hsame := congrArg Control.foreignMasterDS hc
      have hsame : c.foreignMasterDS = p.foreignMasterDS := hsame
      rw [hsame]
      exact hp.records
    refine ⟨?_, ?_, hp.steered⟩
    · obtain ⟨parent, announced, hbmc⟩ := control_bmc c
      show ∀ i, P ((bmc c).1.control.foreignMasterDS.records i).header.sourcePortIdentity
      rw [hbmc]
      exact hrecords
    · show Port.recommendation (bmc c).1.control (bmc c).2 = .slave → P (bmc c).1.control.parent
      rcases bmc_cases c with ⟨-, h | h⟩ | ⟨-, h⟩ | ⟨h, -⟩
      · rw [h]
        rintro ⟨⟩
      · rw [h, Port.recommendation]
        split <;> rintro ⟨⟩
      · rw [h, Port.recommendation]
        split <;> rintro ⟨⟩
      · rw [h]
        exact fun _ => hrecords _

theorem Trusting.step (h : Trusting P p) (hstep : Port.Step (Parted P) p q) : Trusting P q := by
  cases hstep with
  | start a hoff hstate hc hd =>
    rename_i c d
    have hfirst : c.control.foreignMasterDS = p.foreignMasterDS :=
      congrArg Control.foreignMasterDS hc
    have hlast : d.control.foreignMasterDS = (m1 (initData c)).control.foreignMasterDS :=
      congrArg Control.foreignMasterDS hd
    refine ⟨?_, fun hslave => absurd hslave listening_ne_slave, h.steered⟩
    show ∀ i, P (d.control.foreignMasterDS.records i).header.sourcePortIdentity
    rw [hlast]
    show ∀ i, P (c.control.foreignMasterDS.records i).header.sourcePortIdentity
    rw [hfirst]
    exact h.records
  | startFails a _ _ => exact ⟨h.records, h.parent, h.steered⟩
  | faultCleared _ _ =>
    exact ⟨h.records, fun hslave => absurd hslave initializing_ne_slave, h.steered⟩
  | consider _ hdecided _ =>
    rename_i r state _ _
    have hr := hdecided.trusting h
    cases state with
    | initializing =>
      exact ⟨hr.records, fun hslave => absurd hslave initializing_ne_slave, hr.steered⟩
    | listening => exact ⟨hr.records, fun hslave => absurd hslave listening_ne_slave, hr.steered⟩
    | _ => exact ⟨hr.records, hr.parent, hr.steered⟩
  | timeout _ _ _ =>
    rw [Port.timedOut]
    split
    · exact ⟨h.records, fun hslave => absurd hslave master_ne_slave, h.steered⟩
    · split
      · exact ⟨h.records, fun hslave => absurd hslave listening_ne_slave, h.steered⟩
      · exact ⟨h.records, h.parent, h.steered⟩
  | act hact =>
    cases hact with
    | fault _ => exact ⟨h.records, h.parent, h.steered⟩
    | foreign _ hm htype _ _ => exact ⟨records_add _ h.records (hm.1 htype), h.parent, h.steered⟩
    | parent _ _ _ _ _ _ _ => exact ⟨h.records, h.parent, h.steered⟩
    | send _ _ _ _ _ _ => exact ⟨h.records, h.parent, h.steered⟩
    | steer _ hin hstate hm htype hparent =>
      -- The parent of a slave is in `P`, and its message is not from `P`.
      exfalso
      refine hm.2 htype ?_
      rw [hparent]
      refine h.parent ?_
      rw [Port.InStep] at hin
      split at hin
      · rcases hstate with hs | hs <;> exact absurd (hs.symm.trans hin) (by decide)
      · rcases hstate with hs | hs <;> exact absurd (hs.symm.trans hin) (by decide)
      · assumption
      · rcases hstate with hs | hs <;> rcases hin with hin | hin <;>
          exact absurd (hs.symm.trans hin) (by decide)
      · exact absurd hin not_false
  | arrive _ => exact ⟨h.records, h.parent, h.steered⟩

/-- **Only who has announced itself steers the clock.** If whoever sends a `Sync` or a `FollowUp`
has never been heard announcing itself, the clock is neither set nor adjusted, whatever else
arrives. The identity in a record that has not been set counts as heard. -/
theorem unheard_run (P : PortIdentity → Prop) (hunset : P default)
    (rtOpts : RunTimeOpts) (ipaddr : BitVec 32) (hwaddr : Vector UInt8 6) (env : Env)
    (es : List PortEvent)
    (hes : ∀ e ∈ es, e.Carries (Parted P)) :
    ∀ call ∈ (es.foldl portStep (powerUp rtOpts ipaddr hwaddr env)).clockCalls,
      call = .adjFreq 0 := by
  have hinit : Trusting P (powerUp rtOpts ipaddr hwaddr env).port := by
    obtain ⟨options, -, hpowerUp⟩ := port_powerUp_eq rtOpts ipaddr hwaddr env
    rw [hpowerUp]
    exact ⟨fun _ => hunset, fun hslave => absurd hslave initializing_ne_slave, rfl⟩
  have hsteered :=
    (run_keeps rtOpts ipaddr hwaddr env hinit (fun _ _ _ h hstep => h.step hstep) hes).steered
  intro call hcall
  have hnot := List.filter_eq_nil_iff.mp hsteered call hcall
  exact not_not.mp fun hne => hnot (decide_eq_true hne)

/-- A clock that has not been heard, and its `Sync`. -/
def stranger : PtpClock :=
  { (default : PtpClock) with
    portDS := { (default : PtpClock).portDS with
      portIdentity := ⟨Vector.replicate 8 1, 1⟩, versionNumber := versionPtp } }

def strangeSync : Pbuf :=
  ⟨(Outgoing.sync default).pack stranger (msgPackHeader stranger fun _ => 0), syncLength⟩

theorem strangeSync_carries : Port.Carries (Parted (· = default)) [strangeSync] := by
  have htype : typeOf (msgUnpackHeader strangeSync.payload).messageType = some .sync := by
    decide +kernel
  have hsender : (msgUnpackHeader strangeSync.payload).sourcePortIdentity ≠ default := by
    decide +kernel
  refine Port.carries_single (by decide) fun m hm => ?_
  rw [Parted, Received.type, Received.sender, hm, htype]
  refine ⟨fun hannounce => ?_, fun _ => hsender⟩
  cases hannounce

theorem unheard_run_strangeSync :
    (([.turn, .turn, .eventDatagram [strangeSync], .turn].foldl portStep
      (powerUp defaultRtOpts 0 (.replicate 6 0) sending)).clockCalls.all fun call =>
        call = .adjFreq 0) = true :=
  List.all_eq_true.mpr fun call hcall => decide_eq_true
    (unheard_run (· = default) rfl defaultRtOpts 0 (.replicate 6 0) sending _
      (by simp [PortEvent.Carries, strangeSync_carries]) call hcall)

end Trust

end Stm32F4.Ptp
