import Mathlib.Algebra.Order.Ring.Int
import Stm32F4.Lib.Scan
import Stm32F4.Ptp.Datatypes

/-! The best master clock algorithm.

`bmcDataSetComparison` compares two announcements. On announcements that agree about their
grandmasters it is the lexicographic order of what it looks at (`bmcDataSetComparison_eq`), so the
loop of `bmc` is a search for an extremal record. It looks for records that are not better, though:
a record replaces the one that is kept if it compares less, which is to say worse. What is kept is
the worst of the foreign masters, and of the clocks that all know each other just the worst becomes
a slave, all others masters (`bmc_election`). -/
namespace Stm32F4.Ptp
open Std Lib

/-! ### The data sets -/

def defaultTwoStepFlag : Bool := true
def numberPorts : BitVec 16 := 1
def defaultDelayreqInterval : BitVec 8 := 3
def defaultPdelayreqInterval : BitVec 8 := 1
def defaultAnnounceReceiptTimeout : BitVec 8 := 6
def versionPtp : BitVec 8 := 2
/-- `INTERNAL_OSCILLATOR` -/
def defaultTimeSource : BitVec 8 := 0xA0

def stateDecisionEvent : BitVec 32 := 0x0040
def synchronizationFault : BitVec 32 := 0x0200
def masterClockSelected : BitVec 32 := 0x0400
def masterClockChanged : BitVec 32 := 0x0800

def setFlag {w : Nat} (flagField mask : BitVec w) : BitVec w := flagField ||| mask
def clearFlag {w : Nat} (flagField mask : BitVec w) : BitVec w := flagField &&& ~~~mask

/-- `memcmp` of two identities: the order at the first octet in which they differ. -/
def memcmp (a b : ClockIdentity) : Ordering := compare a.toList b.toList

def eui48ToEui64 (eui48 : Vector UInt8 6) : ClockIdentity :=
  #v[eui48[0], eui48[1], eui48[2], 0xff, 0xfe, eui48[3], eui48[4], eui48[5]]

def initData (c : PtpClock) : PtpClock :=
  let rtOpts := c.rtOpts
  let clockIdentity := eui48ToEui64 c.portUuidField
  { c with
    defaultDS :=
      { twoStepFlag := defaultTwoStepFlag
        clockIdentity := clockIdentity
        numberPorts := numberPorts
        clockQuality := rtOpts.clockQuality
        priority1 := rtOpts.priority1
        priority2 := rtOpts.priority2
        domainNumber := rtOpts.domainNumber
        slaveOnly := rtOpts.slaveOnly }
    portDS := { c.portDS with
      portIdentity := ⟨clockIdentity, numberPorts⟩
      logMinDelayReqInterval := defaultDelayreqInterval
      peerMeanPathDelay := ⟨0, 0⟩
      logAnnounceInterval := rtOpts.announceInterval
      announceReceiptTimeout := defaultAnnounceReceiptTimeout
      logSyncInterval := rtOpts.syncInterval
      delayMechanism := rtOpts.delayMechanism
      logMinPdelayReqInterval := defaultPdelayreqInterval
      versionNumber := versionPtp }
    -- `i` and `best` stay.
    foreignMasterDS := { c.foreignMasterDS with count := 0, capacity := rtOpts.maxForeignRecords }
    inboundLatency := rtOpts.inboundLatency
    outboundLatency := rtOpts.outboundLatency
    servo := rtOpts.servo }

def isSamePortIdentity (A B : PortIdentity) : Bool :=
  memcmp A.clockIdentity B.clockIdentity == .eq && A.portNumber == B.portNumber

/-- The search of `addForeign`, from `j` on and round the table. -/
def findForeign (ds : ForeignMasterDS) (p : PortIdentity) : (left j : Nat) → Option Nat
  | 0, _ => none
  | left + 1, j =>
    if isSamePortIdentity p (ds.records j).foreignMasterPortIdentity then some j
    else findForeign ds p left ((j + 1) % ds.count)

/-- The table with the announcement in it. -/
def ForeignMasterDS.add (ds : ForeignMasterDS) (header : MsgHeader) (announce : MsgAnnounce) :
    ForeignMasterDS :=
  match findForeign ds header.sourcePortIdentity ds.count ds.best with
  | some j =>
    let r := { ds.records j with
      foreignMasterAnnounceMessages := (ds.records j).foreignMasterAnnounceMessages + 1
      header := header, announce := announce }
    { ds with records := Function.update ds.records j r }
  | none =>
    let r :=
      { foreignMasterPortIdentity := header.sourcePortIdentity
        foreignMasterAnnounceMessages := 0
        announce := announce
        header := header }
    { ds with
      records := Function.update ds.records ds.i r
      count := if ds.count < ds.capacity then ds.count + 1 else ds.count
      i := (ds.i + 1) % ds.capacity }

def addForeign (c : PtpClock) (header : MsgHeader) (announce : MsgAnnounce) : PtpClock :=
  { c with foreignMasterDS := c.foreignMasterDS.add header announce }

/-- The clock becomes a master; `m2` is the same. -/
def m1 (c : PtpClock) : PtpClock :=
  { c with
    currentDS := { stepsRemoved := 0, offsetFromMaster := ⟨0, 0⟩, meanPathDelay := ⟨0, 0⟩ }
    parentDS := { c.parentDS with
      parentPortIdentity := ⟨c.defaultDS.clockIdentity, 0⟩
      grandmasterIdentity := c.defaultDS.clockIdentity
      grandmasterClockQuality := c.defaultDS.clockQuality
      grandmasterPriority1 := c.defaultDS.priority1
      grandmasterPriority2 := c.defaultDS.priority2 }
    timePropertiesDS :=
      { currentUtcOffset := c.rtOpts.currentUtcOffset
        currentUtcOffsetValid := false
        leap59 := false
        leap61 := false
        timeTraceable := false
        frequencyTraceable := false
        ptpTimescale := false
        timeSource := defaultTimeSource } }

/-- The clock becomes passive: nothing is recorded. -/
def p1 (c : PtpClock) : PtpClock := c

/-- The clock becomes a slave of the sender. -/
def s1 (c : PtpClock) (header : MsgHeader) (announce : MsgAnnounce) : PtpClock :=
  let isFromCurrentParent :=
    isSamePortIdentity c.parentDS.parentPortIdentity header.sourcePortIdentity
  { c with
    currentDS := { c.currentDS with stepsRemoved := announce.stepsRemoved + 1 }
    events := if isFromCurrentParent then c.events else setFlag c.events masterClockChanged
    parentDS := { c.parentDS with
      parentPortIdentity := header.sourcePortIdentity
      grandmasterIdentity := announce.grandmasterIdentity
      grandmasterClockQuality := announce.grandmasterClockQuality
      grandmasterPriority1 := announce.grandmasterPriority1
      grandmasterPriority2 := announce.grandmasterPriority2 }
    timePropertiesDS :=
      { currentUtcOffset := announce.currentUtcOffset
        currentUtcOffsetValid := getFlag header.flagField1 flag1UtcOffsetValid
        leap59 := getFlag header.flagField1 flag1Leap59
        leap61 := getFlag header.flagField1 flag1Leap61
        timeTraceable := getFlag header.flagField1 flag1TimeTraceable
        frequencyTraceable := getFlag header.flagField1 flag1FrequencyTraceable
        ptpTimescale := getFlag header.flagField1 flag1PtpTimescale
        timeSource := announce.timeSource } }

def copyD0 (header : MsgHeader) (announce : MsgAnnounce) (c : PtpClock) : MsgHeader × MsgAnnounce :=
  ({ header with
    sourcePortIdentity :=
    { header.sourcePortIdentity with clockIdentity := c.defaultDS.clockIdentity } },
    { announce with
      grandmasterPriority1 := c.defaultDS.priority1
      grandmasterIdentity := c.defaultDS.clockIdentity
      grandmasterClockQuality := c.defaultDS.clockQuality
      grandmasterPriority2 := c.defaultDS.priority2
      stepsRemoved := 0 })

/-! ### The comparison -/

/-- `COMPARE_AB_RETURN_BETTER`: 1 if `A` is better, -1 if `B` is. -/
def compareAbReturnBetter (a b : Nat) (rest : Int) : Int :=
  if a > b then -1 else if b > a then 1 else rest

/-- Figure 28: the same grandmaster. -/
def compareTopology (headerA : MsgHeader) (announceA : MsgAnnounce) (headerB : MsgHeader)
    (announceB : MsgAnnounce)
    (c : PtpClock) : Int :=
  let a := announceA.stepsRemoved.toNat
  let b := announceB.stepsRemoved.toNat
  if a > b + 1 then -1
  else if b > a + 1 then 1
  else if a > b then
    match memcmp headerA.sourcePortIdentity.clockIdentity c.portDS.portIdentity.clockIdentity with
    | .gt => -1
    | .lt => -1
    | .eq => 0
  else if a < b then
    match memcmp headerB.sourcePortIdentity.clockIdentity c.portDS.portIdentity.clockIdentity with
    | .gt => 1
    | .lt => 1
    | .eq => 0
  else
    match memcmp headerA.sourcePortIdentity.clockIdentity
      headerB.sourcePortIdentity.clockIdentity with
    | .gt => -1
    | .lt => 1
    | .eq => 0

def bmcDataSetComparison (headerA : MsgHeader) (announceA : MsgAnnounce) (headerB : MsgHeader)
    (announceB : MsgAnnounce) (c : PtpClock) : Int :=
  let grandmasterIdentityComp := memcmp announceA.grandmasterIdentity announceB.grandmasterIdentity
  let topology := compareTopology headerA announceA headerB announceB c
  if grandmasterIdentityComp ≠ .eq then
    -- Figure 27
    compareAbReturnBetter announceA.grandmasterPriority1.toNat
      announceB.grandmasterPriority1.toNat <|
    compareAbReturnBetter announceA.grandmasterClockQuality.clockClass.toNat
      announceB.grandmasterClockQuality.clockClass.toNat <|
    compareAbReturnBetter announceA.grandmasterClockQuality.clockAccuracy.toNat
      announceB.grandmasterClockQuality.clockAccuracy.toNat <|
    compareAbReturnBetter announceA.grandmasterClockQuality.offsetScaledLogVariance.toNat
      announceB.grandmasterClockQuality.offsetScaledLogVariance.toNat <|
    compareAbReturnBetter announceA.grandmasterPriority2.toNat
      announceB.grandmasterPriority2.toNat <|
    match grandmasterIdentityComp with
    | .gt => -1
    | .lt => 1
    | .eq => topology
  else topology

/-- The state decision for the best record. -/
def bmcStateDecision (header : MsgHeader) (announce : MsgAnnounce) (c : PtpClock) :
    PtpClock × PortState :=
  if c.foreignMasterDS.count = 0 ∧ c.portDS.portState = .listening then (c, .listening)
  else
    let d0 := copyD0 c.msgTmpHeader c.msgTmp c
    let c := { c with msgTmpHeader := d0.1, msgTmp := d0.2 }
    let comp := bmcDataSetComparison d0.1 d0.2 header announce c
    if c.defaultDS.clockQuality.clockClass < 128 then
      if comp = 1 then (m1 c, .master) else (p1 c, .passive)
    else
      if comp = 1 then (m1 c, .master) else (s1 c header announce, .slave)

/-- The loop of `bmc`. -/
def bmcBest (c : PtpClock) : Nat :=
  scan (fun x best =>
    decide (bmcDataSetComparison x.header x.announce best.header best.announce c < 0))
    c.foreignMasterDS.records (c.foreignMasterDS.count - 1)

def bmc (c : PtpClock) : PtpClock × PortState :=
  let best := bmcBest c
  let c := { c with foreignMasterDS := { c.foreignMasterDS with best := best } }
  let r := c.foreignMasterDS.records best
  bmcStateDecision r.header r.announce c

/-! ### The order behind it -/

/-- What the comparison looks at. -/
structure Standing where
  grandmasterPriority1 : BitVec 8
  grandmasterClockQuality : ClockQuality
  grandmasterPriority2 : BitVec 8
  grandmasterIdentity : ClockIdentity
  stepsRemoved : BitVec 16
  sender : ClockIdentity
deriving DecidableEq

def standing (header : MsgHeader) (announce : MsgAnnounce) : Standing where
  grandmasterPriority1 := announce.grandmasterPriority1
  grandmasterClockQuality := announce.grandmasterClockQuality
  grandmasterPriority2 := announce.grandmasterPriority2
  grandmasterIdentity := announce.grandmasterIdentity
  stepsRemoved := announce.stepsRemoved
  sender := header.sourcePortIdentity.clockIdentity

/-- The better one is less. -/
def Standing.compare : Standing → Standing → Ordering :=
  compareLex (compareOn fun s => s.grandmasterPriority1.toNat) <|
  compareLex (compareOn fun s => s.grandmasterClockQuality.clockClass.toNat) <|
  compareLex (compareOn fun s => s.grandmasterClockQuality.clockAccuracy.toNat) <|
  compareLex (compareOn fun s => s.grandmasterClockQuality.offsetScaledLogVariance.toNat) <|
  compareLex (compareOn fun s => s.grandmasterPriority2.toNat) <|
  compareLex (compareOn fun s => s.grandmasterIdentity.toList) <|
  compareLex (compareOn fun s => s.stepsRemoved.toNat) (compareOn fun s => s.sender.toList)

instance : TransCmp Standing.compare := by
  unfold Standing.compare
  infer_instance

/-- The two agree about a grandmaster that they share. -/
def Standing.Agree (a b : Standing) : Prop :=
  a.grandmasterIdentity = b.grandmasterIdentity → a.grandmasterPriority1 = b.grandmasterPriority1 ∧
    a.grandmasterClockQuality = b.grandmasterClockQuality ∧
      a.grandmasterPriority2 = b.grandmasterPriority2

/-- What the receiver has from itself has no steps. -/
def Standing.Foreign (self : ClockIdentity) (a : Standing) : Prop :=
  a.sender = self → a.stepsRemoved = 0

instance (a b : Standing) : Decidable (a.Agree b) := inferInstanceAs (Decidable (_ → _))

instance (self : ClockIdentity) (a : Standing) : Decidable (a.Foreign self) :=
  inferInstanceAs (Decidable (_ → _))

/-- The result for an order. -/
def verdict : Ordering → Int
  | .lt => 1
  | .eq => 0
  | .gt => -1

@[simp] theorem verdict_neg_iff (o : Ordering) : verdict o < 0 ↔ o = .gt := by cases o <;> decide

@[simp] theorem verdict_eq_one_iff (o : Ordering) : verdict o = 1 ↔ o = .lt := by cases o <;> decide

theorem compareAbReturnBetter_eq (a b : Nat) (o : Ordering) :
    compareAbReturnBetter a b (verdict o) = verdict ((compare a b).then o) := by
  rw [compareAbReturnBetter]
  rcases Nat.lt_trichotomy a b with h | rfl | h
  · rw [if_neg (Nat.lt_asymm h), if_pos h, Nat.compare_eq_lt.mpr h]
    rfl
  · rw [if_neg (Nat.lt_irrefl a), if_neg (Nat.lt_irrefl a), Nat.compare_eq_eq.mpr rfl]
    rfl
  · rw [if_pos h, Nat.compare_eq_gt.mpr h]
    rfl

section Comparison
variable {headerA headerB : MsgHeader} {announceA announceB : MsgAnnounce} {c : PtpClock}

theorem memcmp_eq_iff {a b : ClockIdentity} : memcmp a b = .eq ↔ a = b :=
  LawfulEqOrd.compare_eq_iff_eq.trans Vector.toList_inj

/-- An announcement with steps is from another clock. -/
theorem Standing.Foreign.memcmp_ne {self : ClockIdentity} {a : Standing} (h : a.Foreign self)
    (hpos : 0 < a.stepsRemoved.toNat) : memcmp a.sender self ≠ .eq := by
  intro heq
  rw [h (memcmp_eq_iff.mp heq)] at hpos
  exact absurd hpos (Nat.not_lt_zero _)

theorem compareTopology_eq
    (hA : (standing headerA announceA).Foreign c.portDS.portIdentity.clockIdentity)
    (hB : (standing headerB announceB).Foreign c.portDS.portIdentity.clockIdentity) :
    compareTopology headerA announceA headerB announceB c =
      verdict ((compare announceA.stepsRemoved.toNat announceB.stepsRemoved.toNat).then
        (memcmp headerA.sourcePortIdentity.clockIdentity
          headerB.sourcePortIdentity.clockIdentity)) := by
  simp only [compareTopology]
  rcases Nat.lt_trichotomy announceA.stepsRemoved.toNat announceB.stepsRemoved.toNat with h | h | h
  · have hne := hB.memcmp_ne (Nat.zero_lt_of_lt h)
    rw [if_neg (by omega), if_pos h, if_neg (Nat.lt_asymm h), Nat.compare_eq_lt.mpr h]
    -- Whichever way the identities compare, the one with less steps is better.
    split
    · rfl
    · split
      · rfl
      · rfl
      · exact absurd ‹_› hne
  · rw [if_neg (by omega), if_neg (by omega), if_neg (by omega), if_neg (by omega),
      Nat.compare_eq_eq.mpr h]
    cases memcmp headerA.sourcePortIdentity.clockIdentity
      headerB.sourcePortIdentity.clockIdentity <;> rfl
  · have hne := hA.memcmp_ne (Nat.zero_lt_of_lt h)
    rw [if_neg (by omega : ¬ _ > announceA.stepsRemoved.toNat + 1), if_pos h,
      Nat.compare_eq_gt.mpr h]
    split
    · rfl
    · split
      · rfl
      · rfl
      · exact absurd ‹_› hne

/-- **The comparison is an order** on announcements that agree about their grandmasters: first by
what they say of these, then by the steps to them, then by the senders. -/
theorem bmcDataSetComparison_eq
    (hagree : (standing headerA announceA).Agree (standing headerB announceB))
    (hA : (standing headerA announceA).Foreign c.portDS.portIdentity.clockIdentity)
    (hB : (standing headerB announceB).Foreign c.portDS.portIdentity.clockIdentity) :
    bmcDataSetComparison headerA announceA headerB announceB c =
      verdict ((standing headerA announceA).compare (standing headerB announceB)) := by
  rw [bmcDataSetComparison, compareTopology_eq hA hB]
  cases hm : memcmp announceA.grandmasterIdentity announceB.grandmasterIdentity with
  | eq =>
    obtain ⟨hp1, hq, hp2⟩ := hagree (memcmp_eq_iff.mp hm)
    simp only [standing] at hp1 hq hp2
    have hid :
        compare announceA.grandmasterIdentity.toList announceB.grandmasterIdentity.toList = .eq :=
      hm
    simp [Standing.compare, standing, compareLex, compareOn, hp1, hq, hp2, hid, memcmp]
  | lt =>
    rw [if_pos (by decide)]
    have hrest : (1 : Int) = verdict (.then .lt
        (.then (compare announceA.stepsRemoved.toNat announceB.stepsRemoved.toNat)
          (memcmp headerA.sourcePortIdentity.clockIdentity
            headerB.sourcePortIdentity.clockIdentity))) := rfl
    simp only [hrest, compareAbReturnBetter_eq]
    rw [← hm]
    rfl
  | gt =>
    rw [if_pos (by decide)]
    have hrest : (-1 : Int) = verdict (.then .gt
        (.then (compare announceA.stepsRemoved.toNat announceB.stepsRemoved.toNat)
          (memcmp headerA.sourcePortIdentity.clockIdentity
            headerB.sourcePortIdentity.clockIdentity))) := rfl
    simp only [hrest, compareAbReturnBetter_eq]
    rw [← hm]
    rfl

/-- An announcement of the grandmaster with that identity and first priority. -/
def announcementOf (k : UInt8) (priority1 : BitVec 8) : MsgAnnounce :=
  { (default : MsgAnnounce) with
    grandmasterIdentity := #v[0, 0, 0, 0xff, 0xfe, 0, 0, k], grandmasterPriority1 := priority1 }

theorem bmcDataSetComparison_announcementOf :
    bmcDataSetComparison default (announcementOf 1 248) default (announcementOf 2 128) default =
      verdict ((standing default (announcementOf 1 248)).compare
        (standing default (announcementOf 2 128))) :=
  bmcDataSetComparison_eq (by decide) (by decide) (by decide)

end Comparison

/-! ### The decision -/

def ForeignMasterRecord.standing (r : ForeignMasterRecord) : Standing :=
  Ptp.standing r.header r.announce

/-- What the clock says of itself. -/
def PtpClock.own (c : PtpClock) : Standing where
  grandmasterPriority1 := c.defaultDS.priority1
  grandmasterClockQuality := c.defaultDS.clockQuality
  grandmasterPriority2 := c.defaultDS.priority2
  grandmasterIdentity := c.defaultDS.clockIdentity
  stepsRemoved := 0
  sender := c.defaultDS.clockIdentity

/-- The foreign masters agree with each other and with the clock. -/
structure Coherent (c : PtpClock) : Prop where
  identity : c.portDS.portIdentity.clockIdentity = c.defaultDS.clockIdentity
  agree : ∀ i < c.foreignMasterDS.count, ∀ j < c.foreignMasterDS.count,
    (c.foreignMasterDS.records i).standing.Agree (c.foreignMasterDS.records j).standing
  own : ∀ j < c.foreignMasterDS.count, c.own.Agree (c.foreignMasterDS.records j).standing
  foreign : ∀ j < c.foreignMasterDS.count,
    (c.foreignMasterDS.records j).standing.Foreign c.portDS.portIdentity.clockIdentity

def worse (x y : ForeignMasterRecord) : Ordering := x.standing.compare y.standing

instance : TransCmp worse where
  eq_swap := fun {x y} => OrientedCmp.eq_swap (a := x.standing) (b := y.standing)
  isLE_trans :=
    fun {x y z} => TransCmp.isLE_trans (a := x.standing) (b := y.standing) (c := z.standing)

section Decision
variable {c : PtpClock}

theorem Coherent.bmcBest_eq (h : Coherent c) (hpos : 0 < c.foreignMasterDS.count) :
    bmcBest c = greatest worse c.foreignMasterDS.records (c.foreignMasterDS.count - 1) := by
  apply scan_congr
  intro i hi j hj
  have hi : i < c.foreignMasterDS.count := by omega
  have hj : j < c.foreignMasterDS.count := by omega
  rw [bmcDataSetComparison_eq (h.agree i hi j hj) (h.foreign i hi) (h.foreign j hj)]
  simp only [verdict_neg_iff]
  exact Bool.beq_eq_decide_eq .. |>.symm

theorem bmcBest_lt (hpos : 0 < c.foreignMasterDS.count) :
    bmcBest c < c.foreignMasterDS.count := by
  have hle : bmcBest c ≤ c.foreignMasterDS.count - 1 := scan_le ..
  omega

/-- The record that is kept is the worst one. -/
theorem Coherent.le_bmcBest (h : Coherent c) {j : Nat} (hj : j < c.foreignMasterDS.count) :
    ((c.foreignMasterDS.records j).standing.compare
      (c.foreignMasterDS.records (bmcBest c)).standing).isLE := by
  rw [h.bmcBest_eq (Nat.zero_lt_of_lt hj)]
  exact le_scan worse c.foreignMasterDS.records _ j (by omega)

/-- The decision is a comparison of the clock with the record. -/
theorem bmcStateDecision_eq {header : MsgHeader} {announce : MsgAnnounce}
    (hpos : 0 < c.foreignMasterDS.count)
    (hagree : c.own.Agree (standing header announce))
    (hforeign : (standing header announce).Foreign c.portDS.portIdentity.clockIdentity) :
    ∃ d : PtpClock, d.defaultDS = c.defaultDS ∧ bmcStateDecision header announce c =
      if c.own.compare (standing header announce) = .lt then (m1 d, .master)
      else if c.defaultDS.clockQuality.clockClass < 128 then (p1 d, .passive)
      else (s1 d header announce, .slave) := by
  let d0 := copyD0 c.msgTmpHeader c.msgTmp c
  let d := { c with msgTmpHeader := d0.1, msgTmp := d0.2 }
  have hcomp : bmcDataSetComparison d0.1 d0.2 header announce d =
      verdict (c.own.compare (standing header announce)) :=
    bmcDataSetComparison_eq hagree (fun _ => rfl) hforeign
  refine ⟨d, rfl, ?_⟩
  rw [bmcStateDecision, if_neg fun hand => absurd hand.1 (Nat.ne_of_gt hpos)]
  simp only [d0, d] at hcomp ⊢
  rw [hcomp]
  simp only [verdict_eq_one_iff]
  split <;> split <;> rfl

theorem Coherent.bmc_eq (h : Coherent c) (hpos : 0 < c.foreignMasterDS.count) :
    ∃ d : PtpClock, d.defaultDS = c.defaultDS ∧ bmc c =
      if c.own.compare (c.foreignMasterDS.records (bmcBest c)).standing = .lt then (m1 d, .master)
      else if c.defaultDS.clockQuality.clockClass < 128 then (p1 d, .passive)
      else
        (s1 d (c.foreignMasterDS.records (bmcBest c)).header
          (c.foreignMasterDS.records (bmcBest c)).announce, .slave) := by
  let d := { c with foreignMasterDS := { c.foreignMasterDS with best := bmcBest c } }
  have hbest := bmcBest_lt hpos
  exact bmcStateDecision_eq (c := d) hpos (h.own _ hbest) (h.foreign _ hbest)

/-- A clock becomes a master as soon as one foreign master is worse. -/
theorem Coherent.bmc_master_iff (h : Coherent c) (hpos : 0 < c.foreignMasterDS.count) :
    (bmc c).2 = .master ↔
    ∃ j < c.foreignMasterDS.count, c.own.compare (c.foreignMasterDS.records j).standing = .lt := by
  obtain ⟨d, -, hbmc⟩ := h.bmc_eq hpos
  have hiff : (bmc c).2 = .master ↔
      c.own.compare (c.foreignMasterDS.records (bmcBest c)).standing = .lt := by
    rw [hbmc]
    split
    · simp [*]
    · split <;> simp [*]
  rw [hiff]
  constructor
  · exact fun hlt => ⟨bmcBest c, bmcBest_lt hpos, hlt⟩
  · rintro ⟨j, hj, hlt⟩
    exact TransCmp.lt_of_lt_of_isLE hlt (h.le_bmcBest hj)

end Decision

/-! ### An election -/

/-- A clock that stands for election. -/
structure Candidate where
  identity : ClockIdentity
  quality : ClockQuality
  priority1 : BitVec 8
  priority2 : BitVec 8
deriving DecidableEq

/-- What it announces as a master. -/
def Candidate.standing (p : Candidate) : Standing :=
  ⟨p.priority1, p.quality, p.priority2, p.identity, 0, p.identity⟩

def Candidate.Better (p q : Candidate) : Prop := p.standing.compare q.standing = .lt

/-- Two candidates are never of one identity. -/
def Candidates (ps : List Candidate) : Prop := ∀ p ∈ ps, ∀ q ∈ ps, p.identity = q.identity → p = q

/-- The clock is the candidate `p` and has the announcements of all others, and no more. -/
structure Enrolled (ps : List Candidate) (p : Candidate) (c : PtpClock) : Prop where
  identity : c.portDS.portIdentity.clockIdentity = c.defaultDS.clockIdentity
  own : c.own = p.standing
  known : ∀ q ∈ ps, q ≠ p → ∃ j < c.foreignMasterDS.count,
    (c.foreignMasterDS.records j).standing = q.standing
  only : ∀ j < c.foreignMasterDS.count, ∃ q ∈ ps, q ≠ p ∧
    (c.foreignMasterDS.records j).standing = q.standing

section Election
variable {ps : List Candidate} {p q : Candidate} {c : PtpClock}

/-- The order tells candidates apart. -/
theorem Candidates.eq_of_compare (h : Candidates ps) (hp : p ∈ ps) (hq : q ∈ ps)
    (heq : p.standing.compare q.standing = .eq) : p = q := by
  apply h p hp q hq
  simp only [Standing.compare, compareLex, compareOn, Ordering.then_eq_eq] at heq
  exact Vector.toList_inj.mp (LawfulEqOrd.eq_of_compare heq.2.2.2.2.2.1)

theorem Candidates.better_of_isLE (h : Candidates ps) (hp : p ∈ ps) (hq : q ∈ ps) (hne : p ≠ q)
    (hle : (p.standing.compare q.standing).isLE) : p.Better q := by
  cases hc : p.standing.compare q.standing with
  | lt => exact hc
  | eq => exact absurd (h.eq_of_compare hp hq hc) hne
  | gt => rw [hc] at hle; contradiction

theorem Candidates.agree (h : Candidates ps) (hp : p ∈ ps) (hq : q ∈ ps) :
    p.standing.Agree q.standing := by
  intro heq
  obtain rfl := h p hp q hq heq
  exact ⟨rfl, rfl, rfl⟩

theorem Enrolled.coherent (hps : Candidates ps) (hp : p ∈ ps) (h : Enrolled ps p c) :
    Coherent c where
  identity := h.identity
  agree := by
    intro i hi j hj
    obtain ⟨q, hq, -, hi⟩ := h.only i hi
    obtain ⟨r, hr, -, hj⟩ := h.only j hj
    rw [hi, hj]
    exact hps.agree hq hr
  own := by
    intro j hj
    obtain ⟨q, hq, -, hj⟩ := h.only j hj
    rw [hj, h.own]
    exact hps.agree hp hq
  foreign := by
    intro j hj
    obtain ⟨q, -, -, hj⟩ := h.only j hj
    rw [hj]
    exact fun _ => rfl

theorem Enrolled.count_pos (h : Enrolled ps p c) (hq : q ∈ ps) (hne : q ≠ p) :
    0 < c.foreignMasterDS.count := by
  obtain ⟨j, hj, -⟩ := h.known q hq hne
  exact Nat.zero_lt_of_lt hj

theorem Enrolled.bmc_master_iff (hps : Candidates ps) (hp : p ∈ ps) (h : Enrolled ps p c)
    (hq : q ∈ ps) (hne : q ≠ p) : (bmc c).2 = .master ↔ ∃ r ∈ ps, p.Better r := by
  rw [(h.coherent hps hp).bmc_master_iff (h.count_pos hq hne), h.own]
  constructor
  · rintro ⟨j, hj, hlt⟩
    obtain ⟨r, hr, -, hst⟩ := h.only j hj
    rw [hst] at hlt
    exact ⟨r, hr, hlt⟩
  · rintro ⟨r, hr, hlt⟩
    have hrp : r ≠ p := by
      rintro rfl
      have hself : r.standing.compare r.standing = .eq := ReflCmp.compare_self
      rw [Candidate.Better, hself] at hlt
      contradiction
    obtain ⟨j, hj, hst⟩ := h.known r hr hrp
    exact ⟨j, hj, by rw [hst]; exact hlt⟩

/-- Some candidate is no better than any other. -/
theorem exists_worst (ps : List Candidate) (hne : ps ≠ []) :
    ∃ w ∈ ps, ∀ p ∈ ps, (p.standing.compare w.standing).isLE := by
  induction ps with
  | nil => exact absurd rfl hne
  | cons q ps ih =>
    rcases ps.eq_nil_or_concat with rfl | hps
    · exact ⟨q, List.mem_cons_self, fun p hp => by
        rw [List.mem_singleton.mp hp]; exact ReflCmp.isLE_rfl⟩
    · obtain ⟨w, hw, hle⟩ := ih (by rintro rfl; simp at hps)
      by_cases hq : (q.standing.compare w.standing).isLE
      · exact ⟨w, List.mem_cons_of_mem _ hw, List.forall_mem_cons.mpr ⟨hq, hle⟩⟩
      · have hlt := OrientedCmp.lt_of_not_isLE hq
        refine ⟨q, List.mem_cons_self, List.forall_mem_cons.mpr ⟨ReflCmp.isLE_rfl, fun p hp => ?_⟩⟩
        exact TransCmp.isLE_trans (hle p hp) (by simp [hlt])

/-- **Only the worst clock becomes a slave.** Of clocks that have the announcements of all others,
just the worst one does not become a master. If it can be a slave at all it becomes one, of the
second worst. -/
theorem bmc_election (hps : Candidates ps) (htwo : ∃ p ∈ ps, ∃ q ∈ ps, p ≠ q)
    {clocks : Candidate → PtpClock}
    (h : ∀ p ∈ ps, Enrolled ps p (clocks p)) :
    ∃ worst ∈ ps, ∃ second ∈ ps, second ≠ worst ∧ (∀ p ∈ ps, p ≠ worst → p.Better worst) ∧
      (∀ p ∈ ps, p ≠ worst → p ≠ second → p.Better second) ∧
      (∀ p ∈ ps, (bmc (clocks p)).2 = .master ↔ p ≠ worst) ∧
      (128 ≤ worst.quality.clockClass → (bmc (clocks worst)).2 = .slave ∧
        (bmc (clocks worst)).1.parentDS.parentPortIdentity.clockIdentity = second.identity) := by
  obtain ⟨p₁, hp₁, p₂, hp₂, hne⟩ := htwo
  obtain ⟨w, hw, hle⟩ := exists_worst ps (List.ne_nil_of_mem hp₁)
  have hbetter : ∀ p ∈ ps, p ≠ w → p.Better w :=
    fun p hp hpw => hps.better_of_isLE hp hw hpw (hle p hp)
  have hworst : ∀ r ∈ ps, ¬ w.Better r := fun r hr hlt => OrientedCmp.not_isLE_of_lt hlt (hle r hr)
  -- Every clock has another one to compare with.
  have hother : ∀ p, ∃ q ∈ ps, q ≠ p := by
    intro p
    by_cases hp : p₁ = p
    · exact ⟨p₂, hp₂, fun heq => hne (hp.trans heq.symm)⟩
    · exact ⟨p₁, hp₁, hp⟩
  have hcount : 0 < (clocks w).foreignMasterDS.count := by
    obtain ⟨q, hq, hqw⟩ := hother w
    exact (h w hw).count_pos hq hqw
  have hmaster : ∀ p ∈ ps, (bmc (clocks p)).2 = .master ↔ p ≠ w := by
    intro p hp
    obtain ⟨q, hq, hqp⟩ := hother p
    rw [(h p hp).bmc_master_iff hps hp hq hqp]
    constructor
    · rintro ⟨r, hr, hlt⟩ rfl
      exact hworst r hr hlt
    · exact fun hpw => ⟨w, hw, hbetter p hp hpw⟩
  have hcoh := (h w hw).coherent hps hw
  obtain ⟨s, hs, hsw, hst⟩ := (h w hw).only _ (bmcBest_lt hcount)
  refine ⟨w, hw, s, hs, hsw, hbetter, ?_, hmaster, ?_⟩
  · intro p hp hpw hps'
    obtain ⟨j, hj, hpj⟩ := (h w hw).known p hp hpw
    have hbest := hcoh.le_bmcBest hj
    rw [hpj, hst] at hbest
    exact hps.better_of_isLE hp hs hps' hbest
  · intro hclass
    obtain ⟨d, -, hbmc⟩ := hcoh.bmc_eq hcount
    have hquality : (clocks w).defaultDS.clockQuality = w.quality :=
      congrArg Standing.grandmasterClockQuality (h w hw).own
    have hcmp : ¬ w.standing.compare s.standing = .lt := hworst s hs
    rw [(h w hw).own, hst, if_neg hcmp, hquality, if_neg (BitVec.not_lt.mpr hclass)] at hbmc
    rw [hbmc]
    exact ⟨rfl, congrArg Standing.sender hst⟩

end Election

/-- A clock that is the candidate `p` and has heard of the others. -/
def clockOf (ps : List Candidate) (p : Candidate) : PtpClock :=
  let others := ps.filter (· ≠ p)
  let announcement (q : Candidate) : ForeignMasterRecord :=
    { (default : ForeignMasterRecord) with
      header := { (default : MsgHeader) with sourcePortIdentity := ⟨q.identity, numberPorts⟩ }
      announce := { (default : MsgAnnounce) with
        grandmasterPriority1 := q.priority1, grandmasterClockQuality := q.quality
        grandmasterPriority2 := q.priority2, grandmasterIdentity := q.identity } }
  { (default : PtpClock) with
    defaultDS := { (default : DefaultDS) with
      clockIdentity := p.identity, clockQuality := p.quality, priority1 := p.priority1,
      priority2 := p.priority2 }
    portDS := { (default : PortDS) with portIdentity := ⟨p.identity, numberPorts⟩ }
    foreignMasterDS := { (default : ForeignMasterDS) with
      count := others.length, records := fun j => announcement (others[j]?.getD p) } }

theorem standing_clockOf {ps : List Candidate} {p : Candidate} {j : Nat}
    (hj : j < (ps.filter (· ≠ p)).length) :
    ((clockOf ps p).foreignMasterDS.records j).standing = (ps.filter (· ≠ p))[j].standing := by
  simp only [clockOf]
  rw [List.getElem?_eq_getElem hj]
  rfl

theorem enrolled_clockOf (ps : List Candidate) (p : Candidate) : Enrolled ps p (clockOf ps p) where
  identity := rfl
  own := rfl
  known := by
    intro q hq hne
    have hmem : q ∈ ps.filter (· ≠ p) := List.mem_filter.mpr ⟨hq, decide_eq_true hne⟩
    obtain ⟨j, hj, rfl⟩ := List.mem_iff_getElem.mp hmem
    exact ⟨j, hj, standing_clockOf hj⟩
  only := by
    intro j hj
    have hmem : (ps.filter (· ≠ p))[j] ∈ ps.filter (· ≠ p) := List.getElem_mem hj
    obtain ⟨hq, hne⟩ := List.mem_filter.mp hmem
    exact ⟨_, hq, of_decide_eq_true hne, standing_clockOf hj⟩

/-- Three clocks that differ in their first priority. -/
def threeClocks : List Candidate :=
  [1, 2, 3].map fun k => ⟨#v[0, 0, 0, 0xff, 0xfe, 0, 0, k], ⟨248, 0xfe, 5000⟩, k.toBitVec, 248⟩

theorem bmc_election_threeClocks :
    ∃ worst ∈ threeClocks, ∃ second ∈ threeClocks, second ≠ worst ∧
      (∀ p ∈ threeClocks, p ≠ worst → p.Better worst) ∧
      (∀ p ∈ threeClocks, p ≠ worst → p ≠ second → p.Better second) ∧
      (∀ p ∈ threeClocks, (bmc (clockOf threeClocks p)).2 = .master ↔ p ≠ worst) ∧
      (128 ≤ worst.quality.clockClass → (bmc (clockOf threeClocks worst)).2 = .slave ∧
        (bmc (clockOf threeClocks worst)).1.parentDS.parentPortIdentity.clockIdentity =
          second.identity) :=
  bmc_election (by unfold Candidates; decide) (by decide) fun p _ => enrolled_clockOf threeClocks p

end Stm32F4.Ptp
