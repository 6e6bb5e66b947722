import Mathlib.Algebra.Order.Ring.Int
import Mathlib.Tactic.Linarith
import Mathlib.Tactic.Positivity
import Stm32F4.Lib.Smoothing
import Stm32F4.Ptp.World

/-! The clock servo.

Offsets and delays are smoothed by `filter`, which keeps a sum of `2 ^ s` values and takes its
quotient. The order `s` grows with the number of samples and is kept small enough for the sum to
fit. So what comes out lies within the samples (`filter_hull`). -/
namespace Stm32F4.Ptp
open Lib

def defaultCalibratedOffsetNs : Int := 10000
def defaultUncalibratedOffsetNs : Int := 1000000
def maxAdjOffsetNs : Nat := 100000000

/-- `abs` of an `int`. -/
def absInt (x : BitVec 32) : BitVec 32 := if x.slt 0 then -x else x

def initClock (w : World) : World :=
  let c := w.clock
  let w := { w with clock := { c with
    tms := ⟨0, 0⟩
    observedDrift := 0
    owdFilt := { c.owdFilt with n := 0, s := c.servo.sDelay }
    ofmFilt := { c.ofmFilt with n := 0, s := c.servo.sOffset }
    waitingForFollowUp := false
    waitingForPDelayRespFollowUp := false
    pdelayT1 := ⟨0, 0⟩
    pdelayT2 := ⟨0, 0⟩
    pdelayT3 := ⟨0, 0⟩
    pdelayT4 := ⟨0, 0⟩
    parentDS := { c.parentDS with
      parentStats := false
      observedParentClockPhaseChangeRate := 0
      observedParentOffsetScaledLogVariance := 0 } } }
  let w := if !c.servo.noAdjust then adjFreq 0 w else w
  netEmptyEventQ w

def order (n : BitVec 32) : Int :=
  let n := if n.slt 0 then -n else n
  if n = 0 then 0 else floorLog2 n

/-- The sum for the order `s`, from the one for the order `sPrev`. -/
def reorder (ySum : BitVec 32) (sPrev s : Int) : BitVec 32 :=
  if sPrev > s then ySum.sshiftRight (sPrev - s).toNat
  else if sPrev < s then ySum <<< (s - sPrev).toNat
  else ySum

/-- `1 << s` -/
def Filter.limit (filt : Filter) : BitVec 32 := (1 : BitVec 32) <<< filt.s.toInt.toNat

/-- One more sample is counted; the first one starts the filter. -/
def filterStart (nsecCurrent : BitVec 32) (filt : Filter) : Filter :=
  let filt : Filter := { filt with n := filt.n + 1 }
  if filt.n = 1 then { filt with yPrev := nsecCurrent, ySum := nsecCurrent, sPrev := 0 } else filt

/-- A lower order as long as there are not enough samples, or if the sum would not fit. -/
def filterOrder (nsecCurrent : BitVec 32) (filt : Filter) : Int :=
  let s := if filt.n.slt filt.limit then order filt.n else filt.s.toInt
  let s2 := 30 - order (if nsecCurrent.slt filt.yPrev then filt.yPrev else nsecCurrent)
  if s > s2 then s2 else s

/-- Exponential smoothing: the smoothed value, and the filter. -/
def filter (nsecCurrent : BitVec 32) (filt : Filter) : BitVec 32 × Filter :=
  let filt := filterStart nsecCurrent filt
  let s := filterOrder nsecCurrent filt
  let ySum := reorder filt.ySum filt.sPrev.toInt s + (nsecCurrent - filt.yPrev)
  let yPrev := ySum.sshiftRight s.toNat
  (yPrev, { filt with
    n := if filt.n.slt filt.limit then filt.n else filt.limit
    ySum := ySum, yPrev := yPrev, sPrev := BitVec.ofInt 16 s })

def updateOffset (syncEventIngressTimestamp preciseOriginTimestamp correctionField : TimeInternal)
    (c : PtpClock) :
    PtpClock :=
  let tms := subTime (subTime syncEventIngressTimestamp preciseOriginTimestamp) correctionField
  let offset :=
    match c.portDS.delayMechanism with
    | .e2e => subTime tms c.currentDS.meanPathDelay
    | .p2p => subTime tms c.portDS.peerMeanPathDelay
    | .delayDisabled => tms
  if offset.seconds ≠ 0 then
    { c with
      tms := tms
      currentDS := { c.currentDS with offsetFromMaster := offset }
      events := if c.portDS.portState = .slave then setFlag c.events synchronizationFault
        else c.events }
  else
    let (nanoseconds, ofmFilt) := filter offset.nanoseconds c.ofmFilt
    let abs := (absInt nanoseconds).toInt
    { c with
      tms := tms
      currentDS :=
        { c.currentDS with offsetFromMaster := { offset with nanoseconds := nanoseconds } }
      ofmFilt := ofmFilt
      events :=
        if abs < defaultCalibratedOffsetNs then
          if c.portDS.portState = .uncalibrated then setFlag c.events masterClockSelected
          else c.events
        else if abs > defaultUncalibratedOffsetNs then
          if c.portDS.portState = .slave then setFlag c.events synchronizationFault else c.events
        else c.events }

def updateDelay (delayEventEgressTimestamp recieveTimestamp correctionField : TimeInternal)
    (c : PtpClock) : PtpClock :=
  if c.ofmFilt.n = 0 then c
  else
    let tsm := subTime (subTime recieveTimestamp delayEventEgressTimestamp) correctionField
    let delay := div2Time (addTime c.tms tsm)
    if delay.seconds ≠ 0 then
      { c with tsm := tsm, currentDS := { c.currentDS with meanPathDelay := delay } }
    else
      let (nanoseconds, owdFilt) := filter delay.nanoseconds c.owdFilt
      { c with
        tsm := tsm
        currentDS := { c.currentDS with meanPathDelay := { delay with nanoseconds := nanoseconds } }
        owdFilt := owdFilt }

def updatePeerDelay (correctionField : TimeInternal) (twoStep : Bool) (c : PtpClock) : PtpClock :=
  let delay :=
    if twoStep then addTime (subTime c.pdelayT2 c.pdelayT1) (subTime c.pdelayT4 c.pdelayT3)
    else subTime c.pdelayT4 c.pdelayT1
  let delay := div2Time (subTime delay correctionField)
  if delay.seconds ≠ 0 then { c with portDS := { c.portDS with peerMeanPathDelay := delay } }
  else
    let (nanoseconds, owdFilt) := filter delay.nanoseconds c.owdFilt
    { c with
      portDS := { c.portDS with peerMeanPathDelay := { delay with nanoseconds := nanoseconds } }
      owdFilt := owdFilt }

/-- The offset for a sync interval of one second. -/
def normalizeOffset (offset : BitVec 32) (logSyncInterval : BitVec 8) : BitVec 32 :=
  let log := logSyncInterval.toInt
  if log > 0 then offset.sshiftRight log.toNat
  else if log < 0 then offset <<< (-log).toNat else offset

/-- Between the limits of `adjFreq`. -/
def clampDrift (drift : BitVec 32) : BitVec 32 :=
  if adjFreqMax.slt drift then adjFreqMax
  else if drift.slt (-adjFreqMax) then -adjFreqMax else drift

def updateClock (w : World) : World :=
  let c := w.clock
  let offset := c.currentDS.offsetFromMaster
  if offset.seconds ≠ 0 ∨ (absInt offset.nanoseconds).toNat > maxAdjOffsetNs then
    if !c.servo.noAdjust then
      if !c.servo.noResetClock then
        let (timeTmp, w) := getTime w
        initClock (setTime (subTime timeTmp offset) w)
      else
        let adj := if (0 : BitVec 32).slt offset.nanoseconds then adjFreqMax else -adjFreqMax
        adjFreq (-adj) w
    else w
  else
    let offsetNorm := normalizeOffset offset.nanoseconds c.portDS.logSyncInterval
    let observedDrift := clampDrift (c.observedDrift + offsetNorm.sdiv (c.servo.ai.signExtend 32))
    let w := { w with clock := { c with observedDrift := observedDrift } }
    if !c.servo.noAdjust then
      adjFreq (-(offsetNorm.sdiv (c.servo.ap.signExtend 32) + observedDrift)) w
    else w

/-! ### Smoothing -/

/-- The smoothed values. -/
def smoothed : Filter → List (BitVec 32) → List (BitVec 32)
  | _, [] => []
  | filt, x :: xs => (filter x filt).1 :: smoothed (filter x filt).2 xs

theorem fitsIn_32_iff {v : Int} : FitsIn 32 v ↔ -2147483648 ≤ v ∧ v < 2147483648 := by
  simp only [FitsIn]
  omega

theorem slt_iff {x y : BitVec 32} : x.slt y = true ↔ x.toInt < y.toInt := by
  simp [BitVec.slt]

/-- What `order` takes the logarithm of. -/
theorem toInt_abs {n : BitVec 32} (h : -2147483648 < n.toInt) :
    (if n.slt 0 then -n else n).toInt = |n.toInt| := by
  have hn := fitsIn_32_iff.mp (fitsIn_toInt n)
  by_cases hneg : n.toInt < 0
  · rw [if_pos (slt_iff.mpr hneg), abs_of_neg hneg,
      toInt_neg_of_fitsIn (fitsIn_32_iff.mpr (by omega))]
  · rw [if_neg (fun hlt => hneg (slt_iff.mp hlt)), abs_of_nonneg (Int.not_lt.mp hneg)]

theorem order_spec {n : BitVec 32} (h : -2147483648 < n.toInt) :
    ∃ k : Nat, order n = k ∧ k ≤ 30 ∧ n.toInt < 2 ^ (k + 1) ∧ (0 < n.toInt → 2 ^ k ≤ n.toInt) := by
  obtain ⟨m, hm⟩ : ∃ m, (if n.slt 0 then -n else n) = m := ⟨_, rfl⟩
  have habs : m.toInt = |n.toInt| := hm ▸ toInt_abs h
  have hle := le_abs_self n.toInt
  rw [order, hm]
  by_cases hzero : m = 0
  · have hn : n.toInt = 0 := by
      rw [hzero] at habs
      exact abs_eq_zero.mp habs.symm
    exact ⟨0, by rw [if_pos hzero]; rfl, by decide, by rw [hn]; decide, fun hpos =>
      absurd hn (Int.ne_of_gt hpos)⟩
  · have hne : m.toNat ≠ 0 := fun h0 => hzero (BitVec.eq_of_toNat_eq h0)
    have hnat : m.toInt = m.toNat := toInt_eq_toNat (by rw [habs]; exact abs_nonneg _)
    have hlt := fitsIn_32_iff.mp (fitsIn_toInt m)
    refine ⟨m.toNat.log2, by rw [if_neg hzero, floorLog2_eq hzero], ?_, ?_, ?_⟩
    · have : m.toNat.log2 < 31 := (Nat.log2_lt hne).mpr (by omega)
      omega
    · have hself : m.toNat < 2 ^ (m.toNat.log2 + 1) := Nat.lt_log2_self
      have hcast : (m.toNat : Int) < 2 ^ (m.toNat.log2 + 1) := by exact_mod_cast hself
      omega
    · intro hpos
      have hself : 2 ^ m.toNat.log2 ≤ m.toNat := Nat.log2_self_le hne
      have hcast : (2 : Int) ^ m.toNat.log2 ≤ m.toNat := by exact_mod_cast hself
      rw [abs_of_pos hpos] at habs
      omega

theorem toInt_limit {filt : Filter} {S : Nat} (hS : S ≤ 30) (hs : filt.s.toInt = S) :
    filt.limit.toInt = 2 ^ S := by
  have hpow : 2 ^ S ≤ 2 ^ 30 := Nat.pow_le_pow_right (by decide) hS
  have hnat : ((1 : BitVec 32) <<< S).toNat = 2 ^ S := by
    rw [BitVec.toNat_shiftLeft, Nat.shiftLeft_eq]
    exact (Nat.mod_eq_of_lt (by simpa using Nat.lt_of_le_of_lt hpow (by decide))).trans
      (Nat.one_mul _)
  rw [Filter.limit, hs, Int.toNat_natCast, BitVec.toInt_eq_toNat_of_lt (by omega), hnat]
  exact_mod_cast rfl

/-- The sum for an order, with a mean that it fits. -/
theorem reorder_mean {Y : BitVec 32} {sp s : Nat} {y : Int} (hy : Y.toInt / 2 ^ sp = y)
    (hlow : -2147483648 ≤ y * 2 ^ s) (hupp : (y + 1) * 2 ^ s ≤ 2147483648) :
    (reorder Y sp s).toInt / 2 ^ s = y := by
  rw [reorder]
  rcases Nat.lt_trichotomy s sp with hlt | rfl | hgt
  · obtain ⟨d, rfl⟩ : ∃ d, sp = s + d := ⟨sp - s, by omega⟩
    have hd : ((s + d : Nat) - s : Int).toNat = d := by omega
    rw [if_pos (by omega), hd, BitVec.toInt_sshiftRight, Int.shiftRight_eq_div_pow]
    have hpos : (0 : Int) < 2 ^ d := Int.pow_pos (by decide)
    rw [Nat.cast_pow, Nat.cast_two, mean_ediv hpos, ← pow_add, hy]
  · rw [if_neg (by omega), if_neg (by omega), hy]
  · obtain ⟨d, rfl⟩ : ∃ d, s = sp + d := ⟨s - sp, by omega⟩
    have hd : ((sp + d : Nat) - sp : Int).toNat = d := by omega
    have hpos : (0 : Int) < 2 ^ d := Int.pow_pos (by decide)
    have hsum := sum_bounds (D := 2 ^ sp) (Y := Y.toInt) (Int.pow_pos (by decide))
    rw [hy] at hsum
    rw [if_neg (by omega), if_pos (by omega), hd]
    have hfits : FitsIn 32 (Y.toInt * 2 ^ d) := by
      rw [pow_add, ← mul_assoc] at hlow hupp
      have hl := mul_le_mul_of_nonneg_right hsum.1 hpos.le
      have hu := mul_lt_mul_of_pos_right hsum.2 hpos
      exact fitsIn_32_iff.mpr ⟨by omega, by omega⟩
    rw [toInt_shiftLeft_of_fitsIn hfits, pow_add, mean_mul hpos, hy]

/-- A filter of the order `S` at most, with a mean between the bounds once it has samples. -/
structure Smooth (S : Nat) (lo hi : Int) (filt : Filter) : Prop where
  order_eq : filt.s.toInt = S
  n_nonneg : 0 ≤ filt.n.toInt
  n_le : filt.n.toInt ≤ 2 ^ S
  mean : filt.n ≠ 0 → ∃ sp : Nat, filt.sPrev.toInt = sp ∧ sp ≤ S ∧
    filt.ySum.toInt / 2 ^ sp = filt.yPrev.toInt ∧
    lo ≤ filt.yPrev.toInt ∧ filt.yPrev.toInt ≤ hi

/-- What it is once the sample is counted. -/
structure Started (S : Nat) (lo hi : Int) (filt : Filter) : Prop where
  order_eq : filt.s.toInt = S
  n_pos : 0 < filt.n.toInt
  n_le : filt.n.toInt ≤ 2 ^ S + 1
  mean : ∃ sp : Nat, filt.sPrev.toInt = sp ∧ sp ≤ S ∧ filt.ySum.toInt / 2 ^ sp = filt.yPrev.toInt
  lower : lo ≤ filt.yPrev.toInt
  upper : filt.yPrev.toInt ≤ hi

section Filter
variable {S : Nat} {lo hi : Int} {filt : Filter} {x : BitVec 32}

theorem two_pow_le (hS : S ≤ 30) : (2 : Int) ^ S ≤ 1073741824 := by
  have h : (2 : Int) ^ S ≤ 2 ^ 30 := pow_le_pow_right₀ (by decide) hS
  exact h

theorem Smooth.started (hS : S ≤ 30) (h : Smooth S lo hi filt) (hlo : lo ≤ x.toInt)
    (hhi : x.toInt ≤ hi) :
    Started S lo hi (filterStart x filt) := by
  have hpow := two_pow_le hS
  have hn := h.n_nonneg
  have hle := h.n_le
  have hone : (1 : BitVec 32).toInt = 1 := rfl
  have hadd : (filt.n + 1).toInt = filt.n.toInt + 1 := by
    rw [toInt_add_of_fitsIn (fitsIn_32_iff.mpr (by omega)), hone]
  rw [filterStart]
  by_cases hfirst : filt.n + 1 = 1
  · rw [if_pos hfirst]
    exact
      { order_eq := h.order_eq
        n_pos := by simp only [hadd]; omega
        n_le := by simp only [hadd]; omega
        mean := ⟨0, rfl, Nat.zero_le S, by simp⟩
        lower := hlo
        upper := hhi }
  · rw [if_neg hfirst]
    have hne : filt.n ≠ 0 := by
      rintro hzero
      exact hfirst (by rw [hzero]; rfl)
    obtain ⟨sp, hsp, hle', hmean, hlower, hupper⟩ := h.mean hne
    exact
      { order_eq := h.order_eq
        n_pos := by simp only [hadd]; omega
        n_le := by simp only [hadd]; omega
        mean := ⟨sp, hsp, hle', hmean⟩
        lower := hlower
        upper := hupper }

/-- The order leaves room for a sum with any mean up to the greater of the two values. -/
theorem Started.filterOrder_spec (hS : S ≤ 30) (h : Started S lo hi filt) (hmin : -2147483648 < lo)
    (hlo : lo ≤ x.toInt) :
    ∃ s : Nat, filterOrder x filt = s ∧ s ≤ S ∧
      ∀ y : Int, y ≤ x.toInt ∨ y ≤ filt.yPrev.toInt → (y + 1) * 2 ^ s ≤ 2147483648 := by
  have hlimit := toInt_limit hS h.order_eq
  have hlower := h.lower
  -- The order that the number of samples gives.
  obtain ⟨s₁, hs₁, hle₁⟩ :
      ∃ s : Nat, (if filt.n.slt filt.limit then order filt.n else filt.s.toInt) = s ∧ s ≤ S := by
    by_cases hlt : filt.n.slt filt.limit
    · obtain ⟨k, hk, -, -, hpow⟩ := order_spec (n := filt.n) (by have := h.n_pos; omega)
      have hless := slt_iff.mp hlt
      rw [hlimit] at hless
      have hkS : k < S :=
        (pow_lt_pow_iff_right₀ (by decide)).mp (lt_of_le_of_lt (hpow h.n_pos) hless)
      exact ⟨k, by rw [if_pos hlt, hk], hkS.le⟩
    · exact ⟨S, by rw [if_neg hlt, h.order_eq], Nat.le_refl S⟩
  -- The one that the greater value allows.
  obtain ⟨m, hm⟩ : ∃ m, (if x.slt filt.yPrev then filt.yPrev else x) = m := ⟨_, rfl⟩
  have hmax : x.toInt ≤ m.toInt ∧ filt.yPrev.toInt ≤ m.toInt ∧ lo ≤ m.toInt := by
    rw [← hm]
    by_cases hlt : x.slt filt.yPrev
    · rw [if_pos hlt]
      exact ⟨(slt_iff.mp hlt).le, le_refl _, hlower⟩
    · rw [if_neg hlt]
      exact ⟨le_refl _, Int.not_lt.mp fun hl => hlt (slt_iff.mpr hl), hlo⟩
  obtain ⟨k, hk, hk30, hmk, -⟩ := order_spec (n := m) (by omega)
  rw [filterOrder, hs₁, hm, hk]
  refine ⟨min s₁ (30 - k), by split <;> omega, Nat.le_trans (Nat.min_le_left ..) hle₁, ?_⟩
  intro y hy
  have hym : y + 1 ≤ 2 ^ (k + 1) := by omega
  have hexp : (2 : Int) ^ (min s₁ (30 - k)) ≤ 2 ^ (30 - k) :=
    pow_le_pow_right₀ (by decide) (Nat.min_le_right ..)
  calc (y + 1) * 2 ^ (min s₁ (30 - k)) ≤ 2 ^ (k + 1) * 2 ^ (min s₁ (30 - k)) :=
        mul_le_mul_of_nonneg_right hym (by positivity)
    _ ≤ 2 ^ (k + 1) * 2 ^ (30 - k) := mul_le_mul_of_nonneg_left hexp (by positivity)
    _ = 2 ^ 31 := by rw [← pow_add]; congr 1; omega
    _ = 2147483648 := by norm_num

/-- The lower bound leaves room for the sum of any lower order too. -/
theorem lower_mul {s : Nat} (hsS : s ≤ S) (hmin : -2147483648 < lo * 2 ^ S) {y : Int}
    (hy : lo ≤ y) :
    -2147483648 < y * 2 ^ s := by
  have hs : (0 : Int) < 2 ^ s := by positivity
  have hmono : (2 : Int) ^ s ≤ 2 ^ S := pow_le_pow_right₀ (by decide) hsS
  have hmul : lo * 2 ^ s ≤ y * 2 ^ s := mul_le_mul_of_nonneg_right hy hs.le
  rcases Int.le_total 0 lo with hpos | hneg
  · have : 0 ≤ lo * 2 ^ s := mul_nonneg hpos hs.le
    omega
  · have : lo * 2 ^ S ≤ lo * 2 ^ s := mul_le_mul_of_nonpos_left hmono hneg
    omega

theorem Smooth.filter (hS : S ≤ 30) (hmin : -2147483648 < lo * 2 ^ S) (hfit : hi - lo < 2147483648)
    (h : Smooth S lo hi filt) (hlo : lo ≤ x.toInt) (hhi : x.toInt ≤ hi) :
    Smooth S lo hi (filter x filt).2 ∧ lo ≤ (filter x filt).1.toInt ∧
      (filter x filt).1.toInt ≤ hi := by
  have hpow := two_pow_le hS
  have hst := h.started hS hlo hhi
  rw [Ptp.filter]
  generalize filterStart x filt = f at hst ⊢
  have hmin' : -2147483648 < lo := by
    simpa using lower_mul (s := 0) (Nat.zero_le S) hmin (le_refl lo)
  obtain ⟨s, hs, hsS, hroom⟩ := hst.filterOrder_spec (x := x) hS hmin' hlo
  obtain ⟨sp, hsp, -, hmean⟩ := hst.mean
  have hlower := hst.lower
  have hupper := hst.upper
  have hD : (0 : Int) < 2 ^ s := by positivity
  -- The sum for the order, the difference that goes into it, and the new sum all fit.
  have hold : (reorder f.ySum f.sPrev.toInt s).toInt / 2 ^ s = f.yPrev.toInt := by
    rw [hsp]
    exact reorder_mean hmean (lower_mul hsS hmin hlower).le (hroom _ (.inr (le_refl _)))
  have hdiff : (x - f.yPrev).toInt = x.toInt - f.yPrev.toInt :=
    toInt_sub_of_fitsIn (fitsIn_32_iff.mpr ⟨by omega, by omega⟩)
  have hnew :
      min x.toInt f.yPrev.toInt ≤
        smooth (2 ^ s) (reorder f.ySum f.sPrev.toInt s).toInt x.toInt / 2 ^ s ∧
      smooth (2 ^ s) (reorder f.ySum f.sPrev.toInt s).toInt x.toInt / 2 ^ s ≤
        max x.toInt f.yPrev.toInt := by
    apply mean_smooth hD
    · rw [hold]
      exact min_le_right _ _
    · rw [hold]
      exact le_max_right _ _
    · exact min_le_left _ _
    · exact le_max_left _ _
  obtain ⟨hnewlo, hnewhi⟩ := hnew
  obtain ⟨hsumlo, hsumhi⟩ :=
    sum_bounds hD (Y := smooth (2 ^ s) (reorder f.ySum f.sPrev.toInt s).toInt x.toInt)
  have hsum : (reorder f.ySum f.sPrev.toInt s + (x - f.yPrev)).toInt =
      smooth (2 ^ s) (reorder f.ySum f.sPrev.toInt s).toInt x.toInt := by
    have heq : (reorder f.ySum f.sPrev.toInt s).toInt + (x - f.yPrev).toInt =
        smooth (2 ^ s) (reorder f.ySum f.sPrev.toInt s).toInt x.toInt := by
      rw [hdiff, smooth, hold]
    rw [toInt_add_of_fitsIn, heq]
    rw [heq, fitsIn_32_iff]
    have hl := lower_mul hsS hmin (le_trans (le_min hlo hlower) hnewlo)
    have hu := hroom _ (le_max_iff.mp hnewhi)
    omega
  have hy : ((reorder f.ySum f.sPrev.toInt s + (x - f.yPrev)).sshiftRight s).toInt =
      smooth (2 ^ s) (reorder f.ySum f.sPrev.toInt s).toInt x.toInt / 2 ^ s := by
    rw [BitVec.toInt_sshiftRight, Int.shiftRight_eq_div_pow, hsum, Nat.cast_pow, Nat.cast_two]
  have hylo := le_trans (le_min hlo hlower) hnewlo
  have hyhi := le_trans hnewhi (max_le hhi hupper)
  rw [← hy] at hylo hyhi
  simp only [hs, Int.toNat_natCast]
  have hlimit := toInt_limit hS hst.order_eq
  have hcount : (if f.n.slt f.limit then f.n else f.limit).toInt ≤ 2 ^ S ∧
      0 ≤ (if f.n.slt f.limit then f.n else f.limit).toInt := by
    by_cases hlt : f.n.slt f.limit
    · have hless := slt_iff.mp hlt
      rw [if_pos hlt]
      exact ⟨by omega, hst.n_pos.le⟩
    · rw [if_neg hlt, hlimit]
      exact ⟨le_refl _, by positivity⟩
  have hs16 : (BitVec.ofInt 16 s).toInt = s := toInt_ofInt_of_fitsIn (by simp only [FitsIn]; omega)
  refine ⟨⟨hst.order_eq, hcount.2, hcount.1, fun _ => ⟨s, hs16, hsS, ?_, hylo, hyhi⟩⟩, hylo, hyhi⟩
  simp only
  rw [hy, hsum]

/-- **Smoothing stays within the samples**: no order that the filter goes through and no rounding
takes a smoothed value out of bounds that all samples keep. The upper bound can be any, as the order
is lowered for great values. The lower one has to leave room for `2 ^ S` of it. -/
theorem filter_hull (hS : S ≤ 30) (hmin : -2147483648 < lo * 2 ^ S) (hfit : hi - lo < 2147483648)
    (hs : filt.s.toInt = S) (hn : filt.n = 0) {xs : List (BitVec 32)}
    (hxs : ∀ x ∈ xs, lo ≤ x.toInt ∧ x.toInt ≤ hi) :
    ∀ y ∈ smoothed filt xs, lo ≤ y.toInt ∧ y.toInt ≤ hi := by
  have hsmooth : Smooth S lo hi filt :=
    { order_eq := hs
      n_nonneg := by rw [hn]; decide
      n_le := by rw [hn]; exact pow_nonneg (by decide) S
      mean := fun hne => absurd hn hne }
  clear hs hn
  induction xs generalizing filt with
  | nil => exact fun y hy => absurd hy List.not_mem_nil
  | cons x xs ih =>
    obtain ⟨⟨hlo, hhi⟩, hrest⟩ := List.forall_mem_cons.mp hxs
    obtain ⟨hnext, hy⟩ := hsmooth.filter hS hmin hfit hlo hhi
    exact List.forall_mem_cons.mpr ⟨hy, ih hrest hnext⟩

end Filter

/-- The filter of the offset. -/
theorem filter_hull_offset :
    (smoothed { (default : Filter) with s := 1 } [1000, 40, -250]).all
      (fun y => decide (-250 ≤ y.toInt ∧ y.toInt ≤ 1000)) = true := by
  have hxs : ∀ x ∈ ([1000, 40, -250] : List (BitVec 32)), (-250 : Int) ≤ x.toInt ∧
      x.toInt ≤ 1000 := by
    simp only [List.forall_mem_cons]
    exact ⟨by decide, by decide, by decide, by simp⟩
  exact List.all_eq_true.mpr fun y hy =>
    decide_eq_true (filter_hull (S := 1) (by decide) (by decide) (by decide) rfl rfl hxs y hy)

end Stm32F4.Ptp
