import Mathlib.Algebra.Order.Ring.Int
import Stm32F4.Lib.Limbs
import Stm32F4.Lib.Signed
import Stm32F4.Ptp.Datatypes

/-! Times of the PTP stack.

A time is a number of seconds and a number of nanoseconds, both with a sign, and what it means
is one number of nanoseconds (`ns`). A time is in normal form if its parts are the quotient
and the remainder of that number, and `ofNs` is the only such time. `normalizeTime` finds it
(`normalizeTime_eq`), so what sums, differences and halves are is said on the integers, and the rest
is that no part overflows on the way. -/
namespace Stm32F4.Ptp
open Lib

/-! ### The functions -/

def normalizeTime (r : TimeInternal) : TimeInternal :=
  let r := { r with seconds := r.seconds + r.nanoseconds.sdiv 1000000000 }
  let r := { r with nanoseconds := r.nanoseconds - r.nanoseconds.sdiv 1000000000 * 1000000000 }
  if (0 : BitVec 32).slt r.seconds && r.nanoseconds.slt 0 then
    ⟨r.seconds - 1, r.nanoseconds + 1000000000⟩
  else if r.seconds.slt 0 && (0 : BitVec 32).slt r.nanoseconds then
    ⟨r.seconds + 1, r.nanoseconds - 1000000000⟩
  else r

def addTime (x y : TimeInternal) : TimeInternal :=
  normalizeTime ⟨x.seconds + y.seconds, x.nanoseconds + y.nanoseconds⟩

def subTime (x y : TimeInternal) : TimeInternal :=
  normalizeTime ⟨x.seconds - y.seconds, x.nanoseconds - y.nanoseconds⟩

def div2Time (r : TimeInternal) : TimeInternal :=
  let nanoseconds := r.nanoseconds + r.seconds.srem 2 * 1000000000
  normalizeTime ⟨r.seconds.sdiv 2, nanoseconds.sdiv 2⟩

def scaledNanosecondsToInternalTime (scaledNanoseconds : BitVec 64) : TimeInternal :=
  let neg := scaledNanoseconds.slt 0
  let nanoseconds := if neg then -scaledNanoseconds else scaledNanoseconds
  let sign : BitVec 64 := if neg then -1 else 1
  let nanoseconds := nanoseconds.sshiftRight 16
  ⟨(sign * nanoseconds.sdiv 1000000000).truncate 32,
    (sign * nanoseconds.srem 1000000000).truncate 32⟩

def intMax : BitVec 32 := 0x7fffffff

/-- `external` is what the timestamp holds before the call. -/
def fromInternalTime (internal : TimeInternal) (external : Timestamp) : Timestamp :=
  if internal.seconds &&& ~~~intMax != 0 || internal.nanoseconds &&& ~~~intMax != 0 then external
  else ⟨⟨internal.seconds, 0⟩, internal.nanoseconds⟩

/-- `internal` is what the time holds before the call. -/
def toInternalTime (internal : TimeInternal) (external : Timestamp) : TimeInternal :=
  if external.secondsField.lsb.ult intMax then
    ⟨external.secondsField.lsb, external.nanosecondsField⟩
  else internal

/-- One line of `floorLog2`: is there anything from bit `k` on? -/
def log2Step (k : Nat) (s : BitVec 32 × Nat) : BitVec 32 × Nat :=
  if 2 ^ k ≤ s.1.toNat then (s.1 >>> k, s.2 + k) else s

def floorLog2 (n : BitVec 32) : Int :=
  if n = 0 then -1 else (log2Step 1 (log2Step 2 (log2Step 4 (log2Step 8 (log2Step 16 (n, 0)))))).2

/-! ### Times as numbers -/

def nsPerSecond : Int := 1000000000

def TimeInternal.ns (t : TimeInternal) : Int := t.seconds.toInt * nsPerSecond + t.nanoseconds.toInt

/-- The time in normal form. -/
def ofNs (v : Int) : TimeInternal :=
  ⟨BitVec.ofInt 32 (v.tdiv nsPerSecond), BitVec.ofInt 32 (v.tmod nsPerSecond)⟩

/-- The seconds of that many nanoseconds fit. -/
def InRange (v : Int) : Prop := FitsIn 32 (v.tdiv nsPerSecond)

instance (v : Int) : Decidable (InRange v) := inferInstanceAs (Decidable (FitsIn _ _))

/-- Seconds and nanoseconds are quotient and remainder. -/
def TimeInternal.Normal (t : TimeInternal) : Prop :=
  Splits nsPerSecond t.ns t.seconds.toInt t.nanoseconds.toInt

theorem nsPerSecond_pos : 0 < nsPerSecond := by decide

theorem fitsIn_tmod (v : Int) : FitsIn 32 (v.tmod nsPerSecond) := by
  have h := splits_tdiv nsPerSecond_pos v
  have hlow : -1000000000 < v.tmod nsPerSecond := h.lower
  have hup : v.tmod nsPerSecond < 1000000000 := h.upper
  constructor <;> omega

theorem ofNs_seconds {v : Int} (h : InRange v) : (ofNs v).seconds.toInt = v.tdiv nsPerSecond :=
  toInt_ofInt_of_fitsIn h

theorem ofNs_nanoseconds (v : Int) : (ofNs v).nanoseconds.toInt = v.tmod nsPerSecond :=
  toInt_ofInt_of_fitsIn (fitsIn_tmod v)

theorem ns_ofNs {v : Int} (h : InRange v) : (ofNs v).ns = v := by
  rw [TimeInternal.ns, ofNs_seconds h, ofNs_nanoseconds, Int.tdiv_mul_add_tmod]

theorem normal_ofNs {v : Int} (h : InRange v) : (ofNs v).Normal := by
  rw [TimeInternal.Normal, ns_ofNs h, ofNs_seconds h, ofNs_nanoseconds]
  exact splits_tdiv nsPerSecond_pos v

theorem TimeInternal.Normal.inRange {t : TimeInternal} (h : t.Normal) : InRange t.ns := by
  rw [InRange, h.eq.1]
  exact fitsIn_toInt t.seconds

/-- A time whose parts are quotient and remainder of a number is that of the number. -/
theorem eq_ofNs {t : TimeInternal} {v : Int}
    (h : Splits nsPerSecond v t.seconds.toInt t.nanoseconds.toInt) : t = ofNs v := by
  obtain ⟨hs, hn⟩ := h.eq
  rw [ofNs, hs, hn, BitVec.ofInt_toInt, BitVec.ofInt_toInt]

@[simp] theorem toInt_billion : (1000000000 : BitVec 32).toInt = nsPerSecond := by decide

/-- The quotient of the nanoseconds is small. -/
theorem fitsIn_tdiv (x : BitVec 32) : FitsIn 32 (x.toInt.tdiv nsPerSecond) ∧
    FitsIn 32 (x.toInt.tdiv nsPerSecond * nsPerSecond) := by
  have hsplit := splits_tdiv nsPerSecond_pos x.toInt
  obtain ⟨hsum, hlow, hup, hpos, hneg⟩ := hsplit
  have hx := fitsIn_toInt x
  simp only [FitsIn, nsPerSecond] at *
  omega

/-- The parts before the last correction. -/
theorem normalize_parts {r : TimeInternal}
    (h : FitsIn 32 (r.seconds.toInt + r.nanoseconds.toInt.tdiv nsPerSecond)) :
    (r.seconds + r.nanoseconds.sdiv 1000000000).toInt =
        r.seconds.toInt + r.nanoseconds.toInt.tdiv nsPerSecond ∧
      (r.nanoseconds - r.nanoseconds.sdiv 1000000000 * 1000000000).toInt =
        r.nanoseconds.toInt.tmod nsPerSecond := by
  obtain ⟨hq, hqm⟩ := fitsIn_tdiv r.nanoseconds
  have hdiv : (r.nanoseconds.sdiv 1000000000).toInt = r.nanoseconds.toInt.tdiv nsPerSecond := by
    rw [toInt_sdiv_of_fitsIn] <;> rw [toInt_billion]
    exact hq
  have hmul : (r.nanoseconds.sdiv 1000000000 * 1000000000).toInt =
      r.nanoseconds.toInt.tdiv nsPerSecond * nsPerSecond := by
    rw [toInt_mul_of_fitsIn] <;> rw [hdiv, toInt_billion]
    exact hqm
  have hdiff : r.nanoseconds.toInt - r.nanoseconds.toInt.tdiv nsPerSecond * nsPerSecond =
      r.nanoseconds.toInt.tmod nsPerSecond := by
    have := Int.tdiv_mul_add_tmod r.nanoseconds.toInt nsPerSecond
    omega
  constructor
  · rw [toInt_add_of_fitsIn] <;> rw [hdiv]
    exact h
  · rw [toInt_sub_of_fitsIn] <;> rw [hmul, hdiff]
    exact fitsIn_tmod _

/-- The last correction: the sign of the nanoseconds becomes that of the seconds. -/
theorem correct_eq {s n : BitVec 32} (hlow : -nsPerSecond < n.toInt) (hup : n.toInt < nsPerSecond) :
    (if (0 : BitVec 32).slt s && n.slt 0 then (⟨s - 1, n + 1000000000⟩ : TimeInternal)
      else if s.slt 0 && (0 : BitVec 32).slt n then ⟨s + 1, n - 1000000000⟩ else ⟨s, n⟩) =
      ofNs (s.toInt * nsPerSecond + n.toInt) := by
  have hone : (1 : BitVec 32).toInt = 1 := by decide
  have hzero : (0 : BitVec 32).toInt = 0 := by decide
  have hs := fitsIn_toInt s
  simp only [Bool.and_eq_true, BitVec.slt_iff_toInt_lt, hzero]
  simp only [nsPerSecond, FitsIn] at hlow hup hs
  split
  · next h =>
    have hsec : (s - 1).toInt = s.toInt - 1 := by
      rw [toInt_sub_of_fitsIn] <;> rw [hone]
      simp only [FitsIn]
      omega
    have hnan : (n + 1000000000).toInt = n.toInt + nsPerSecond := by
      rw [toInt_add_of_fitsIn] <;> rw [toInt_billion]
      simp only [FitsIn, nsPerSecond]
      omega
    apply eq_ofNs
    simp only [hsec, hnan, nsPerSecond]
    constructor <;> omega
  · next hpos =>
    split
    · next h =>
      have hsec : (s + 1).toInt = s.toInt + 1 := by
        rw [toInt_add_of_fitsIn] <;> rw [hone]
        simp only [FitsIn]
        omega
      have hnan : (n - 1000000000).toInt = n.toInt - nsPerSecond := by
        rw [toInt_sub_of_fitsIn] <;> rw [toInt_billion]
        simp only [FitsIn, nsPerSecond]
        omega
      apply eq_ofNs
      simp only [hsec, hnan, nsPerSecond]
      constructor <;> omega
    · next hneg =>
      apply eq_ofNs
      simp only [nsPerSecond]
      constructor <;> omega

/-- Seconds with room for the carry out of the nanoseconds make a time in normal form. -/
theorem normalizeTime_eq {r : TimeInternal}
    (h : FitsIn 32 (r.seconds.toInt + r.nanoseconds.toInt.tdiv nsPerSecond)) :
    normalizeTime r = ofNs r.ns := by
  obtain ⟨hsec, hnan⟩ := normalize_parts h
  have hsplit := splits_tdiv nsPerSecond_pos r.nanoseconds.toInt
  have hns : r.ns = (r.seconds.toInt + r.nanoseconds.toInt.tdiv nsPerSecond) * nsPerSecond +
      r.nanoseconds.toInt.tmod nsPerSecond := by
    have := hsplit.eq_add
    rw [TimeInternal.ns, Int.add_mul]
    omega
  rw [hns, ← hsec, ← hnan, ← correct_eq]
  · rfl
  · rw [hnan]
    exact hsplit.lower
  · rw [hnan]
    exact hsplit.upper

/-! ### Sums, differences and halves -/

/-- If a sum is in range, its seconds have room for the carry. -/
theorem fitsIn_carry {s n : Int} (hs : FitsIn 32 s) (h : InRange (s * nsPerSecond + n)) :
    FitsIn 32 (s + n.tdiv nsPerSecond) := by
  obtain ⟨hsum, hlow, hup, hpos, hneg⟩ := splits_tdiv nsPerSecond_pos n
  have hv : s * nsPerSecond + n = (s + n.tdiv nsPerSecond) * nsPerSecond + n.tmod nsPerSecond := by
    rw [Int.add_mul]
    omega
  rw [InRange, hv] at h
  simp only [FitsIn, nsPerSecond] at *
  rcases Int.lt_trichotomy (n.tmod 1000000000) 0 with hm | hm | hm
  · -- The carry is negative as well, so it takes the seconds down.
    by_cases hq : 0 < s + n.tdiv 1000000000
    · omega
    · have hsplit : Splits 1000000000 ((s + n.tdiv 1000000000) * 1000000000 + n.tmod 1000000000)
          (s + n.tdiv 1000000000) (n.tmod 1000000000) := by
        constructor <;> omega
      rw [hsplit.eq.1] at h
      exact h
  · rw [hm, Int.add_zero, Int.mul_tdiv_cancel _ (by decide)] at h
    exact h
  · by_cases hq : s + n.tdiv 1000000000 < 0
    · omega
    · have hsplit : Splits 1000000000 ((s + n.tdiv 1000000000) * 1000000000 + n.tmod 1000000000)
          (s + n.tdiv 1000000000) (n.tmod 1000000000) := by
        constructor <;> omega
      rw [hsplit.eq.1] at h
      exact h

/-- What `normalizeTime` makes of parts that are computed without overflow. -/
theorem normalizeTime_parts {r : TimeInternal} {s n : Int} (hs : r.seconds.toInt = s)
    (hn : r.nanoseconds.toInt = n) (h : InRange (s * nsPerSecond + n)) :
    normalizeTime r = ofNs (s * nsPerSecond + n) := by
  have hns : r.ns = s * nsPerSecond + n := by rw [TimeInternal.ns, hs, hn]
  rw [← hns]
  apply normalizeTime_eq
  rw [hs, hn]
  apply fitsIn_carry _ h
  rw [← hs]
  exact fitsIn_toInt _

/-- Which numbers of nanoseconds have seconds that fit. -/
theorem inRange_iff {v : Int} :
    InRange v ↔ -2147483649 * nsPerSecond < v ∧ v < 2147483648 * nsPerSecond := by
  obtain ⟨hsum, hlow, hup, hpos, hneg⟩ := splits_tdiv nsPerSecond_pos v
  simp only [InRange, FitsIn, nsPerSecond] at *
  omega

/-- Half of a number, half by half. -/
theorem tdiv_two {s n : Int} (hl : -nsPerSecond < n) (hu : n < nsPerSecond) (hpos : 0 < s → 0 ≤ n)
    (hneg : s < 0 → n ≤ 0) :
    (s * nsPerSecond + n).tdiv 2 =
      s.tdiv 2 * nsPerSecond + (n + s.tmod 2 * nsPerSecond).tdiv 2 := by
  obtain ⟨hs, hsl, hsu, hsp, hsn⟩ := splits_tdiv (B := 2) (by decide) s
  generalize s.tdiv 2 = q at *
  generalize s.tmod 2 = e at *
  obtain ⟨hh, hhl, hhu, hhp, hhn⟩ := splits_tdiv (B := 2) (by decide) (n + e * nsPerSecond)
  generalize (n + e * nsPerSecond).tdiv 2 = h at *
  generalize (n + e * nsPerSecond).tmod 2 = r at *
  have hsplit : Splits 2 (s * nsPerSecond + n) (q * nsPerSecond + h) r := by
    simp only [nsPerSecond] at *
    constructor <;> omega
  exact hsplit.eq.1
theorem inRange_half {v : Int} (h : InRange v) : InRange (v.tdiv 2) := by
  obtain ⟨hsum, hlow, hup, hpos, hneg⟩ := splits_tdiv (B := 2) (by decide) v
  rw [inRange_iff] at h ⊢
  generalize v.tdiv 2 = q at *
  simp only [nsPerSecond] at *
  omega

section Sums
variable {x y : TimeInternal}

/-- In range, the seconds of a sum do not overflow: they would have to be of one sign. -/
theorem fitsIn_add (hx : x.Normal) (hy : y.Normal) (h : InRange (x.ns + y.ns)) :
    FitsIn 32 (x.seconds.toInt + y.seconds.toInt) := by
  obtain ⟨-, hxl, hxu, hxp, hxn⟩ := hx
  obtain ⟨-, hyl, hyu, hyp, hyn⟩ := hy
  have hxs := fitsIn_toInt x.seconds
  have hys := fitsIn_toInt y.seconds
  rw [inRange_iff] at h
  simp only [TimeInternal.ns, FitsIn, nsPerSecond] at *
  omega

/-- The nanoseconds of two times in normal form are added and subtracted without overflow. -/
theorem nanoseconds_add_sub (hx : x.Normal) (hy : y.Normal) :
    (x.nanoseconds + y.nanoseconds).toInt = x.nanoseconds.toInt + y.nanoseconds.toInt ∧
      (x.nanoseconds - y.nanoseconds).toInt = x.nanoseconds.toInt - y.nanoseconds.toInt := by
  obtain ⟨-, hxl, hxu, -, -⟩ := hx
  obtain ⟨-, hyl, hyu, -, -⟩ := hy
  simp only [nsPerSecond] at hxl hxu hyl hyu
  constructor
  · apply toInt_add_of_fitsIn
    constructor <;> omega
  · apply toInt_sub_of_fitsIn
    constructor <;> omega

theorem addTime_eq (hx : x.Normal) (hy : y.Normal) (h : InRange (x.ns + y.ns)) :
    addTime x y = ofNs (x.ns + y.ns) := by
  have hv : x.ns + y.ns = (x.seconds.toInt + y.seconds.toInt) * nsPerSecond +
      (x.nanoseconds.toInt + y.nanoseconds.toInt) := by
    rw [TimeInternal.ns, TimeInternal.ns, Int.add_mul]
    omega
  have hs := toInt_add_of_fitsIn (fitsIn_add hx hy h)
  rw [hv] at h ⊢
  exact normalizeTime_parts hs (nanoseconds_add_sub hx hy).1 h

theorem subTime_eq (hx : x.Normal) (hy : y.Normal)
    (hs : FitsIn 32 (x.seconds.toInt - y.seconds.toInt))
    (h : InRange (x.ns - y.ns)) : subTime x y = ofNs (x.ns - y.ns) := by
  have hv : x.ns - y.ns = (x.seconds.toInt - y.seconds.toInt) * nsPerSecond +
      (x.nanoseconds.toInt - y.nanoseconds.toInt) := by
    rw [TimeInternal.ns, TimeInternal.ns, Int.sub_mul]
    omega
  rw [hv] at h ⊢
  exact normalizeTime_parts (toInt_sub_of_fitsIn hs) (nanoseconds_add_sub hx hy).2 h

/-- Half of a time, rounded towards zero. -/
theorem div2Time_eq (hx : x.Normal) : div2Time x = ofNs (x.ns.tdiv 2) := by
  obtain ⟨-, hxl, hxu, hxp, hxn⟩ := id hx
  have hxs := fitsIn_toInt x.seconds
  have hxsp : 0 < x.seconds.toInt → 0 ≤ x.nanoseconds.toInt := by
    simp only [TimeInternal.ns, nsPerSecond] at *
    omega
  have hxsn : x.seconds.toInt < 0 → x.nanoseconds.toInt ≤ 0 := by
    simp only [TimeInternal.ns, nsPerSecond] at *
    omega
  obtain ⟨hsum, hlow, hup, hpos, hneg⟩ := splits_tdiv (B := 2) (by decide) x.seconds.toInt
  have htwo : (2 : BitVec 32).toInt = 2 := by decide
  have hrem : (x.seconds.srem 2 * 1000000000).toInt = x.seconds.toInt.tmod 2 * nsPerSecond := by
    rw [toInt_mul_of_fitsIn] <;> rw [BitVec.toInt_srem, htwo, toInt_billion]
    simp only [FitsIn, nsPerSecond]
    omega
  have hnan : (x.nanoseconds + x.seconds.srem 2 * 1000000000).toInt =
      x.nanoseconds.toInt + x.seconds.toInt.tmod 2 * nsPerSecond := by
    rw [toInt_add_of_fitsIn] <;> rw [hrem]
    simp only [FitsIn, nsPerSecond, TimeInternal.ns] at *
    omega
  obtain ⟨hsum', hlow', hup', hpos', hneg'⟩ := splits_tdiv (B := 2) (by decide)
    (x.nanoseconds.toInt + x.seconds.toInt.tmod 2 * nsPerSecond)
  have hsec2 : (x.seconds.sdiv 2).toInt = x.seconds.toInt.tdiv 2 := by
    apply toInt_sdiv_of_fitsIn
    rw [htwo]
    simp only [FitsIn] at *
    omega
  have hnan2 : ((x.nanoseconds + x.seconds.srem 2 * 1000000000).sdiv 2).toInt =
      (x.nanoseconds.toInt + x.seconds.toInt.tmod 2 * nsPerSecond).tdiv 2 := by
    rw [toInt_sdiv_of_fitsIn] <;> rw [htwo, hnan]
    simp only [FitsIn, nsPerSecond, TimeInternal.ns] at *
    omega
  have hhalf : x.ns.tdiv 2 = x.seconds.toInt.tdiv 2 * nsPerSecond +
      (x.nanoseconds.toInt + x.seconds.toInt.tmod 2 * nsPerSecond).tdiv 2 :=
    tdiv_two hxl hxu hxsp hxsn
  have hin := inRange_half hx.inRange
  rw [hhalf] at hin ⊢
  exact normalizeTime_parts hsec2 hnan2 hin

/-- Less than 2^31 - 1 seconds apart, two times are subtracted without overflow. -/
theorem fitsIn_sub (hx : x.Normal) (hy : y.Normal) (h : |x.ns - y.ns| < 2147483647 * nsPerSecond) :
    FitsIn 32 (x.seconds.toInt - y.seconds.toInt) := by
  obtain ⟨-, hxl, hxu, hxp, hxn⟩ := hx
  obtain ⟨-, hyl, hyu, hyp, hyn⟩ := hy
  have hxs := fitsIn_toInt x.seconds
  have hys := fitsIn_toInt y.seconds
  rw [abs_lt] at h
  simp only [TimeInternal.ns, FitsIn, nsPerSecond] at *
  omega

theorem inRange_of_abs_lt {v : Int} (h : |v| < 2147483647 * nsPerSecond) : InRange v := by
  rw [abs_lt] at h
  rw [inRange_iff]
  simp only [nsPerSecond] at *
  omega

/-- **The arithmetic of times is that of the nanoseconds**: sums, differences and halves of times in
normal form are in normal form, and their values are exact, or rounded towards zero, unless they are
as far from zero as 2^31 - 1 seconds. -/
theorem time_arith (hx : x.Normal) (hy : y.Normal) :
    (|x.ns + y.ns| < 2147483647 * nsPerSecond →
        (addTime x y).Normal ∧ (addTime x y).ns = x.ns + y.ns) ∧
      (|x.ns - y.ns| < 2147483647 * nsPerSecond →
        (subTime x y).Normal ∧ (subTime x y).ns = x.ns - y.ns) ∧
      (div2Time x).Normal ∧ (div2Time x).ns = x.ns.tdiv 2 := by
  refine ⟨fun h => ?_, fun h => ?_, ?_⟩
  · have hin := inRange_of_abs_lt h
    rw [addTime_eq hx hy hin]
    exact ⟨normal_ofNs hin, ns_ofNs hin⟩
  · have hin := inRange_of_abs_lt h
    rw [subTime_eq hx hy (fitsIn_sub hx hy h) hin]
    exact ⟨normal_ofNs hin, ns_ofNs hin⟩
  · have hin := inRange_half hx.inRange
    rw [div2Time_eq hx]
    exact ⟨normal_ofNs hin, ns_ofNs hin⟩

/-- A second and a half before two and three quarters, and half of it. -/
theorem time_arith_early :
    (subTime (ofNs 1500000000) (ofNs 2750000000)).ns = -1250000000 ∧
      (div2Time (ofNs 1500000000)).ns = 750000000 := by
  have hx : InRange 1500000000 := by decide
  have hy : InRange 2750000000 := by decide
  obtain ⟨-, hsub, -, hhalf⟩ := time_arith (normal_ofNs hx) (normal_ofNs hy)
  rw [ns_ofNs hx, ns_ofNs hy] at hsub
  rw [ns_ofNs hx] at hhalf
  exact ⟨(hsub (abs_lt.mpr ⟨by decide, by decide⟩)).2, hhalf⟩

end Sums

/-! ### Conversions -/

/-- The only number that has no negative counterpart. -/
def int64Min : BitVec 64 := 0x8000000000000000

theorem toInt_billion64 : (1000000000 : BitVec 64).toInt = nsPerSecond := by decide

/-- Quotient and remainder of a number of nanoseconds, as words. -/
theorem parts_of_splits {q r : BitVec 64} {v : Int} (hq : q.toInt = v.tdiv nsPerSecond)
    (hr : r.toInt = v.tmod nsPerSecond) (h : InRange v) :
    (⟨q.truncate 32, r.truncate 32⟩ : TimeInternal) = ofNs v := by
  have hsec : (q.truncate 32).toInt = q.toInt := toInt_setWidth_of_fitsIn q (by decide) (hq ▸ h)
  have hnan : (r.truncate 32).toInt = r.toInt :=
    toInt_setWidth_of_fitsIn r (by decide) (hr ▸ fitsIn_tmod v)
  apply eq_ofNs
  rw [hsec, hnan, hq, hr]
  exact splits_tdiv nsPerSecond_pos v

/-- The last two lines: of a small number and a sign. -/
theorem scaled_parts {n sign : BitVec 64} (hn : -(2 ^ 47) ≤ n.toInt ∧ n.toInt < 2 ^ 47)
    (hsign : sign.toInt = 1 ∨ sign.toInt = -1) :
    (⟨(sign * n.sdiv 1000000000).truncate 32, (sign * n.srem 1000000000).truncate 32⟩ :
      TimeInternal) =
      ofNs (sign.toInt * n.toInt) := by
  have hsplit := splits_tdiv nsPerSecond_pos n.toInt
  have hneg := hsplit.neg.eq
  obtain ⟨hsum, hlow, hup, hpos', hneg'⟩ := hsplit
  have hdiv : (n.sdiv 1000000000).toInt = n.toInt.tdiv nsPerSecond := by
    rw [toInt_sdiv_of_fitsIn] <;> rw [toInt_billion64]
    simp only [FitsIn, nsPerSecond] at *
    omega
  have hrem : (n.srem 1000000000).toInt = n.toInt.tmod nsPerSecond := by
    rw [BitVec.toInt_srem, toInt_billion64]
  have hq : (sign * n.sdiv 1000000000).toInt = sign.toInt * n.toInt.tdiv nsPerSecond := by
    rw [toInt_mul_of_fitsIn] <;> rw [hdiv]
    simp only [FitsIn, nsPerSecond] at *
    rcases hsign with h | h <;> rw [h] <;> omega
  have hr : (sign * n.srem 1000000000).toInt = sign.toInt * n.toInt.tmod nsPerSecond := by
    rw [toInt_mul_of_fitsIn] <;> rw [hrem]
    simp only [FitsIn, nsPerSecond] at *
    rcases hsign with h | h <;> rw [h] <;> omega
  apply parts_of_splits
  · rw [hq]
    rcases hsign with h | h <;> rw [h]
    · rw [Int.one_mul, Int.one_mul]
    · rw [Int.neg_one_mul, Int.neg_one_mul, hneg.1]
  · rw [hr]
    rcases hsign with h | h <;> rw [h]
    · rw [Int.one_mul, Int.one_mul]
    · rw [Int.neg_one_mul, Int.neg_one_mul, hneg.2]
  · rw [inRange_iff]
    simp only [nsPerSecond] at *
    rcases hsign with h | h <;> rw [h] <;> omega

/-- The nanoseconds without their fraction, rounded towards zero. The smallest number comes out with
the wrong sign. -/
theorem scaledNanosecondsToInternalTime_eq (x : BitVec 64) :
    scaledNanosecondsToInternalTime x =
      ofNs (if x = int64Min then 2 ^ 47 else x.toInt.tdiv (2 ^ 16)) := by
  have hx := fitsIn_toInt x
  have hzero : (0 : BitVec 64).toInt = 0 := by decide
  have hone : (1 : BitVec 64).toInt = 1 := by decide
  have hnegone : (-1 : BitVec 64).toInt = -1 := by decide
  by_cases hneg : x.slt 0 = true
  · have hlt : x.toInt < 0 := by
      rw [BitVec.slt_iff_toInt_lt, hzero] at hneg
      exact hneg
    by_cases hmin : x = int64Min
    · subst hmin
      decide
    · have hne : x.toInt ≠ -(2 ^ 63) := fun h => hmin (BitVec.eq_of_toInt_eq h)
      have hflip : (-x).toInt = -x.toInt := by
        apply toInt_neg_of_fitsIn
        simp only [FitsIn] at *
        omega
      have hshift : ((-x).sshiftRight 16).toInt = -(x.toInt.tdiv (2 ^ 16)) := by
        rw [BitVec.toInt_sshiftRight, hflip, Int.shiftRight_eq_div_pow, ← Int.neg_tdiv,
          Int.tdiv_eq_ediv_of_nonneg (by omega)]
        rfl
      simp only [scaledNanosecondsToInternalTime, hneg, if_true]
      rw [scaled_parts _ (Or.inr hnegone), hshift, hnegone, if_neg hmin, Int.neg_one_mul,
        Int.neg_neg]
      rw [BitVec.toInt_sshiftRight, hflip, Int.shiftRight_eq_div_pow]
      simp only [FitsIn] at *
      omega
  · have hle : 0 ≤ x.toInt := by
      rw [BitVec.slt_iff_toInt_lt, hzero] at hneg
      omega
    have hmin : x ≠ int64Min := by
      rintro rfl
      exact hneg (by decide)
    have hshift : (x.sshiftRight 16).toInt = x.toInt.tdiv (2 ^ 16) := by
      rw [BitVec.toInt_sshiftRight, Int.shiftRight_eq_div_pow, Int.tdiv_eq_ediv_of_nonneg hle]
      rfl
    simp only [scaledNanosecondsToInternalTime, hneg, if_false, Bool.false_eq_true]
    rw [scaled_parts _ (Or.inl hone), hshift, hone, if_neg hmin, Int.one_mul]
    rw [BitVec.toInt_sshiftRight, Int.shiftRight_eq_div_pow]
    simp only [FitsIn] at *
    omega

theorem and_not_intMax_eq_zero_iff (x : BitVec 32) : x &&& ~~~intMax = 0 ↔ 0 ≤ x.toInt := by
  have hmask : ~~~intMax = BitVec.twoPow 32 31 := by decide
  rw [hmask]
  have hiff := (and_twoPow_ne_zero_iff (x := x) (k := 31) (by decide)).not
  rw [not_not] at hiff
  have hmsb : x.getLsbD 31 = x.msb := (BitVec.msb_eq_getLsbD_last x).symm
  rw [hiff, hmsb, BitVec.msb_eq_toInt, decide_eq_true_iff, Int.not_lt]

theorem fromInternalTime_of_nonneg {t : TimeInternal} (e : Timestamp) (hs : 0 ≤ t.seconds.toInt)
    (hn : 0 ≤ t.nanoseconds.toInt) : fromInternalTime t e = ⟨⟨t.seconds, 0⟩, t.nanoseconds⟩ := by
  have h1 := (and_not_intMax_eq_zero_iff _).mpr hs
  have h2 := (and_not_intMax_eq_zero_iff _).mpr hn
  simp [fromInternalTime, h1, h2]

theorem fromInternalTime_of_neg {t : TimeInternal} (e : Timestamp)
    (h : t.seconds.toInt < 0 ∨ t.nanoseconds.toInt < 0) : fromInternalTime t e = e := by
  have h' : t.seconds &&& ~~~intMax ≠ 0 ∨ t.nanoseconds &&& ~~~intMax ≠ 0 := by
    rw [Ne, Ne, and_not_intMax_eq_zero_iff, and_not_intMax_eq_zero_iff]
    omega
  rw [fromInternalTime]
  rw [if_pos (by simpa using h')]

/-- **A time comes back from its timestamp** exactly if it is not negative and not the last second
before the overflow; otherwise what the two variables held before is there still. -/
theorem toInternalTime_fromInternalTime (t old : TimeInternal) (e : Timestamp) :
    toInternalTime old (fromInternalTime t e) =
      if t.seconds.toInt < 0 ∨ t.nanoseconds.toInt < 0 then toInternalTime old e
      else if t.seconds = intMax then old else t := by
  split
  · next h => rw [fromInternalTime_of_neg e h]
  · next h =>
    rw [not_or] at h
    rw [fromInternalTime_of_nonneg e (by omega) (by omega), toInternalTime]
    have hlt : t.seconds.ult intMax = true ↔ t.seconds ≠ intMax := by
      rw [BitVec.ult_iff_lt, BitVec.lt_def, Ne, ← BitVec.toNat_inj]
      have hcond := BitVec.toInt_eq_toNat_cond t.seconds
      have hmax : intMax.toNat = 2147483647 := by decide
      have hlt := t.seconds.isLt
      rw [hmax]
      split at hcond <;> omega
    by_cases hs : t.seconds = intMax
    · rw [if_neg (fun hc => hlt.mp hc hs), if_pos hs]
    · rw [if_pos (hlt.mpr hs), if_neg hs]

/-! ### The logarithm -/

/-- One line takes `k` bits off, or there were none. -/
theorem log2Step_spec {k : Nat} {s : BitVec 32 × Nat} (hne : s.1.toNat ≠ 0)
    (hlt : s.1.toNat < 2 ^ (2 * k)) :
    (log2Step k s).1.toNat ≠ 0 ∧ (log2Step k s).1.toNat < 2 ^ k ∧
      (log2Step k s).2 + (log2Step k s).1.toNat.log2 = s.2 + s.1.toNat.log2 := by
  rw [log2Step]
  split
  · next h =>
    have hlog : k ≤ s.1.toNat.log2 := (Nat.le_log2 hne).mpr h
    have hdiv : (s.1 >>> k).toNat = s.1.toNat / 2 ^ k := by
      rw [BitVec.toNat_ushiftRight, Nat.shiftRight_eq_div_pow]
    have hpos : s.1.toNat / 2 ^ k ≠ 0 := (Nat.div_pos h (Nat.two_pow_pos k)).ne'
    refine ⟨by rw [hdiv]; exact hpos, ?_, ?_⟩
    · rw [hdiv]
      apply Nat.div_lt_of_lt_mul
      rw [← Nat.pow_add]
      rwa [Nat.two_mul] at hlt
    · have hsum : (s.1.toNat / 2 ^ k).log2 = s.1.toNat.log2 - k := by
        rw [Nat.log2_eq_iff hpos]
        have hup := Nat.lt_log2_self (n := s.1.toNat)
        have hlow := Nat.log2_self_le hne
        constructor
        · rw [Nat.le_div_iff_mul_le (Nat.two_pow_pos k), ← Nat.pow_add, Nat.sub_add_cancel hlog]
          exact hlow
        · apply Nat.div_lt_of_lt_mul
          rw [← Nat.pow_add]
          have hexp : k + (s.1.toNat.log2 - k + 1) = s.1.toNat.log2 + 1 := by omega
          rw [hexp]
          exact hup
      simp only [hdiv, hsum]
      omega
  · next h => exact ⟨hne, by omega, rfl⟩

theorem floorLog2_eq {n : BitVec 32} (h : n ≠ 0) : floorLog2 n = n.toNat.log2 := by
  have hne : n.toNat ≠ 0 := fun h0 => h (BitVec.eq_of_toNat_eq h0)
  obtain ⟨h16, hlt16, hs16⟩ := log2Step_spec (k := 16) (s := (n, 0)) hne n.isLt
  obtain ⟨h8, hlt8, hs8⟩ := log2Step_spec (k := 8) h16 hlt16
  obtain ⟨h4, hlt4, hs4⟩ := log2Step_spec (k := 4) h8 hlt8
  obtain ⟨h2, hlt2, hs2⟩ := log2Step_spec (k := 2) h4 hlt4
  obtain ⟨h1, hlt1, hs1⟩ := log2Step_spec (k := 1) h2 hlt2
  have hlast :
      (log2Step 1 (log2Step 2 (log2Step 4 (log2Step 8 (log2Step 16 (n, 0)))))).1.toNat = 1 := by
      omega
  rw [hlast] at hs1
  change _ = 0 + n.toNat.log2 at hs16
  have hone : Nat.log2 1 = 0 := by decide
  rw [floorLog2, if_neg h]
  omega

end Stm32F4.Ptp
