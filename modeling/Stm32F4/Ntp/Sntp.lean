import Stm32F4.Lib.Limbs

/-! Times of the SNTP client.

A time is a number of seconds and a fraction of one, 32 bits each, and the macros of `sntp.h`
compute with the two words apart. The fractions are added in halves of 16 bits, so that their carry
shows in a 32-bit word. Together the words are one number of 64 bits, `val`, and on it the macros do
what they are named for: addition (`tsAdd_val`), subtraction (`tsSub_val`) and a signed shift to the
right (`tsRshift_val`). Negation and shifts of an `int` are those of two's complement. -/
namespace Stm32F4.Ntp
open Lib

/-! ### The macros -/

/-- The fractions in `FP_ADD` and `FP_SUB`: their halves are added, `lo_half` carries into
`hi_half`, and the second result is whether that one carries. -/
def addHalves (rf aLo aHi : BitVec 32) : BitVec 32 × Bool :=
  let loHalf := (rf &&& 0xffff) + aLo
  let hiHalf := ((rf >>> 16) &&& 0xffff) + aHi
  let hiHalf := if loHalf &&& 0x10000 ≠ 0 then hiHalf + 1 else hiHalf
  (((hiHalf &&& 0xffff) <<< 16) ||| (loHalf &&& 0xffff), hiHalf &&& 0x10000 != 0)

def fpAdd (ri rf ai af : BitVec 32) : BitVec 32 × BitVec 32 :=
  let s := addHalves rf (af &&& 0xffff) ((af >>> 16) &&& 0xffff)
  let ri := ri + ai
  (if s.2 then ri + 1 else ri, s.1)

def fpSub (ri rf ai af : BitVec 32) : BitVec 32 × BitVec 32 :=
  if af = 0 then (ri - ai, rf)
  else
    let s := addHalves rf (-af &&& 0xffff) ((-af).sshiftRight 16 &&& 0xffff)
    let ri := ri + ~~~ai
    (if s.2 then ri + 1 else ri, s.1)

/-- `v_i` is an `int` here. -/
def fpRshift (vi vf : BitVec 32) : BitVec 32 × BitVec 32 :=
  let vf := vf >>> 1
  let vf := if vi &&& 1 ≠ 0 then vf ||| 0x80000000 else vf
  (if vi &&& 0x80000000 ≠ 0 then vi.sshiftRight 1 ||| 0x80000000 else vi.sshiftRight 1, vf)

/-- `time_fp` -/
structure TimeFp where
  fpUi : BitVec 32
  fpUf : BitVec 32
deriving DecidableEq

def tsAdd (r a : TimeFp) : TimeFp :=
  let s := fpAdd r.fpUi r.fpUf a.fpUi a.fpUf
  ⟨s.1, s.2⟩

def tsSub (r a : TimeFp) : TimeFp :=
  let s := fpSub r.fpUi r.fpUf a.fpUi a.fpUf
  ⟨s.1, s.2⟩

def tsRshift (v : TimeFp) : TimeFp :=
  let s := fpRshift v.fpUi v.fpUf
  ⟨s.1, s.2⟩

/-- `lwip_htonl`, which is `lwip_ntohl` as well. -/
def htonl (n : BitVec 32) : BitVec 32 :=
  ((n &&& 0xff) <<< 24) ||| ((n &&& 0xff00) <<< 8) ||| ((n &&& 0xff0000) >>> 8) |||
    ((n &&& 0xff000000) >>> 24)

/-- `HTONL_FP` and `NTOHL_FP` -/
def htonlFp (h : TimeFp) : TimeFp := ⟨htonl h.fpUi, htonl h.fpUf⟩

/-- `struct sntp_s`, as it is in a datagram: the words in the byte order of the network. -/
structure SntpS where
  liVnMd : BitVec 8
  stratum : BitVec 8
  poll : BitVec 8
  percision : BitVec 8
  rootDelay : BitVec 32
  rootDisp : BitVec 32
  refId : BitVec 32
  refTime : TimeFp
  orig : TimeFp
  recv : TimeFp
  xmt : TimeFp
deriving DecidableEq

/-! ### The number they are about -/

/-- In units of `2⁻³²` seconds. -/
def TimeFp.val (t : TimeFp) : BitVec 64 := t.fpUi ++ t.fpUf

theorem toNat_hi (a : BitVec 32) : ((a >>> 16) &&& 0xffff).toNat = a.toNat / 2 ^ 16 := by
  have hlt := a.isLt
  refine (toNat_and_mask (k := 16) _ (by decide)).trans ?_
  rw [BitVec.toNat_ushiftRight, Nat.shiftRight_eq_div_pow]
  omega

/-- Added in halves, the fractions are added: the sum, and whether it wraps. -/
theorem addHalves_eq {rf aLo aHi a : BitVec 32} (hlo : aLo.toNat = a.toNat % 2 ^ 16)
    (hhi : aHi.toNat = a.toNat / 2 ^ 16) :
    addHalves rf aLo aHi = (rf + a, decide (2 ^ 32 ≤ rf.toNat + a.toNat)) := by
  have hrf := rf.isLt
  have ha := a.isLt
  have hmask : ∀ x : BitVec 32, (x &&& 0xffff).toNat = x.toNat % 2 ^ 16 := fun x =>
    toNat_and_mask (k := 16) x (by decide)
  have hbit : ∀ x : BitVec 32, x.toNat < 2 ^ 17 → (x &&& 0x10000 ≠ 0 ↔ 2 ^ 16 ≤ x.toNat) := fun x =>
    and_twoPow_ne_zero_iff_le (k := 16) (by decide)
  have hrfLo := hmask rf
  have hrfHi := toNat_hi rf
  rw [addHalves]
  generalize hl : (rf &&& 0xffff) + aLo = loHalf
  have hloHalf : loHalf.toNat = rf.toNat % 2 ^ 16 + a.toNat % 2 ^ 16 := by
    rw [← hl, BitVec.toNat_add, hrfLo, hlo]
    omega
  generalize hh : (if loHalf &&& 0x10000 ≠ 0 then ((rf >>> 16) &&& 0xffff) + aHi + 1
    else ((rf >>> 16) &&& 0xffff) + aHi) = hiHalf
  have hhiHalf : hiHalf.toNat = rf.toNat / 2 ^ 16 + a.toNat / 2 ^ 16 + loHalf.toNat / 2 ^ 16 := by
    rw [← hh]
    by_cases hc : loHalf &&& 0x10000 ≠ 0
    · have hcarry := (hbit loHalf (by omega)).mp hc
      rw [if_pos hc, BitVec.toNat_add, BitVec.toNat_add, hrfHi, hhi]
      show (_ % 2 ^ 32 + 1) % 2 ^ 32 = _
      omega
    · have hcarry := mt (hbit loHalf (by omega)).mpr hc
      rw [if_neg hc, BitVec.toNat_add, hrfHi, hhi]
      omega
  have hfields : (((hiHalf &&& 0xffff) <<< 16) ||| (loHalf &&& 0xffff)) = rf + a := by
    apply BitVec.eq_of_toNat_eq
    rw [toNat_shiftLeft_or (k := 16) (by rw [hmask]; omega) (by rw [hmask]; omega), hmask, hmask,
      BitVec.toNat_add]
    omega
  have hcarry : (hiHalf &&& 0x10000 != 0) = decide (2 ^ 32 ≤ rf.toNat + a.toNat) := by
    rw [Bool.eq_iff_iff, bne_iff_ne, decide_eq_true_iff, hbit hiHalf (by omega)]
    omega
  rw [hfields, hcarry]

/-- `TS_ADD` adds. -/
theorem tsAdd_val (r a : TimeFp) : (tsAdd r a).val = r.val + a.val := by
  have hlo : (a.fpUf &&& 0xffff).toNat = a.fpUf.toNat % 2 ^ 16 :=
    toNat_and_mask (k := 16) _ (by decide)
  rw [tsAdd, fpAdd, addHalves_eq hlo (toNat_hi a.fpUf)]
  simp only [decide_eq_true_eq]
  exact (append_add_append (v := 32) (w := 32) _ _ _ _).symm

/-- `TS_SUB` subtracts. -/
theorem tsSub_val (r a : TimeFp) : (tsSub r a).val = r.val - a.val := by
  have hlo : (-a.fpUf &&& 0xffff).toNat = (-a.fpUf).toNat % 2 ^ 16 :=
    toNat_and_mask (k := 16) _ (by decide)
  have hhi : ((-a.fpUf).sshiftRight 16 &&& 0xffff).toNat = (-a.fpUf).toNat / 2 ^ 16 := by
    rw [← toNat_hi]
    exact congrArg BitVec.toNat (sshiftRight_and_mask (k := 16) _ (by decide))
  refine Eq.trans ?_ (append_sub_append (v := 32) (w := 32) _ _ _ _).symm
  rw [tsSub, fpSub, TimeFp.val]
  by_cases hzero : a.fpUf = 0
  · simp only [if_pos hzero]
  · simp only [if_neg hzero, addHalves_eq hlo hhi, decide_eq_true_eq]

/-- `TS_RSHIFT` halves, rounding down. -/
theorem tsRshift_val (v : TimeFp) : (tsRshift v).val = v.val.sshiftRight 1 := by
  have hlow : v.fpUi &&& 1 ≠ 0 ↔ v.fpUi.getLsbD 0 = true :=
    and_twoPow_ne_zero_iff (k := 0) (by decide)
  have hsign : v.fpUi &&& 0x80000000 ≠ 0 ↔ v.fpUi.getLsbD 31 = true :=
    and_twoPow_ne_zero_iff (k := 31) (by decide)
  have hshift : (if v.fpUi &&& 0x80000000 ≠ 0 then v.fpUi.sshiftRight 1 ||| 0x80000000
      else v.fpUi.sshiftRight 1) = v.fpUi.sshiftRight 1 := by
    split
    · next h => exact sshiftRight_or_twoPow (w := 31) (hsign.mp h) 1
    · rfl
  refine Eq.trans ?_ (append_sshiftRight_one (v := 31) (w := 31) _ _).symm
  rw [tsRshift, fpRshift, hshift]
  simp only [hlow]
  rfl

end Stm32F4.Ntp
