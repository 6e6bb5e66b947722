import Stm32F4.Ntp.Sntp

/-! What `sntp_client_time_handle` computes.

A reply has three times in it: when the request left the client (T1), when it reached the server
(T2) and when the reply left there (T3); the client adds the time of its arrival (T4). The
differences between the times of one clock and the other are halved before they
are added, so that the sum fits (`timed_of_reply`). Times are unsigned, and what is said of their
differences is about the integers. -/
namespace Stm32F4.Ntp
open Lib

/-- The values left in `*delay` and `*offset`. -/
def sntpClientTimeHandle (revTime : TimeFp) (msg : SntpS) (delay offset : TimeFp) :
    TimeFp × TimeFp :=
  let origT := htonlFp msg.orig
  let recvT := htonlFp msg.recv
  let xmtT := htonlFp msg.xmt
  if origT.fpUi = 0 ∧ origT.fpUf = 0 then
    -- the result is a local variable's
    let _offsetT := tsSub xmtT revTime
    (delay, offset)
  else
    let t34 := tsSub xmtT revTime
    let t21 := tsSub recvT origT
    let offsetT := tsRshift t34
    let t21 := tsRshift t21
    let offsetT := tsAdd offsetT t21
    let t41 := tsSub revTime origT
    let t32 := tsSub xmtT recvT
    let delayT := tsSub t41 t32
    (delayT, offsetT)

/-- `a - b`, in units of `2⁻³²` seconds. -/
def gap (a b : TimeFp) : Int := a.val.toNat - b.val.toNat

/-- A signed number of 64 bits. -/
def Fits (d : Int) : Prop := -2 ^ 63 ≤ d ∧ d < 2 ^ 63

instance (d : Int) : Decidable (Fits d) := inferInstanceAs (Decidable (_ ∧ _))

/-- The results `r` that four times ask for. -/
structure Timed (t1 t2 t3 t4 : TimeFp) (r : TimeFp × TimeFp) : Prop where
  offset : r.2.val.toInt = gap t3 t4 / 2 + gap t2 t1 / 2
  /-- within one unit of half the sum -/
  near : (2 * r.2.val.toInt - (gap t2 t1 + gap t3 t4)).natAbs ≤ 2
  delay : r.1.val = (t4.val - t1.val) - (t3.val - t2.val)
  delay_fits : Fits (gap t4 t1 - gap t3 t2) → r.1.val.toInt = gap t4 t1 - gap t3 t2

/-- A difference that fits is what `TS_SUB` computes. -/
theorem tsSub_toInt {r a : TimeFp} (h : Fits (gap r a)) : (tsSub r a).val.toInt = gap r a := by
  obtain ⟨hlo, hhi⟩ := h
  rw [gap] at hlo hhi
  rw [tsSub_val, gap]
  exact toInt_sub_of_fits (by omega) (by omega)

theorem tsSub_tsSub_toInt {t1 t2 t3 t4 : TimeFp} (h : Fits (gap t4 t1 - gap t3 t2)) :
    (tsSub (tsSub t4 t1) (tsSub t3 t2)).val.toInt = gap t4 t1 - gap t3 t2 := by
  obtain ⟨hlo, hhi⟩ := h
  rw [tsSub_val, tsSub_val, tsSub_val, BitVec.toInt_sub, toInt_sub_eq, toInt_sub_eq, ← Int.sub_bmod]
  apply Int.bmod_eq_of_le_mul_two
  · rw [gap, gap] at hlo
    omega
  · rw [gap, gap] at hhi
    omega

/-- A reply to a request of this client: its times give both results. -/
theorem sntpClientTimeHandle_of_orig {msg : SntpS} (h : htonlFp msg.orig ≠ ⟨0, 0⟩)
    (revTime delay offset : TimeFp) :
    sntpClientTimeHandle revTime msg delay offset =
      (tsSub (tsSub revTime (htonlFp msg.orig)) (tsSub (htonlFp msg.xmt) (htonlFp msg.recv)),
        tsAdd (tsRshift (tsSub (htonlFp msg.xmt) revTime))
          (tsRshift (tsSub (htonlFp msg.recv) (htonlFp msg.orig)))) :=
  if_neg fun hzero => h (congrArg₂ TimeFp.mk hzero.1 hzero.2)

/-- Without an originate time the results of an earlier one are left. -/
theorem sntpClientTimeHandle_of_zero {msg : SntpS} (h : htonlFp msg.orig = ⟨0, 0⟩)
    (revTime delay offset : TimeFp) :
    sntpClientTimeHandle revTime msg delay offset = (delay, offset) := by
  rw [sntpClientTimeHandle, h]
  exact if_pos ⟨rfl, rfl⟩

theorem timed_of_reply {revTime : TimeFp} {msg : SntpS} (delay offset : TimeFp)
    (horig : htonlFp msg.orig ≠ ⟨0, 0⟩) (h34 : Fits (gap (htonlFp msg.xmt) revTime))
    (h21 : Fits (gap (htonlFp msg.recv) (htonlFp msg.orig))) :
    Timed (htonlFp msg.orig) (htonlFp msg.recv) (htonlFp msg.xmt) revTime
      (sntpClientTimeHandle revTime msg delay offset) := by
  rw [sntpClientTimeHandle_of_orig horig]
  have hoffset : (tsAdd (tsRshift (tsSub (htonlFp msg.xmt) revTime))
      (tsRshift (tsSub (htonlFp msg.recv) (htonlFp msg.orig)))).val.toInt =
        gap (htonlFp msg.xmt) revTime / 2 + gap (htonlFp msg.recv) (htonlFp msg.orig) / 2 := by
    rw [tsAdd_val, tsRshift_val, tsRshift_val, toInt_halves (by decide), tsSub_toInt h34,
      tsSub_toInt h21]
  refine ⟨hoffset, ?_, ?_, tsSub_tsSub_toInt⟩
  · show (2 * BitVec.toInt _ - _).natAbs ≤ 2
    rw [hoffset]
    omega
  · show (tsSub (tsSub _ _) (tsSub _ _)).val = _
    rw [tsSub_val, tsSub_val, tsSub_val]

/-- **The macros compute with 64-bit numbers, and `sntp_client_time_handle` with times.** -/
theorem sntp_time_exact :
    (∀ r a : TimeFp, (tsAdd r a).val = r.val + a.val) ∧
      (∀ r a : TimeFp, (tsSub r a).val = r.val - a.val) ∧
      (∀ v : TimeFp, (tsRshift v).val = v.val.sshiftRight 1) ∧
      ∀ (revTime : TimeFp) (msg : SntpS) (delay offset : TimeFp), htonlFp msg.orig ≠ ⟨0, 0⟩ →
        Fits (gap (htonlFp msg.xmt) revTime) → Fits (gap (htonlFp msg.recv) (htonlFp msg.orig)) →
        Timed (htonlFp msg.orig) (htonlFp msg.recv) (htonlFp msg.xmt) revTime
          (sntpClientTimeHandle revTime msg delay offset) :=
  ⟨tsAdd_val, tsSub_val, tsRshift_val, fun _ _ delay offset horig h34 h21 =>
    timed_of_reply delay offset horig h34 h21⟩

/-- Sent at 1.5 s, there at 7 s, back from there at 7.25 s. -/
def sampleReply : SntpS :=
  { liVnMd := 0x1C, stratum := 2, poll := 0, percision := 0, rootDelay := 0,
    rootDisp := 0, refId := 0
    refTime := ⟨0, 0⟩, orig := htonlFp ⟨1, 0x80000000⟩, recv := htonlFp ⟨7, 0⟩,
    xmt := htonlFp ⟨7, 0x40000000⟩ }

theorem sntp_time_exact_sample :
    Timed ⟨1, 0x80000000⟩ ⟨7, 0⟩ ⟨7, 0x40000000⟩ ⟨2, 0⟩
      (sntpClientTimeHandle ⟨2, 0⟩ sampleReply ⟨0, 0⟩ ⟨0, 0⟩) :=
  sntp_time_exact.2.2.2 ⟨2, 0⟩ sampleReply ⟨0, 0⟩ ⟨0, 0⟩ (by decide) (by decide) (by decide)

end Stm32F4.Ntp
