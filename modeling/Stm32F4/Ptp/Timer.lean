import Mathlib.Algebra.Order.Ring.Int
import Mathlib.Logic.Function.Basic
import Stm32F4.Lib.Run
import Stm32F4.Lib.Signed

/-! The interval timers of the PTP stack.

There are seven timers and one count of milliseconds, and whoever asks whether a timer has
expired takes the milliseconds off all of them. A timer that runs out starts again with its
whole interval and keeps a flag until it is asked. So over any run a timer does not report more
often than its interval goes into the time that has passed, and it reports once the interval
has passed (`timer_account`). The time that counts is not just that since the start, but also
what was on the count then, and `initTimer` takes what is on the count from every timer. A timer
whose interval is not positive as an `int` never reports. -/
namespace Stm32F4.Ptp
open Lib

structure IntervalTimer where
  interval : BitVec 32
  left : BitVec 32
  expire : Bool
deriving DecidableEq, Inhabited

def timerArraySize : Nat := 7

def pdelayreqIntervalTimer : Nat := 0
def delayreqIntervalTimer : Nat := 1
def syncIntervalTimer : Nat := 2
def announceReceiptTimer : Nat := 3
def announceIntervalTimer : Nat := 4
def managementIntervalTimer : Nat := 5
def qualificationTimeout : Nat := 6

/-- `itimer` and `elapsed_ms`. -/
structure Timers where
  itimer : Nat → IntervalTimer
  elapsedMs : BitVec 32
deriving Inhabited

def catchAlarm (timeMs : BitVec 32) (t : Timers) : Timers :=
  { t with elapsedMs := t.elapsedMs + timeMs }

def initTimer (t : Timers) : Timers := { t with elapsedMs := 0 }

/-- The body of the loop of `timerUpdate`. -/
def IntervalTimer.update (delta : BitVec 32) (it : IntervalTimer) : IntervalTimer :=
  if (0 : BitVec 32).slt it.interval then
    let left := it.left - delta
    if left.sle 0 then { it with left := it.interval, expire := true } else { it with left := left }
  else it

def timerUpdate (t : Timers) : Timers :=
  let delta := t.elapsedMs
  let t := { t with elapsedMs := 0 }
  if delta.sle 0 then t
  else { t with
    itimer := fun i => if i < timerArraySize then (t.itimer i).update delta else t.itimer i }

def timerStop (index : Nat) (t : Timers) : Timers :=
  if index ≥ timerArraySize then t
  else { t with itimer := Function.update t.itimer index { t.itimer index with interval := 0 } }

def timerStart (index : Nat) (intervalMs : BitVec 32) (t : Timers) : Timers :=
  if index ≥ timerArraySize then t
  else { t with itimer := Function.update t.itimer index ⟨intervalMs, intervalMs, false⟩ }

def timerExpired (index : Nat) (t : Timers) : Timers × Bool :=
  let t := timerUpdate t
  if index ≥ timerArraySize then (t, false)
  else if !(t.itimer index).expire then (t, false)
  else ({ t with
    itimer := Function.update t.itimer index { t.itimer index with expire := false } }, true)

/-! ### One timer -/

/-- A timer that runs has not run out. -/
structure IntervalTimer.Running (it : IntervalTimer) : Prop where
  left_pos : 0 < it.left.toInt
  left_le : it.left.toInt ≤ it.interval.toInt

section Update
variable {it : IntervalTimer} {delta : BitVec 32}

theorem IntervalTimer.Running.left_sub (h : it.Running) (hd : 0 < delta.toInt) :
    (it.left - delta).toInt = it.left.toInt - delta.toInt := by
  obtain ⟨hpos, hle⟩ := h
  have hl := fitsIn_toInt it.left
  have hdl := fitsIn_toInt delta
  apply toInt_sub_of_fitsIn
  simp only [FitsIn] at *
  omega

theorem IntervalTimer.Running.update_eq (h : it.Running) (hd : 0 < delta.toInt) :
    it.update delta = if it.left.toInt ≤ delta.toInt then
        { it with left := it.interval, expire := true }
      else { it with left := it.left - delta } := by
  have hzero : (0 : BitVec 32).toInt = 0 := by decide
  have hrun : (0 : BitVec 32).slt it.interval = true := by
    have := h.left_pos
    have := h.left_le
    rw [BitVec.slt_iff_toInt_lt, hzero]
    omega
  have hout : (it.left - delta).sle 0 = true ↔ it.left.toInt ≤ delta.toInt := by
    rw [BitVec.sle_iff_toInt_le, h.left_sub hd, hzero]
    omega
  rw [IntervalTimer.update, if_pos hrun]
  simp only [hout]

/-- An update takes the time off, or starts again. -/
theorem IntervalTimer.Running.update (h : it.Running) (hd : 0 < delta.toInt) :
    (it.update delta).Running ∧ (it.update delta).interval = it.interval ∧
      (delta.toInt < it.left.toInt ∧ (it.update delta).left.toInt = it.left.toInt - delta.toInt ∧
          (it.update delta).expire = it.expire ∨
        it.left.toInt ≤ delta.toInt ∧ (it.update delta).left = it.interval ∧
          (it.update delta).expire = true) := by
  obtain ⟨hpos, hle⟩ := id h
  have hsub := h.left_sub hd
  rw [h.update_eq hd]
  by_cases hout : it.left.toInt ≤ delta.toInt
  · rw [if_pos hout]
    exact ⟨⟨Int.lt_of_lt_of_le hpos hle, Int.le_refl _⟩, rfl, .inr ⟨hout, rfl, rfl⟩⟩
  · rw [if_neg hout]
    refine ⟨⟨?_, ?_⟩, rfl, .inl ⟨by omega, hsub, rfl⟩⟩
    · show 0 < (it.left - delta).toInt
      omega
    · show (it.left - delta).toInt ≤ it.interval.toInt
      omega

/-- A timer that is stopped stays as it is. -/
theorem IntervalTimer.update_of_stopped (h : it.interval.toInt ≤ 0) : it.update delta = it := by
  have hzero : (0 : BitVec 32).toInt = 0 := by decide
  rw [IntervalTimer.update, if_neg]
  rw [BitVec.slt_iff_toInt_lt, hzero]
  omega

end Update

/-! ### The count of milliseconds -/

section Timers
variable {t : Timers} {k : Nat}

@[simp] theorem timerUpdate_elapsedMs : (timerUpdate t).elapsedMs = 0 := by
  rw [timerUpdate]
  split <;> rfl

theorem timerUpdate_itimer (hk : k < timerArraySize) : (timerUpdate t).itimer k =
    if 0 < t.elapsedMs.toInt then (t.itimer k).update t.elapsedMs else t.itimer k := by
  have hzero : (0 : BitVec 32).toInt = 0 := by decide
  have hsle : t.elapsedMs.sle 0 = true ↔ ¬ 0 < t.elapsedMs.toInt := by
    rw [BitVec.sle_iff_toInt_le, hzero, Int.not_lt]
  rw [timerUpdate]
  by_cases h : 0 < t.elapsedMs.toInt
  · rw [if_neg (fun hc => hsle.mp hc h), if_pos h]
    simp only [hk, if_true]
  · rw [if_pos (hsle.mpr h), if_neg h]

@[simp] theorem timerStart_elapsedMs (i : Nat) (n : BitVec 32) :
    (timerStart i n t).elapsedMs = t.elapsedMs := by
  rw [timerStart]
  split <;> rfl

@[simp] theorem timerStop_elapsedMs (i : Nat) : (timerStop i t).elapsedMs = t.elapsedMs := by
  rw [timerStop]
  split <;> rfl

theorem timerStart_self (hk : k < timerArraySize) (n : BitVec 32) :
    (timerStart k n t).itimer k = ⟨n, n, false⟩ := by
  rw [timerStart, if_neg (by omega)]
  exact Function.update_self ..

theorem timerStart_of_ne {i : Nat} (h : k ≠ i) (n : BitVec 32) :
    (timerStart i n t).itimer k = t.itimer k := by
  rw [timerStart]
  split
  · rfl
  · exact Function.update_of_ne h ..

theorem timerStop_of_ne {i : Nat} (h : k ≠ i) : (timerStop i t).itimer k = t.itimer k := by
  rw [timerStop]
  split
  · rfl
  · exact Function.update_of_ne h ..

@[simp] theorem timerExpired_elapsedMs (i : Nat) : (timerExpired i t).1.elapsedMs = 0 := by
  rw [timerExpired]
  simp only
  split
  · exact timerUpdate_elapsedMs
  · split
    · exact timerUpdate_elapsedMs
    · exact timerUpdate_elapsedMs

/-- Asking for one timer updates the others. -/
theorem timerExpired_of_ne {i : Nat} (h : k ≠ i) :
    (timerExpired i t).1.itimer k = (timerUpdate t).itimer k := by
  rw [timerExpired]
  simp only
  split
  · rfl
  · split
    · rfl
    · exact Function.update_of_ne h ..

/-- The timer that is asked for reports its flag, and loses it. -/
theorem timerExpired_self (hk : k < timerArraySize) :
    (timerExpired k t).2 = ((timerUpdate t).itimer k).expire ∧
      (timerExpired k t).1.itimer k = { (timerUpdate t).itimer k with expire := false } := by
  rw [timerExpired]
  simp only [if_neg (Nat.not_le.mpr hk), ge_iff_le]
  cases h : ((timerUpdate t).itimer k).expire with
  | false =>
    refine ⟨rfl, ?_⟩
    simp only [Bool.not_false, if_true]
    rw [← h]
  | true =>
    refine ⟨rfl, ?_⟩
    exact Function.update_self ..

end Timers

/-! ### Runs -/

/-- The calls into `timer.c`. -/
inductive TimerCall where
  | catchAlarm (timeMs : BitVec 32)
  | initTimer
  | timerStart (index : Nat) (intervalMs : BitVec 32)
  | timerStop (index : Nat)
  | timerExpired (index : Nat)

def timerStep (t : Timers) : TimerCall → Timers
  | .catchAlarm timeMs => catchAlarm timeMs t
  | .initTimer => initTimer t
  | .timerStart index intervalMs => timerStart index intervalMs t
  | .timerStop index => timerStop index t
  | .timerExpired index => (timerExpired index t).1

/-- Whether the call reports that timer `k` has expired. -/
def reports (k : Nat) (t : Timers) : TimerCall → Nat
  | .timerExpired index => if index = k && (timerExpired index t).2 then 1 else 0
  | _ => 0

/-- The milliseconds that have passed at the call. -/
def millis (_ : Timers) : TimerCall → Nat
  | .catchAlarm timeMs => timeMs.toNat
  | _ => 0

/-- The milliseconds that the call takes off the count for no timer. -/
def lost (t : Timers) : TimerCall → Nat
  | .initTimer => t.elapsedMs.toNat
  | _ => 0

/-- The call leaves timer `k` to itself, and the count of milliseconds stays an `int`. -/
def Undisturbed (k : Nat) (t : Timers) : TimerCall → Prop
  | .catchAlarm timeMs => t.elapsedMs.toNat + timeMs.toNat < 2 ^ 31
  | .initTimer => True
  | .timerStart index _ => index ≠ k
  | .timerStop index => index ≠ k
  | .timerExpired _ => True

/-- The number of times timer `k` has been reported at the end of a run. -/
def timesReported (k : Nat) (t : Timers) (cs : List TimerCall) : Nat :=
  yield timerStep (reports k) t cs

def timePassed (t : Timers) (cs : List TimerCall) : Nat := yield timerStep millis t cs

def timeLost (t : Timers) (cs : List TimerCall) : Nat := yield timerStep lost t cs

/-- Time that a timer has for its next reports. -/
def IntervalTimer.credit (it : IntervalTimer) : Nat :=
  (if it.expire then it.interval.toNat else 0) + (it.interval.toNat - it.left.toNat)

section Run
variable {k : Nat} {n : BitVec 32}

/-- Timer `k` runs with the interval `n`, and the count is not negative. -/
structure Ticking (k : Nat) (n : BitVec 32) (t : Timers) : Prop where
  running : (t.itimer k).Running
  interval : (t.itimer k).interval = n
  elapsed : t.elapsedMs.toNat < 2 ^ 31

theorem toInt_eq_toNat {x : BitVec 32} (h : 0 ≤ x.toInt) : x.toInt = x.toNat := by
  have hcond := BitVec.toInt_eq_toNat_cond x
  have hlt := x.isLt
  split at hcond <;> omega

theorem Ticking.elapsed_toInt {t : Timers} (h : Ticking k n t) :
    t.elapsedMs.toInt = t.elapsedMs.toNat := by
  have hlt := h.elapsed
  have hcond := BitVec.toInt_eq_toNat_cond t.elapsedMs
  split at hcond <;> omega

/-- What an update does to the timer. -/
theorem Ticking.update_cases {t : Timers} (hk : k < timerArraySize) (h : Ticking k n t) :
    (t.elapsedMs.toNat < (t.itimer k).left.toNat ∧
      ((timerUpdate t).itimer k).expire = (t.itimer k).expire ∧
        ((timerUpdate t).itimer k).left.toNat + t.elapsedMs.toNat = (t.itimer k).left.toNat) ∨
      ((t.itimer k).left.toNat ≤ t.elapsedMs.toNat ∧ ((timerUpdate t).itimer k).expire = true ∧
        ((timerUpdate t).itimer k).left = n) := by
  obtain ⟨hpos, hle⟩ := h.running
  have hleft := toInt_eq_toNat (Int.le_of_lt hpos)
  have helapsed := h.elapsed_toInt
  rw [timerUpdate_itimer hk]
  by_cases he : 0 < t.elapsedMs.toInt
  · rw [if_pos he]
    obtain ⟨hrun, hint, hcase⟩ := h.running.update he
    have hleft' := toInt_eq_toNat (Int.le_of_lt hrun.left_pos)
    rcases hcase with ⟨hlt, hsub, hexp⟩ | ⟨hge, hnew, hexp⟩
    · exact .inl ⟨by omega, hexp, by omega⟩
    · exact .inr ⟨by omega, hexp, hnew.trans h.interval⟩
  · rw [if_neg he]
    exact .inl ⟨by omega, rfl, by omega⟩

theorem Ticking.timerUpdate {t : Timers} (hk : k < timerArraySize) (h : Ticking k n t) :
    Ticking k n (timerUpdate t) := by
  have hrun : ((Ptp.timerUpdate t).itimer k).Running ∧
      ((Ptp.timerUpdate t).itimer k).interval = n := by
    rw [timerUpdate_itimer hk]
    split
    · next he =>
      obtain ⟨hrun, hint, -⟩ := h.running.update he
      exact ⟨hrun, hint.trans h.interval⟩
    · exact ⟨h.running, h.interval⟩
  exact ⟨hrun.1, hrun.2, by simp⟩

/-- The time on the count becomes credit, or less. -/
theorem Ticking.credit_timerUpdate {t : Timers} (hk : k < timerArraySize) (h : Ticking k n t) :
    ((Ptp.timerUpdate t).itimer k).credit ≤ (t.itimer k).credit + t.elapsedMs.toNat := by
  have hle := h.running.left_le
  have hleft := toInt_eq_toNat (Int.le_of_lt h.running.left_pos)
  have hint := toInt_eq_toNat (Int.le_trans (Int.le_of_lt h.running.left_pos) hle)
  have hn := h.interval
  have hn' := (h.timerUpdate hk).interval
  simp only [IntervalTimer.credit, hn, hn'] at *
  rcases h.update_cases hk with ⟨hlt, hexp, hsub⟩ | ⟨hge, hexp, hnew⟩
  · rw [hexp]
    omega
  · rw [hexp, hnew, if_pos rfl]
    split <;> omega

/-- A call keeps the timer running. -/
theorem Ticking.step {t : Timers} {c : TimerCall} (hk : k < timerArraySize) (h : Ticking k n t)
    (hc : Undisturbed k t c) : Ticking k n (timerStep t c) := by
  cases c with
  | catchAlarm timeMs =>
    refine ⟨h.running, h.interval, ?_⟩
    show (t.elapsedMs + timeMs).toNat < 2 ^ 31
    rw [BitVec.toNat_add]
    exact Nat.lt_of_le_of_lt (Nat.mod_le ..) hc
  | initTimer => exact ⟨h.running, h.interval, by simp [timerStep, initTimer]⟩
  | timerStart index intervalMs =>
    have hself : (timerStart index intervalMs t).itimer k = t.itimer k :=
      timerStart_of_ne (Ne.symm hc) _
    exact ⟨hself ▸ h.running, hself ▸ h.interval, by simpa [timerStep] using h.elapsed⟩
  | timerStop index =>
    have hself : (timerStop index t).itimer k = t.itimer k := timerStop_of_ne (Ne.symm hc)
    exact ⟨hself ▸ h.running, hself ▸ h.interval, by simpa [timerStep] using h.elapsed⟩
  | timerExpired index =>
    have hup := h.timerUpdate hk
    by_cases hi : k = index
    · subst hi
      have hself := (timerExpired_self (t := t) hk).2
      refine ⟨?_, ?_, by simp [timerStep]⟩
      · rw [timerStep, hself]
        exact ⟨hup.running.left_pos, hup.running.left_le⟩
      · rw [timerStep, hself]
        exact hup.interval
    · have hself := timerExpired_of_ne (t := t) hi
      exact ⟨hself ▸ hup.running, hself ▸ hup.interval, by simp [timerStep]⟩

/-- What a call takes of the credit is paid for by the time. -/
theorem Ticking.step_credit {t : Timers} {c : TimerCall} (hk : k < timerArraySize)
    (h : Ticking k n t)
    (hc : Undisturbed k t c) :
    n.toNat * reports k t c + lost t c +
        (((timerStep t c).itimer k).credit + (timerStep t c).elapsedMs.toNat) ≤
      (t.itimer k).credit + t.elapsedMs.toNat + millis t c := by
  cases c with
  | catchAlarm timeMs =>
    show n.toNat * 0 + 0 + ((t.itimer k).credit + (t.elapsedMs + timeMs).toNat) ≤ _ + timeMs.toNat
    have hle : (t.elapsedMs + timeMs).toNat ≤ t.elapsedMs.toNat + timeMs.toNat := by
      rw [BitVec.toNat_add]
      exact Nat.mod_le ..
    omega
  | initTimer =>
    show n.toNat * 0 + t.elapsedMs.toNat + ((t.itimer k).credit + 0) ≤ _ + 0
    omega
  | timerStart index intervalMs =>
    have hself : (timerStart index intervalMs t).itimer k = t.itimer k :=
      timerStart_of_ne (Ne.symm hc) _
    simp [timerStep, reports, lost, millis, hself]
  | timerStop index =>
    have hself : (timerStop index t).itimer k = t.itimer k := timerStop_of_ne (Ne.symm hc)
    simp [timerStep, reports, lost, millis, hself]
  | timerExpired index =>
    have hcredit := h.credit_timerUpdate hk
    by_cases hi : k = index
    · subst hi
      obtain ⟨hrep, hself⟩ := timerExpired_self (t := t) hk
      have hint := (h.timerUpdate hk).interval
      have hsplit :
          n.toNat * reports k t (.timerExpired k) + ((timerExpired k t).1.itimer k).credit =
          ((Ptp.timerUpdate t).itimer k).credit := by
        rw [hself, reports, hrep]
        cases hexp : ((Ptp.timerUpdate t).itimer k).expire <;>
          simp [IntervalTimer.credit, hexp, hint]
      have hzero : (0 : BitVec 32).toNat = 0 := rfl
      simp only [timerStep, timerExpired_elapsedMs, lost, millis, hzero]
      omega
    · have hself := timerExpired_of_ne (t := t) hi
      have hne : index ≠ k := Ne.symm hi
      simp only [timerStep, reports, lost, millis, hself, hne, timerExpired_elapsedMs]
      simpa using hcredit

/-- A timer whose time is up by the end of the calls is reported, in one of them or then. -/
theorem Ticking.due {t : Timers} {cs : List TimerCall} (hk : k < timerArraySize) (h : Ticking k n t)
    (hcs : Along timerStep (Undisturbed k) t cs)
    (hdue : (t.itimer k).expire = true ∨
      (t.itimer k).left.toNat + timeLost t cs ≤ t.elapsedMs.toNat + timePassed t cs) :
    0 < timesReported k t (cs ++ [.timerExpired k]) := by
  induction cs generalizing t with
  | nil =>
    have hexp : ((Ptp.timerUpdate t).itimer k).expire = true := by
      rcases h.update_cases hk with ⟨hlt, hexp, -⟩ | ⟨-, hexp, -⟩
      · rw [hexp]
        exact hdue.resolve_right (by simpa [timePassed, timeLost] using hlt)
      · exact hexp
    simp [timesReported, reports, (timerExpired_self (t := t) hk).1, hexp]
  | cons c rest ih =>
    rw [List.cons_append, timesReported, yield_cons]
    rw [timePassed, yield_cons, ← timePassed, timeLost, yield_cons, ← timeLost] at hdue
    rcases Nat.eq_zero_or_pos (reports k t c) with hzero | hpos
    · apply Nat.add_pos_right
      apply ih (h.step hk hcs.1) hcs.2
      cases c with
      | catchAlarm timeMs =>
        have hadd : (t.elapsedMs + timeMs).toNat = t.elapsedMs.toNat + timeMs.toNat := by
          have hlt : t.elapsedMs.toNat + timeMs.toNat < 2 ^ 31 := hcs.1
          rw [BitVec.toNat_add, Nat.mod_eq_of_lt (by omega)]
        rcases hdue with hexp | hle
        · exact .inl hexp
        · right
          show (t.itimer k).left.toNat + _ ≤ (t.elapsedMs + timeMs).toNat + _
          simp only [lost, millis] at hle
          rw [hadd]
          omega
      | initTimer =>
        rcases hdue with hexp | hle
        · exact .inl hexp
        · right
          show (t.itimer k).left.toNat + _ ≤ 0 + _
          simp only [lost, millis] at hle
          omega
      | timerStart index intervalMs =>
        have hself : (timerStart index intervalMs t).itimer k = t.itimer k :=
          timerStart_of_ne (Ne.symm hcs.1) _
        simpa [timerStep, hself, lost, millis] using hdue
      | timerStop index =>
        have hself : (timerStop index t).itimer k = t.itimer k := timerStop_of_ne (Ne.symm hcs.1)
        simpa [timerStep, hself, lost, millis] using hdue
      | timerExpired index =>
        by_cases hi : k = index
        · subst hi
          obtain ⟨hrep, hself⟩ := timerExpired_self (t := t) hk
          rcases h.update_cases hk with ⟨hlt, hexp, hsub⟩ | ⟨-, hexp, -⟩
          · have hnot : (t.itimer k).expire = false := by
              rw [← hexp, ← hrep]
              simpa [reports] using hzero
            rw [hnot] at hdue
            right
            simp only [timerStep, hself, timerExpired_elapsedMs, lost, millis] at hdue ⊢
            simp at hdue ⊢
            omega
          · rw [← hrep] at hexp
            simp [reports, hexp] at hzero
        · have hself := timerExpired_of_ne (t := t) hi
          simp only [timerStep, hself, timerExpired_elapsedMs, lost, millis] at hdue ⊢
          rcases h.update_cases hk with ⟨hlt, hexp, hsub⟩ | ⟨-, hexp, -⟩
          · rw [hexp]
            rcases hdue with hdue | hdue
            · exact .inl hdue
            · right
              simp
              omega
          · exact .inl hexp
    · omega

theorem ticking_timerStart {t : Timers} (hk : k < timerArraySize) (hn : 0 < n.toInt)
    (ht : t.elapsedMs.toNat < 2 ^ 31) : Ticking k n (timerStart k n t) := by
  have hself := timerStart_self (t := t) hk n
  refine ⟨?_, ?_, by simpa using ht⟩
  · rw [hself]
    exact ⟨hn, Int.le_refl _⟩
  · rw [hself]

/-- No run reports a timer more often than its interval goes into the time that was on the count
at the start and has passed since, less what was lost. -/
theorem timesReported_le {t : Timers} {cs : List TimerCall} (hk : k < timerArraySize)
    (hn : 0 < n.toInt)
    (ht : t.elapsedMs.toNat < 2 ^ 31)
    (hcs : Along timerStep (Undisturbed k) (timerStart k n t) cs) :
    n.toNat * timesReported k (timerStart k n t) cs + timeLost (timerStart k n t) cs ≤
      t.elapsedMs.toNat + timePassed (timerStart k n t) cs := by
  have hpay :=
    hcs.yield_add_le (I := Ticking k n) (f := fun t c => n.toNat * reports k t c + lost t c)
    (g := millis) (φ := fun t => (t.itimer k).credit + t.elapsedMs.toNat)
    (fun t c h hc => ⟨h.step hk hc, h.step_credit hk hc⟩) (ticking_timerStart hk hn ht)
  rw [yield_add, yield_mul] at hpay
  have hcredit : ((timerStart k n t).itimer k).credit = 0 := by
    rw [timerStart_self hk]
    simp [IntervalTimer.credit]
  rw [hcredit, timerStart_elapsedMs, Nat.zero_add] at hpay
  exact Nat.le_trans (Nat.le_add_right ..) hpay

/-- By the time it is asked for, a timer has been reported exactly if its interval is no longer than
that time. -/
theorem timesReported_pos_iff {t : Timers} {cs : List TimerCall} (hk : k < timerArraySize)
    (hn : 0 < n.toInt)
    (ht : t.elapsedMs.toNat < 2 ^ 31)
    (hcs : Along timerStep (Undisturbed k) (timerStart k n t) cs) :
    0 < timesReported k (timerStart k n t) (cs ++ [.timerExpired k]) ↔
      n.toNat + timeLost (timerStart k n t) cs ≤
        t.elapsedMs.toNat + timePassed (timerStart k n t) cs := by
  constructor
  · intro hpos
    have hrun : Along timerStep (Undisturbed k) (timerStart k n t) (cs ++ [.timerExpired k]) :=
      (along_append ..).mpr ⟨hcs, trivial, trivial⟩
    have hle := timesReported_le hk hn ht hrun
    have hpassed : timePassed (timerStart k n t) (cs ++ [.timerExpired k]) =
        timePassed (timerStart k n t) cs := by
      rw [timePassed, yield_append]
      rfl
    have hlost : timeLost (timerStart k n t) (cs ++ [.timerExpired k]) =
        timeLost (timerStart k n t) cs := by
      rw [timeLost, yield_append]
      rfl
    rw [hpassed, hlost] at hle
    have hone := Nat.le_mul_of_pos_right n.toNat hpos
    omega
  · intro hle
    apply (ticking_timerStart hk hn ht).due hk hcs
    right
    rw [timerStart_self hk, timerStart_elapsedMs]
    exact hle

/-- A timer that is stopped, and has no report left. -/
structure Resting (k : Nat) (t : Timers) : Prop where
  interval : (t.itimer k).interval.toInt ≤ 0
  expire : (t.itimer k).expire = false

theorem Resting.timerUpdate {t : Timers} (hk : k < timerArraySize) (h : Resting k t) :
    (timerUpdate t).itimer k = t.itimer k := by
  rw [timerUpdate_itimer hk]
  split
  · exact IntervalTimer.update_of_stopped h.interval
  · rfl

/-- Such a timer rests whatever is done with the others, and does not report. -/
theorem Resting.step {t : Timers} {c : TimerCall} (hk : k < timerArraySize) (h : Resting k t)
    (hc : Undisturbed k t c) : Resting k (timerStep t c) ∧ reports k t c = 0 := by
  cases c with
  | catchAlarm timeMs => exact ⟨⟨h.interval, h.expire⟩, rfl⟩
  | initTimer => exact ⟨⟨h.interval, h.expire⟩, rfl⟩
  | timerStart index intervalMs =>
    have hself : (timerStart index intervalMs t).itimer k = t.itimer k :=
      timerStart_of_ne (Ne.symm hc) _
    exact ⟨⟨hself ▸ h.interval, hself ▸ h.expire⟩, rfl⟩
  | timerStop index =>
    have hself : (timerStop index t).itimer k = t.itimer k := timerStop_of_ne (Ne.symm hc)
    exact ⟨⟨hself ▸ h.interval, hself ▸ h.expire⟩, rfl⟩
  | timerExpired index =>
    have hup := h.timerUpdate hk
    by_cases hi : k = index
    · subst hi
      obtain ⟨hrep, hself⟩ := timerExpired_self (t := t) hk
      rw [hup] at hrep hself
      refine ⟨⟨?_, ?_⟩, ?_⟩
      · rw [timerStep, hself]
        exact h.interval
      · rw [timerStep, hself]
      · rw [reports, hrep, h.expire]
        simp
    · have hself := timerExpired_of_ne (t := t) hi
      rw [hup] at hself
      have hne : index ≠ k := Ne.symm hi
      exact ⟨⟨hself ▸ h.interval, hself ▸ h.expire⟩, by simp [reports, hne]⟩

theorem Resting.timesReported {t : Timers} {cs : List TimerCall} (hk : k < timerArraySize)
    (h : Resting k t) (hcs : Along timerStep (Undisturbed k) t cs) : timesReported k t cs = 0 := by
  have hpay :=
    hcs.yield_add_le (I := Resting k) (f := reports k) (g := fun _ _ => 0) (φ := fun _ => 0)
    (fun t c h hc => ⟨(h.step hk hc).1, by rw [(h.step hk hc).2]⟩) h
  rw [yield_zero] at hpay
  exact Nat.le_zero.mp hpay

/-- **When a timer reports**, whatever is done with the others. A timer with an interval reports not
more often than its interval goes into the time since its start, and for the first time as soon as
that time is one interval. The time that was on the count at the start belongs to it, so this may be
early, and what `initTimer` finds there does not. A timer without an interval never reports. -/
theorem timer_account {t : Timers} {cs : List TimerCall} (hk : k < timerArraySize)
    (ht : t.elapsedMs.toNat < 2 ^ 31)
    (hcs : Along timerStep (Undisturbed k) (timerStart k n t) cs) :
    (0 < n.toInt →
      n.toNat * timesReported k (timerStart k n t) cs + timeLost (timerStart k n t) cs ≤
          t.elapsedMs.toNat + timePassed (timerStart k n t) cs ∧
        (0 < timesReported k (timerStart k n t) (cs ++ [.timerExpired k]) ↔
          n.toNat + timeLost (timerStart k n t) cs ≤
            t.elapsedMs.toNat + timePassed (timerStart k n t) cs)) ∧
      (n.toInt ≤ 0 → timesReported k (timerStart k n t) (cs ++ [.timerExpired k]) = 0) := by
  refine ⟨fun hn => ⟨timesReported_le hk hn ht hcs, timesReported_pos_iff hk hn ht hcs⟩,
    fun hn => ?_⟩
  have hrun : Along timerStep (Undisturbed k) (timerStart k n t) (cs ++ [.timerExpired k]) :=
    (along_append ..).mpr ⟨hcs, trivial, trivial⟩
  have hself := timerStart_self (t := t) hk n
  have hrest : Resting k (timerStart k n t) := by
    refine ⟨?_, ?_⟩ <;> rw [hself]
    exact hn
  exact hrest.timesReported hk hrun

end Run

/-- All timers stopped, and four milliseconds on the count. -/
def fourMs : Timers := ⟨fun _ => ⟨0, 0, false⟩, 4⟩

/-- A timer of ten milliseconds that reports after six. -/
theorem timer_account_early :
    0 < timesReported 3 (timerStart 3 10 fourMs)
      ([.catchAlarm 6, .timerExpired 1] ++ [.timerExpired 3]) := by
  have hcs :
      Along timerStep (Undisturbed 3) (timerStart 3 10 fourMs) [.catchAlarm 6, .timerExpired 1] :=
    ⟨(by decide : 4 + 6 < 2 ^ 31), trivial, trivial⟩
  exact ((timer_account (by decide) (by decide) hcs).1 (by decide)).2.mpr (by decide)

end Stm32F4.Ptp
