import Mathlib.Order.Monotone.Basic
import Stm32F4.Lib.Down

/-! `delay_us` waits for SysTick.

SysTick counts down and reloads. The loop reads it again and again and adds up in `tcnt` how far
it has come since the reading before; a reload takes one count more than it adds. So `tcnt` and
the reloads are the time that has passed (`Waiting`), and it is not left before its
time (`delay_waits`). -/
namespace Stm32F4.System
open Lib

/-- The variables of the loop, and whether it has been left. -/
structure Delay where
  told : BitVec 32
  tcnt : BitVec 32
  left : Bool

/-- One pass, with `tnow` in `SysTick->VAL`. -/
def delayPass (reload ticks : BitVec 32) (s : Delay) (tnow : BitVec 32) : Delay :=
  if s.left then s
  else if tnow ≠ s.told then
    let tcnt :=
      if tnow < s.told then s.tcnt + (s.told - tnow) else s.tcnt + (reload - tnow + s.told)
    ⟨tnow, tcnt, decide (tcnt ≥ ticks)⟩
  else s

/-- `delay_us` after so many passes; `val` are the readings, the first one before the loop. -/
def delayUs (nus facUs reload : BitVec 32) (val : Nat → BitVec 32) : Nat → Delay
  | 0 => ⟨val 0, 0, false⟩
  | k + 1 => delayPass reload (nus * facUs) (delayUs nus facUs reload val k) (val (k + 1))

/-- The times of the readings, in counts since the first one: there is less than a period between
one and the next. -/
structure Readings (L : Nat) (time : Nat → Nat) : Prop where
  first : time 0 = 0
  next : ∀ k, time k ≤ time (k + 1) ∧ time (k + 1) ≤ time k + L

/-- What is read at these times. -/
def readings {L : Nat} (c : Down L) (time : Nat → Nat) (k : Nat) : BitVec 32 :=
  BitVec.ofNat 32 (c.after (time k)).val

/-- What is asked of the passes of the loop, for at least `ticks` counts. -/
structure Waits {L : Nat} (c : Down L) (time : Nat → Nat) (ticks : Nat)
    (s : Nat → Delay) : Prop where
  /-- at every pass the counts since the first reading are `tcnt` and the reloads since; these are
  numbers, so `tcnt` has not overflowed -/
  counted : ∀ k, (∀ j, j < k → (s j).left = false) →
    time k + c.reloads = (s k).tcnt.toNat + (c.after (time k)).reloads
  /-- it is not left early -/
  enough : ∀ k, (s k).left = true → ticks ≤ time k
  /-- but at the first reading at which `tcnt` is great enough -/
  exits : 0 < ticks → ∀ k, (s k).left = true ↔ ticks ≤ (s k).tcnt.toNat

/-! ### The loop -/

/-- A pass has been made `t` counts after the first reading. -/
structure Waiting {L : Nat} (c : Down L) (ticks t : Nat) (s : Delay) : Prop where
  told : s.told.toNat = (c.after t).val
  counted : t + c.reloads = s.tcnt.toNat + (c.after t).reloads
  early : s.left = false → s.tcnt.toNat = 0 ∨ s.tcnt.toNat < ticks
  late : s.left = true → ticks ≤ s.tcnt.toNat

section Pass
variable {reload ticks : BitVec 32} {c : Down reload.toNat} {t n : Nat} {s : Delay}
    {tnow : BitVec 32}

/-- What a pass adds to `tcnt`: the counts, but for a reload. -/
theorem Waiting.tcnt_eq (h : Waiting c ticks.toNat t s) (hleft : s.left = false)
    (hfit : ticks.toNat + reload.toNat < 2 ^ 32)
    (hn : n ≤ reload.toNat) (hnow : tnow.toNat = (c.after (t + n)).val) (hne : tnow ≠ s.told) :
    t + n + c.reloads =
      (if tnow < s.told then s.tcnt + (s.told - tnow)
        else s.tcnt + (reload - tnow + s.told)).toNat + (c.after (t + n)).reloads := by
  obtain ⟨htold, hcounted, hearly, -⟩ := h
  replace hearly := hearly hleft
  have hread := (c.after t).reading hn
  have hle := (c.after (t + n)).val_le
  rw [← Down.after_add, ← htold, ← hnow] at hread
  rw [← hnow] at hle
  have hlt := s.told.isLt
  rcases hread with ⟨hdown, hcount, hreloads⟩ | ⟨hup, hcount, hreloads⟩ | ⟨hsame, -, -⟩
  · rw [if_pos (BitVec.lt_def.mpr hdown), BitVec.toNat_add, BitVec.toNat_sub]
    omega
  · rw [if_neg (fun hlt => absurd (BitVec.lt_def.mp hlt) (by omega)), BitVec.toNat_add,
      BitVec.toNat_add, BitVec.toNat_sub]
    omega
  · exact absurd (BitVec.eq_of_toNat_eq hsame) hne

/-- The next pass, `n` counts later. -/
theorem Waiting.pass (h : Waiting c ticks.toNat t s) (hleft : s.left = false)
    (hfit : ticks.toNat + reload.toNat < 2 ^ 32) (hn : n ≤ reload.toNat)
    (hnow : tnow.toNat = (c.after (t + n)).val) :
    Waiting c ticks.toNat (t + n) (delayPass reload ticks s tnow) := by
  rw [delayPass, hleft]
  simp only [Bool.false_eq_true, if_false]
  by_cases hne : tnow ≠ s.told
  · rw [if_pos hne]
    refine ⟨hnow, h.tcnt_eq hleft hfit hn hnow hne, fun hearly => .inr ?_, fun hlate => ?_⟩
    · exact Nat.lt_of_not_le (fun hle => absurd (BitVec.le_def.mpr hle) (of_decide_eq_false hearly))
    · exact BitVec.le_def.mp (of_decide_eq_true hlate)
  · -- nothing has been counted
    rw [if_neg hne]
    have hread := (c.after t).reading hn
    rw [← Down.after_add, ← h.told, ← hnow, not_ne_iff.mp hne] at hread
    have hcounted := h.counted
    have htold := h.told
    rcases hread with ⟨hdown, -, -⟩ | ⟨hup, -, -⟩ | ⟨-, hzero, hreloads⟩
    · exact absurd hdown (Nat.lt_irrefl _)
    · exact absurd hup (Nat.lt_irrefl _)
    · subst hzero
      exact ⟨htold, hcounted, h.early, h.late⟩

/-- The counts are at least `tcnt`. -/
theorem Waiting.tcnt_le {ticks : Nat} (h : Waiting c ticks t s) : s.tcnt.toNat ≤ t := by
  have hcounted := h.counted
  have hle := c.le_reloads t
  omega

end Pass

/-- What is read is what the counter shows. -/
theorem toNat_readings {reload : BitVec 32} (c : Down reload.toNat) (time : Nat → Nat) (k : Nat) :
    (readings c time k).toNat = (c.after (time k)).val := by
  have hle := (c.after (time k)).val_le
  have hlt := reload.isLt
  rw [readings, BitVec.toNat_ofNat, Nat.mod_eq_of_lt (by omega)]

section Run
variable {nus facUs reload : BitVec 32} {c : Down reload.toNat} {time : Nat → Nat}

/-- The state is that of the last pass that has been made. -/
theorem delayUs_spec (hfit : nus.toNat * facUs.toNat + reload.toNat < 2 ^ 32)
    (htime : Readings reload.toNat time) (k : Nat) :
    ∃ j, j ≤ k ∧ delayUs nus facUs reload (readings c time) k =
      delayUs nus facUs reload (readings c time) j ∧
      Waiting c (nus.toNat * facUs.toNat) (time j) (delayUs nus facUs reload (readings c time) j) ∧
      ((delayUs nus facUs reload (readings c time) k).left = false → j = k) := by
  have hticks : (nus * facUs).toNat = nus.toNat * facUs.toNat := by
    rw [BitVec.toNat_mul, Nat.mod_eq_of_lt (by omega)]
  induction k with
  | zero =>
    refine ⟨0, Nat.le_refl 0, rfl,
      ⟨toNat_readings c time 0, ?_, fun _ => .inl rfl, fun hlate => by cases hlate⟩,
      fun _ => rfl⟩
    rw [htime.first, Down.after_zero]
    rfl
  | succ k ih =>
    obtain ⟨j, hj, heq, hw, hlast⟩ := ih
    cases hleft : (delayUs nus facUs reload (readings c time) k).left with
    | true =>
      -- the loop has been left before
      have hstay : delayUs nus facUs reload (readings c time) (k + 1) =
          delayUs nus facUs reload (readings c time) k := by
        rw [delayUs, delayPass, hleft, if_pos rfl]
      refine ⟨j, Nat.le_succ_of_le hj, hstay.trans heq, hw, fun hfalse => ?_⟩
      rw [hstay, hleft] at hfalse
      cases hfalse
    | false =>
      obtain rfl := hlast hleft
      obtain ⟨hle, hnext⟩ := htime.next j
      obtain ⟨n, hn⟩ := Nat.exists_eq_add_of_le hle
      have hnow := toNat_readings c time (j + 1)
      rw [hn] at hnow hnext
      rw [← hticks] at hw hfit
      have hpass := hw.pass hleft hfit (Nat.le_of_add_le_add_left hnext) hnow
      rw [hticks, ← hn] at hpass
      exact ⟨j + 1, Nat.le_refl _, rfl, hpass, fun _ => rfl⟩

/-- **`delay_us` does not return early**, whenever SysTick is read, as long as no reload goes
unseen. -/
theorem delay_waits (c : Down reload.toNat) (hfit : nus.toNat * facUs.toNat + reload.toNat < 2 ^ 32)
    (htime : Readings reload.toNat time) :
    Waits c time (nus.toNat * facUs.toNat) (delayUs nus facUs reload (readings c time)) := by
  have hmono : Monotone time := monotone_nat_of_le_succ fun k => (htime.next k).1
  refine ⟨fun k hbefore => ?_, fun k hleft => ?_, fun hpos k => ?_⟩
  · obtain ⟨j, hj, heq, hw, hlast⟩ := delayUs_spec hfit htime k
    rcases Nat.lt_or_eq_of_le hj with hlt | rfl
    · -- before the last pass the loop had not been left
      have hfalse := hbefore j hlt
      rw [← heq] at hfalse
      exact absurd (hlast hfalse) (Nat.ne_of_lt hlt)
    · exact hw.counted
  · obtain ⟨j, hj, heq, hw, -⟩ := delayUs_spec hfit htime k
    rw [heq] at hleft
    exact Nat.le_trans (hw.late hleft) (Nat.le_trans hw.tcnt_le (hmono hj))
  · obtain ⟨j, hj, heq, hw, -⟩ := delayUs_spec hfit htime k
    rw [heq]
    refine ⟨hw.late, fun hge => ?_⟩
    cases hleft : (delayUs nus facUs reload (readings c time) j).left with
    | true => rfl
    | false =>
      have hearly := hw.early hleft
      omega

end Run

/-- One microsecond at 168 MHz, read every hundred counts. -/
theorem delay_waits_one :
    Waits (⟨50, 0, by decide⟩ : Down (0xffff : BitVec 32).toNat) (fun k => 100 * k)
      ((1 : BitVec 32).toNat * (168 : BitVec 32).toNat)
      (delayUs 1 168 0xffff
        (readings (⟨50, 0, by decide⟩ : Down (0xffff : BitVec 32).toNat) fun k => 100 * k)) :=
  delay_waits _ (by decide) ⟨rfl, fun k => by
    show 100 * k ≤ 100 * (k + 1) ∧ 100 * (k + 1) ≤ 100 * k + 65535
    omega⟩

end Stm32F4.System
