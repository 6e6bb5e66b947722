import Mathlib.Algebra.Order.Ring.Int
import Stm32F4.Hal.Tim
import Stm32F4.Lib.Run

/-! Measuring time with TIM7.

`Start_Tick` starts TIM7 and `Stop_Tick` tells the microseconds since: 1000 for each
update that has been served, and what the counter shows. An update is 1001 counts after the last
one, so one count is lost with each. The counter starts where it was left, for `TIM_Base_Start`
sets that of TIM6 to zero in its place; and an update flag that was still up is served as if a
period had passed. What is kept while the timer runs is that the counts make up the updates,
served or not, and the counter (`Measuring`); so it is known when the result is right
(`measures_iff`). -/
namespace Stm32F4.Timer
open Hal Lib

/-! ### The program -/

structure World extends Timers where
  tickTimeUs : BitVec 32
  lwipLocaltime : BitVec 32
  uwTick : BitVec 32

def halTimBaseMspInit (h : TimId) (s : Timers) : Timers :=
  match (s.handle h).inst with
  | none => s
  | some i => { s with nvic := Function.update s.nvic i true }

/-- The handles `TIM_Init` knows. With any other number it uses a pointer it has not set. -/
def handlerOf : Nat → Option TimId
  | 3 => some .tim3
  | 6 => some .tim6
  | 7 => some .tim7
  | _ => none

def timInit (num : Nat) (arr psc : BitVec 16) (w : World) : Option World :=
  (handlerOf num).map fun h =>
    let s :=
      w.toTimers.setHandle h { w.handle h with inst := some h, prescaler := psc, period := arr }
    { w with toTimers := halTimBaseInit halTimBaseMspInit h s }

def World.clearCnt (w : World) (i : TimId) : World :=
  { w with toTimers := w.toTimers.setReg i (w.reg i).clearCnt }

def World.startIt (w : World) (h : TimId) : World :=
  { w with toTimers := halTimBaseStartIt h w.toTimers }

def World.stopIt (w : World) (h : TimId) : World :=
  { w with toTimers := halTimBaseStopIt h w.toTimers }

def timBaseStart (num : Nat) (w : World) : World :=
  match num with
  | 3 => (w.clearCnt .tim3).startIt .tim3
  | 6 => (w.clearCnt .tim6).startIt .tim6
  | 7 => (w.clearCnt .tim6).startIt .tim7
  | _ => w

def timBaseStop (num : Nat) (w : World) : World :=
  match num with
  | 3 => w.stopIt .tim3
  | 6 => w.stopIt .tim6
  | 7 => w.stopIt .tim7
  | _ => w

def startTick (w : World) : World :=
  if (w.handle .tim7).inst ≠ some .tim7 then w else timBaseStart 7 { w with tickTimeUs := 0 }

def stopTick (w : World) : World × BitVec 32 :=
  if (w.handle .tim7).inst ≠ some .tim7 then (w, 0)
  else
    let w := timBaseStop 7 w
    (w, w.tickTimeUs + BitVec.ofNat 32 (w.reg .tim7).cnt)

/-- `HAL_TIM_PeriodElapsedCallback` -/
def periodElapsedCallback (h : TimId) (w : World) : World :=
  match (w.handle h).inst with
  | some .tim6 => { w with uwTick := w.uwTick + 1, lwipLocaltime := w.lwipLocaltime + 1 }
  | some .tim7 => { w with tickTimeUs := w.tickTimeUs + 1000 }
  | _ => w

/-- The interrupt of the timer whose handle `h` is. -/
def irqHandler (h : TimId) (w : World) : World :=
  let r := halTimIrqHandler h w.toTimers
  let w := { w with toTimers := r.1 }
  if r.2 then periodElapsedCallback h w else w

inductive Event where
  /-- a prescaled clock of the timer -/
  | count (i : TimId)
  /-- its interrupt, if it is due -/
  | irq (i : TimId)
deriving DecidableEq

def step (w : World) : Event → World
  | .count i => { w with toTimers := w.toTimers.count i }
  | .irq i => if w.toTimers.Due i then irqHandler i w else w

/-! ### What is asked -/

/-- The timers are as `TIM_Init(7, 1000, 84)` has set them up, whatever has been counted since. -/
structure Ready (w : World) : Prop where
  started : (w.handle .tim7).inst = some .tim7
  own : ∀ h i, (w.handle h).inst = some i → i = h
  period : (w.reg .tim7).arr = 1000

/-- Every update of TIM7 is served before the next one, and before the end. -/
structure Served (w : World) (es : List Event) : Prop where
  seen : Along step (fun w e => e = .count .tim7 → ¬ (w.reg .tim7).Overruns) w es
  done : ((es.foldl step w).reg .tim7).uif = false

/-- The counts of TIM7. -/
def counts (es : List Event) : Nat := es.count (.count .tim7)

/-- The counts between `Start_Tick` and `Stop_Tick` are what the one returns, and the other does
not touch TIM6. -/
structure Measures (w : World) (es : List Event) : Prop where
  result : (stopTick (es.foldl step (startTick w))).2 = BitVec.ofNat 32 (counts es)
  tim6 : (startTick w).reg .tim6 = w.reg .tim6

/-! ### What a step does to the measurement -/

section Step
variable {w : World} {h i : TimId}

theorem callback_toTimers (h : TimId) (w : World) :
    (periodElapsedCallback h w).toTimers = w.toTimers := by
  rw [periodElapsedCallback]
  split <;> rfl

theorem callback_tim7 (hi : (w.handle h).inst = some .tim7) :
    (periodElapsedCallback h w).tickTimeUs = w.tickTimeUs + 1000 := by
  rw [periodElapsedCallback, hi]

theorem callback_other (hi : (w.handle h).inst ≠ some .tim7) :
    (periodElapsedCallback h w).tickTimeUs = w.tickTimeUs := by
  rw [periodElapsedCallback]
  split
  · rfl
  · next h7 => exact absurd h7 hi
  · rfl

theorem irqHandler_toTimers (h : TimId) (w : World) :
    (irqHandler h w).toTimers = (halTimIrqHandler h w.toTimers).1 := by
  rw [irqHandler]
  simp only
  split
  · exact callback_toTimers h _
  · rfl

/-- The interrupt of another timer counts no period. -/
theorem irqHandler_other (hi : (w.handle h).inst ≠ some .tim7) :
    (irqHandler h w).tickTimeUs = w.tickTimeUs := by
  rw [irqHandler]
  simp only
  split
  · refine callback_other ?_
    rw [halTimIrqHandler_handle]
    exact hi
  · rfl

theorem irqHandler_tim7 (hi : (w.handle .tim7).inst = some .tim7) (hdue : w.toTimers.Due .tim7) :
    (irqHandler .tim7 w).tickTimeUs = w.tickTimeUs + 1000 := by
  rw [irqHandler, halTimIrqHandler_of_due hi hdue]
  exact callback_tim7 hi

/-- What an event can do to TIM7 and its microseconds. -/
theorem step_cases (hw : Ready w) (e : Event) :
    (step w e).handle = w.handle ∧
      (e = .count .tim7 ∧ (step w e).reg .tim7 = (w.reg .tim7).count ∧
        (step w e).tickTimeUs = w.tickTimeUs ∨
        e ≠ .count .tim7 ∧ (w.reg .tim7).uif = true ∧
          (step w e).reg .tim7 = (w.reg .tim7).clearUif ∧
          (step w e).tickTimeUs = w.tickTimeUs + 1000 ∨
        e ≠ .count .tim7 ∧ (step w e).reg .tim7 = w.reg .tim7 ∧
          (step w e).tickTimeUs = w.tickTimeUs) := by
  cases e with
  | count i =>
    refine ⟨rfl, ?_⟩
    by_cases hi : i = .tim7
    · subst hi
      exact .inl ⟨rfl, w.toTimers.setReg_self _ _, rfl⟩
    · refine .inr (.inr ⟨fun heq => hi (Event.count.inj heq), ?_, rfl⟩)
      exact w.toTimers.setReg_of_ne _ (Ne.symm hi)
  | irq i =>
    have hne : Event.irq i ≠ .count .tim7 := fun heq => by cases heq
    rw [step]
    by_cases hdue : w.toTimers.Due i
    · rw [if_pos hdue, irqHandler_toTimers]
      refine ⟨halTimIrqHandler_handle i _, ?_⟩
      by_cases hi : i = .tim7
      · subst hi
        refine .inr (.inl ⟨hne, hdue.1, ?_, irqHandler_tim7 hw.started hdue⟩)
        rw [halTimIrqHandler_of_due hw.started hdue]
        exact w.toTimers.setReg_self _ _
      · have hinst : (w.handle i).inst ≠ some .tim7 := fun heq => hi (hw.own i _ heq).symm
        exact .inr (.inr ⟨hne, halTimIrqHandler_of_ne hinst, irqHandler_other hinst⟩)
    · rw [if_neg hdue]
      exact ⟨rfl, .inr (.inr ⟨hne, rfl, rfl⟩)⟩

end Step

/-- `TIM_Init(7, 1000, 84)` makes it so. -/
theorem ready_of_init {w w' : World} (hown : ∀ h i, (w.handle h).inst = some i → i = h)
    (hinit : timInit 7 1000 84 w = some w') : Ready w' := by
  have hmsp : ∀ h s, (halTimBaseMspInit h s).handle = s.handle ∧
      (halTimBaseMspInit h s).reg = s.reg := by
    intro h s
    rw [halTimBaseMspInit]
    split <;> exact ⟨rfl, rfl⟩
  obtain rfl := Option.some.inj hinit
  have hinst : ((w.toTimers.setHandle .tim7 { w.handle .tim7 with
      inst := some .tim7, prescaler := 84, period := 1000 }).handle .tim7).inst = some .tim7 := by
    rw [Timers.setHandle_self]
  obtain ⟨hhandle, hreg⟩ := halTimBaseInit_spec hmsp hinst
  refine ⟨(hhandle .tim7).trans hinst, fun h i hi => ?_, ?_⟩
  · rw [hhandle h] at hi
    by_cases hh : h = .tim7
    · subst hh
      rw [hinst] at hi
      exact (Option.some.inj hi).symm
    · rw [Timers.setHandle_of_ne _ _ hh] at hi
      exact hown h i hi
  · rw [hreg, Function.update_self, timBaseSetConfig, Timers.setHandle_self]
    rfl

/-! ### The measurement -/

/-- `n` counts after `Start_Tick`, where the counter was `c` and `p` updates were still up: they
make up the updates, of which `k` have been served, and the counter. -/
structure Measuring (c p n : Nat) (w : World) : Prop where
  ready : Ready w
  cen : (w.reg .tim7).cen = true
  counted : ∃ k, w.tickTimeUs = BitVec.ofNat 32 (1000 * k) ∧
    1001 * (k + (w.reg .tim7).uif.toNat) + (w.reg .tim7).cnt = c + n + 1001 * p

theorem Ready.of_eq {w w' : World} (hw : Ready w) (hhandle : w'.handle = w.handle)
    (harr : (w'.reg .tim7).arr = (w.reg .tim7).arr) : Ready w' := by
  refine ⟨?_, fun h i => ?_, harr.trans hw.period⟩
  · rw [hhandle]
    exact hw.started
  · rw [hhandle]
    exact hw.own h i

theorem Measuring.step {c p n : Nat} {w : World} {e : Event} (hw : Measuring c p n w)
    (hok : e = .count .tim7 → ¬ (w.reg .tim7).Overruns) :
    Measuring c p (n + if e = .count .tim7 then 1 else 0) (step w e) := by
  obtain ⟨k, htick, hcount⟩ := hw.counted
  obtain ⟨hhandle, hcases⟩ := step_cases hw.ready e
  rcases hcases with ⟨he, hreg, htick'⟩ | ⟨he, huif, hreg, htick'⟩ | ⟨he, hreg, htick'⟩
  · -- a count, and no update that is lost
    obtain ⟨harr, hcen, hspec⟩ := Tim.count_spec hw.cen (hok he)
    rw [hw.ready.period] at hspec
    rw [if_pos he]
    refine ⟨hw.ready.of_eq hhandle (by rw [hreg, harr]), by rw [hreg, hcen], k,
      htick'.trans htick, ?_⟩
    rw [hreg]
    omega
  · -- an update is served
    rw [if_neg he]
    refine ⟨hw.ready.of_eq hhandle (by rw [hreg]; rfl), by rw [hreg]; exact hw.cen, k + 1, ?_, ?_⟩
    · rw [htick', htick, Nat.mul_succ, BitVec.ofNat_add]
      rfl
    · rw [huif] at hcount
      rw [hreg]
      show 1001 * (k + 1 + 0) + (w.reg .tim7).cnt = _
      exact hcount
  · rw [if_neg he]
    refine ⟨hw.ready.of_eq hhandle (by rw [hreg]), by rw [hreg]; exact hw.cen, k,
      htick'.trans htick, ?_⟩
    rw [hreg]
    exact hcount

/-- The events of a run. -/
theorem measuring_run {c p n : Nat} {w : World} (hw : Measuring c p n w) (es : List Event)
    (hok : Along step (fun w e => e = .count .tim7 → ¬ (w.reg .tim7).Overruns) w es) :
    Measuring c p (n + counts es) (es.foldl step w) := by
  induction es generalizing n w with
  | nil => exact hw
  | cons e es ih =>
    obtain ⟨he, hes⟩ := hok
    have hrest := ih (hw.step he) hes
    rw [Nat.add_assoc] at hrest
    rw [counts, List.count_cons, Nat.add_comm (es.count _)]
    simp only [beq_iff_eq]
    exact hrest

/-- `Start_Tick` sets the microseconds to zero, and the counter of TIM6; TIM7 starts where it is. -/
theorem startTick_eq {w : World} (hw : Ready w) :
    (startTick w).handle = w.handle ∧ (startTick w).tickTimeUs = 0 ∧
      (startTick w).reg .tim6 = (w.reg .tim6).clearCnt ∧
      (startTick w).reg .tim7 = (w.reg .tim7).enable := by
  have hstart : startTick w = (World.clearCnt { w with tickTimeUs := 0 } .tim6).startIt .tim7 :=
    if_neg fun hne => hne hw.started
  have htimers :
      (startTick w).toTimers = (w.toTimers.setReg .tim6 (w.reg .tim6).clearCnt).setReg .tim7
      (w.reg .tim7).enable := by
    rw [hstart]
    exact halTimBaseStartIt_eq hw.started
  refine ⟨?_, ?_, ?_, ?_⟩
  · rw [htimers]
    rfl
  · rw [hstart]
    rfl
  · rw [htimers, Timers.setReg_of_ne _ _ (by decide), Timers.setReg_self]
  · rw [htimers, Timers.setReg_self]

theorem measuring_start {w : World} (hw : Ready w) :
    Measuring (w.reg .tim7).cnt (w.reg .tim7).uif.toNat 0 (startTick w) := by
  obtain ⟨hhandle, htick, -, hreg⟩ := startTick_eq hw
  refine ⟨hw.of_eq hhandle (by rw [hreg]; rfl), by rw [hreg]; rfl, 0, htick, ?_⟩
  rw [hreg]
  show 1001 * (0 + (w.reg .tim7).uif.toNat) + (w.reg .tim7).cnt = _
  omega

/-- `Stop_Tick` stops TIM7 and reads it. -/
theorem stopTick_eq {w : World} (hw : Ready w) :
    (stopTick w).2 = w.tickTimeUs + BitVec.ofNat 32 (w.reg .tim7).cnt := by
  have hstop : stopTick w = (w.stopIt .tim7, (w.stopIt .tim7).tickTimeUs +
      BitVec.ofNat 32 ((w.stopIt .tim7).reg .tim7).cnt) := if_neg fun hne => hne hw.started
  have htimers : (w.stopIt .tim7).toTimers = w.toTimers.setReg .tim7 (w.reg .tim7).disable :=
    halTimBaseStopIt_eq hw.started
  rw [hstop]
  show w.tickTimeUs + BitVec.ofNat 32 ((w.stopIt .tim7).toTimers.reg .tim7).cnt = _
  rw [htimers, Timers.setReg_self]
  rfl

/-- The result is right if the updates the counter has had since it was zero make up for where it
started, and for the update that was still up. -/
theorem result_iff {w : World} (hw : Ready w) {es : List Event} (hs : Served (startTick w) es) :
    (stopTick (es.foldl step (startTick w))).2 = BitVec.ofNat 32 (counts es) ↔
      (((w.reg .tim7).cnt + counts es) / 1001) % 2 ^ 32 =
        ((w.reg .tim7).cnt + 1000 * (w.reg .tim7).uif.toNat) % 2 ^ 32 := by
  have hrun := measuring_run (measuring_start hw) es hs.seen
  obtain ⟨k, htick, hcount⟩ := hrun.counted
  have hle := ((es.foldl step (startTick w)).reg .tim7).cnt_le
  rw [hrun.ready.period] at hle
  rw [hs.done] at hcount
  rw [stopTick_eq hrun.ready, htick, ← BitVec.ofNat_add, ← BitVec.toNat_inj, BitVec.toNat_ofNat,
    BitVec.toNat_ofNat]
  simp only [Bool.toNat_false] at hcount
  omega

/-- **The time measured is the time elapsed** exactly if TIM6 stands at zero and the updates since
TIM7 was at zero make up for its start. -/
theorem measures_iff {w : World} (hw : Ready w) {es : List Event} (hs : Served (startTick w) es) :
    Measures w es ↔ (w.reg .tim6).cnt = 0 ∧
      (((w.reg .tim7).cnt + counts es) / 1001) % 2 ^ 32 =
        ((w.reg .tim7).cnt + 1000 * (w.reg .tim7).uif.toNat) % 2 ^ 32 := by
  rw [← result_iff hw hs, ← Tim.clearCnt_eq_self_iff, ← (startTick_eq hw).2.2.1]
  exact ⟨fun h => ⟨h.tim6, h.result⟩, fun h => ⟨h.2, h.1⟩⟩

/-- A timer after reset. -/
def resetTim : Tim := ⟨0, 0xffff, 0, false, false, false, Nat.zero_le _⟩

def resetWorld : World where
  reg _ := resetTim
  handle _ := ⟨none, 0, 0, .reset⟩
  nvic _ := false
  tickTimeUs := 0
  lwipLocaltime := 0
  uwTick := 0

/-- What `main` does with the timers. -/
def mainInit : Option World := do
  let w ← timInit 6 1000 84 resetWorld
  let w ← timInit 7 1000 84 w
  return timBaseStart 6 w

/-- After that, once TIM6 has counted. -/
def mainWorld : World := step (mainInit.getD resetWorld) (.count .tim6)

theorem mainWorld_ready : Ready mainWorld := by
  have hown :
      ∀ h i, (((timInit 6 1000 84 resetWorld).getD resetWorld).handle h).inst = some i → i = h := by
    intro h i
    cases h <;> cases i <;> decide
  exact (ready_of_init hown rfl).of_eq rfl rfl

theorem measures_iff_main : Measures mainWorld [.irq .tim7, .count .tim7] ↔
    (mainWorld.reg .tim6).cnt = 0 ∧
      (((mainWorld.reg .tim7).cnt + 1) / 1001) % 2 ^ 32 =
        ((mainWorld.reg .tim7).cnt + 1000 * (mainWorld.reg .tim7).uif.toNat) % 2 ^ 32 :=
  measures_iff mainWorld_ready ⟨by decide, by decide⟩

/-- One count after `Start_Tick` the time is 1001, and TIM6 has been set back. -/
theorem tick_wrong : Ready mainWorld ∧ Served (startTick mainWorld) [.irq .tim7, .count .tim7] ∧
    ¬ Measures mainWorld [.irq .tim7, .count .tim7] := by
  refine ⟨mainWorld_ready, ⟨by decide, by decide⟩, fun h => ?_⟩
  exact absurd h.result (by decide)

end Stm32F4.Timer
