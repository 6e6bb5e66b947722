import Mathlib.Logic.Function.Basic

/-! The timers, and the HAL calls for their time base.

A timer counts prescaled clocks from 0 to its period and starts over; that is an update, which
raises a flag and, if enabled, an interrupt. The flag is cleared by the
program. Initialising a timer updates it as well. Left out: compare channels and the other
interrupt flags, which the program uses none of, and the clock division, which does not matter to
the counter. -/
namespace Stm32F4.Hal

inductive TimId where
  | tim3 | tim6 | tim7
deriving DecidableEq, Repr

/-- The registers of a timer. -/
structure Tim where
  cnt : Nat
  arr : Nat
  psc : Nat
  /-- `SR.UIF` -/
  uif : Bool
  /-- `DIER.UIE` -/
  uie : Bool
  /-- `CR1.CEN` -/
  cen : Bool
  /-- it counts up to the period -/
  cnt_le : cnt ≤ arr

inductive HalTimState where
  | reset | busy | ready
deriving DecidableEq, Repr

/-- `TIM_HandleTypeDef` -/
structure TimHandle where
  /-- `none` is `NULL` -/
  inst : Option TimId
  prescaler : BitVec 16
  period : BitVec 16
  state : HalTimState

/-- The timers, the handles the program has for them, and the interrupts enabled in the NVIC. -/
structure Timers where
  reg : TimId → Tim
  handle : TimId → TimHandle
  nvic : TimId → Bool

/-! ### A timer -/

namespace Tim

/-- One prescaled clock. -/
def count (t : Tim) : Tim :=
  if !t.cen then t
  else if h : t.cnt = t.arr then { t with cnt := 0, uif := true, cnt_le := Nat.zero_le _ }
  else { t with cnt := t.cnt + 1, cnt_le := Nat.lt_of_le_of_ne t.cnt_le h }

/-- The update is one that the program will not see, for it has not seen the last one yet. -/
def Overruns (t : Tim) : Prop := t.cen = true ∧ t.cnt = t.arr ∧ t.uif = true

instance (t : Tim) : Decidable t.Overruns := inferInstanceAs (Decidable (_ ∧ _ ∧ _))

/-- A count that loses no update shows in the counter and the flag. -/
theorem count_spec {t : Tim} (hcen : t.cen = true) (hok : ¬ t.Overruns) :
    t.count.arr = t.arr ∧ t.count.cen = true ∧
      (t.arr + 1) * t.count.uif.toNat + t.count.cnt = (t.arr + 1) * t.uif.toNat + t.cnt + 1 := by
  rw [count, hcen]
  simp only [Bool.not_true, Bool.false_eq_true, if_false]
  split
  · next h =>
    have huif : t.uif = false := by
      cases huif : t.uif with
      | false => rfl
      | true => exact absurd ⟨hcen, h, huif⟩ hok
    refine ⟨rfl, rfl, ?_⟩
    simp only [huif, Bool.toNat_true, Bool.toNat_false]
    omega
  · exact ⟨rfl, rfl, rfl⟩

/-- `__HAL_TIM_CLEAR_IT` -/
def clearUif (t : Tim) : Tim := { t with uif := false }

/-- `__HAL_TIM_ENABLE_IT` and `__HAL_TIM_ENABLE` -/
def enable (t : Tim) : Tim := { t with uie := true, cen := true }

/-- `__HAL_TIM_DISABLE_IT` and `__HAL_TIM_DISABLE` -/
def disable (t : Tim) : Tim := { t with uie := false, cen := false }

/-- `CNT = 0` -/
def clearCnt (t : Tim) : Tim := { t with cnt := 0, cnt_le := Nat.zero_le _ }

theorem clearCnt_eq_self_iff {t : Tim} : t.clearCnt = t ↔ t.cnt = 0 := by
  constructor
  · intro h
    exact (congrArg Tim.cnt h).symm
  · intro h
    cases t
    cases h
    rfl

end Tim

namespace Timers

def setReg (s : Timers) (i : TimId) (t : Tim) : Timers :=
  { s with reg := Function.update s.reg i t }

def setHandle (s : Timers) (h : TimId) (t : TimHandle) : Timers :=
  { s with handle := Function.update s.handle h t }

@[simp] theorem setReg_self (s : Timers) (i : TimId) (t : Tim) : (s.setReg i t).reg i = t :=
  Function.update_self ..

theorem setReg_of_ne (s : Timers) {i j : TimId} (t : Tim) (h : j ≠ i) :
    (s.setReg i t).reg j = s.reg j :=
  Function.update_of_ne h ..

@[simp] theorem setReg_handle (s : Timers) (i : TimId) (t : Tim) :
    (s.setReg i t).handle = s.handle := rfl

@[simp] theorem setHandle_reg (s : Timers) (h : TimId) (t : TimHandle) :
    (s.setHandle h t).reg = s.reg := rfl

@[simp] theorem setHandle_self (s : Timers) (h : TimId) (t : TimHandle) :
    (s.setHandle h t).handle h = t :=
  Function.update_self ..

theorem setHandle_of_ne (s : Timers) {h j : TimId} (t : TimHandle) (hj : j ≠ h) :
    (s.setHandle h t).handle j = s.handle j := Function.update_of_ne hj ..

/-- A timer counts. -/
def count (s : Timers) (i : TimId) : Timers := s.setReg i (s.reg i).count

/-- Its interrupt is due. -/
def Due (s : Timers) (i : TimId) : Prop :=
  (s.reg i).uif = true ∧ (s.reg i).uie = true ∧ s.nvic i = true

instance (s : Timers) (i : TimId) : Decidable (s.Due i) := inferInstanceAs (Decidable (_ ∧ _ ∧ _))

end Timers

/-! ### The calls -/

/-- The register writes of `TIM_Base_SetConfig`; the last one, `EGR = TIM_EGR_UG`, is an update. -/
def timBaseSetConfig (t : Tim) (h : TimHandle) : Tim :=
  { t with
    arr := h.period.toNat, psc := h.prescaler.toNat, cnt := 0, uif := true
    cnt_le := Nat.zero_le _ }

/-- `msp` is `HAL_TIM_Base_MspInit`. -/
def halTimBaseInit (msp : TimId → Timers → Timers) (h : TimId) (s : Timers) : Timers :=
  let s := if (s.handle h).state = .reset then msp h s else s
  let s := s.setHandle h { s.handle h with state := .busy }
  let s := match (s.handle h).inst with
    | none => s
    | some i => s.setReg i (timBaseSetConfig (s.reg i) (s.handle h))
  s.setHandle h { s.handle h with state := .ready }

def halTimBaseStartIt (h : TimId) (s : Timers) : Timers :=
  match (s.handle h).inst with
  | none => s
  | some i => s.setReg i (s.reg i).enable

def halTimBaseStopIt (h : TimId) (s : Timers) : Timers :=
  match (s.handle h).inst with
  | none => s
  | some i => s.setReg i (s.reg i).disable

/-- The update event of `HAL_TIM_IRQHandler`: the flag is cleared, and the second result is
whether `HAL_TIM_PeriodElapsedCallback` is called. -/
def halTimIrqHandler (h : TimId) (s : Timers) : Timers × Bool :=
  match (s.handle h).inst with
  | none => (s, false)
  | some i =>
    if (s.reg i).uif && (s.reg i).uie then (s.setReg i (s.reg i).clearUif, true) else (s, false)

/-- The timer of the handle is set up, whatever it has been before; the handles keep their
timers. -/
theorem halTimBaseInit_spec {msp : TimId → Timers → Timers}
    (hmsp : ∀ h s, (msp h s).handle = s.handle ∧ (msp h s).reg = s.reg) {h i : TimId} {s : Timers}
    (hi : (s.handle h).inst = some i) :
    (∀ j, ((halTimBaseInit msp h s).handle j).inst = (s.handle j).inst) ∧
      (halTimBaseInit msp h s).reg =
        Function.update s.reg i (timBaseSetConfig (s.reg i) (s.handle h)) := by
  rw [halTimBaseInit]
  generalize hs' : (if (s.handle h).state = .reset then msp h s else s) = s'
  have hsame : s'.handle = s.handle ∧ s'.reg = s.reg := by
    rw [← hs']
    split
    · exact hmsp h s
    · exact ⟨rfl, rfl⟩
  simp only [Timers.setHandle_self, hsame.1, hi]
  refine ⟨fun j => ?_, ?_⟩
  · by_cases hj : j = h
    · subst hj
      simp only [Timers.setHandle_self, Timers.setReg_handle, hi]
    · rw [Timers.setHandle_of_ne _ _ hj, Timers.setReg_handle, Timers.setHandle_of_ne _ _ hj,
        hsame.1]
  · rw [Timers.setHandle_reg, Timers.setReg, Timers.setHandle_reg, hsame.2]
    rfl

theorem halTimBaseStartIt_eq {h i : TimId} {s : Timers} (hi : (s.handle h).inst = some i) :
    halTimBaseStartIt h s = s.setReg i (s.reg i).enable := by
  rw [halTimBaseStartIt, hi]

theorem halTimBaseStopIt_eq {h i : TimId} {s : Timers} (hi : (s.handle h).inst = some i) :
    halTimBaseStopIt h s = s.setReg i (s.reg i).disable := by
  rw [halTimBaseStopIt, hi]

theorem halTimIrqHandler_handle (h : TimId) (s : Timers) :
    (halTimIrqHandler h s).1.handle = s.handle := by
  rw [halTimIrqHandler]
  split
  · rfl
  · split <;> rfl

/-- It leaves the other timers alone. -/
theorem halTimIrqHandler_of_ne {h j : TimId} {s : Timers} (hj : (s.handle h).inst ≠ some j) :
    (halTimIrqHandler h s).1.reg j = s.reg j := by
  rw [halTimIrqHandler]
  split
  · rfl
  · next i hi =>
    split
    · exact s.setReg_of_ne _ fun heq => hj (hi.trans (congrArg some heq.symm))
    · rfl

/-- An interrupt that is due. -/
theorem halTimIrqHandler_of_due {h : TimId} {s : Timers} (hi : (s.handle h).inst = some h)
    (hdue : s.Due h) :
    halTimIrqHandler h s = (s.setReg h (s.reg h).clearUif, true) := by
  rw [halTimIrqHandler, hi]
  exact if_pos (by rw [hdue.1, hdue.2.1]; rfl)

end Stm32F4.Hal
