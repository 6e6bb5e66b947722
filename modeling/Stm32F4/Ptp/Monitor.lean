import Mathlib.Algebra.Order.Ring.Int
import Stm32F4.Lib.Run
import Stm32F4.Lib.Slots

/-! The monitor table of a PTP master.

Slaves report their offsets, and `ptp_unpack_control` keeps the last one of each of 16 addresses. A
new address goes to a free slot, and if there is none to the one at the cursor `cnt`, which goes
round. It comes back to zero only from 17, so every seventeenth replacement goes to a slot behind
the table, and the address is not in the table after it. In all other calls the table is what a
table of slots with keys should be (`monitor_kept_iff`).

Slots are indexed by natural numbers, those from 16 on being whatever lies behind the
table. -/
namespace Stm32F4.Ptp
open Lib

def ptpMonitorlConstant : Nat := 16

structure TimeInternal where
  seconds : BitVec 32
  nanoseconds : BitVec 32
deriving DecidableEq

/-- `struct ptp_c` -/
structure PtpC where
  ipaddr : BitVec 32
  offset : TimeInternal
  time : BitVec 32
deriving DecidableEq

/-- `ptpMonitorl` and `cnt`. -/
structure Monitor where
  ptpMonitorl : Nat → PtpC
  cnt : BitVec 8

/-- A call: an address, its offset, and the time in `ETH->PTPTSHR`. -/
structure Report where
  ipaddr : BitVec 32
  p : TimeInternal
  ptptshr : BitVec 32
  ne_zero : ipaddr ≠ 0

/-- The first slot of the table with that address. -/
def findAddr (m : Monitor) (ipaddr : BitVec 32) : Option Nat :=
  (List.range ptpMonitorlConstant).find? fun i => (m.ptpMonitorl i).ipaddr = ipaddr

/-- The table after the call, and the index that is written. -/
def ptpUnpackControl (m : Monitor) (r : Report) : Monitor × Nat :=
  match findAddr m r.ipaddr with
  | some i =>
    let c := { m.ptpMonitorl i with offset := r.p, time := r.ptptshr }
    ({ m with ptpMonitorl := Function.update m.ptpMonitorl i c }, i)
  | none =>
    match findAddr m 0 with
    | some i =>
      ({ m with ptpMonitorl := Function.update m.ptpMonitorl i ⟨r.ipaddr, r.p, r.ptptshr⟩ }, i)
    | none =>
      let cnt := m.cnt + 1
      (⟨Function.update m.ptpMonitorl m.cnt.toNat ⟨r.ipaddr, r.p, r.ptptshr⟩,
        if cnt.toNat > ptpMonitorlConstant then 0 else cnt⟩, m.cnt.toNat)

def monitorStep (m : Monitor) (r : Report) : Monitor := (ptpUnpackControl m r).1

/-- The table as it is before the first call. -/
def emptyMonitor : Monitor := ⟨fun _ => ⟨0, ⟨0, 0⟩, 0⟩, 0⟩

/-! ### A table with keys -/

/-- The address has a slot of the table. -/
def Monitor.Present (m : Monitor) (ipaddr : BitVec 32) : Prop :=
  Has ptpMonitorlConstant PtpC.ipaddr m.ptpMonitorl ipaddr

/-- A slot is free. -/
def Monitor.Free (m : Monitor) : Prop := m.Present 0

instance (m : Monitor) (ipaddr : BitVec 32) : Decidable (m.Present ipaddr) :=
  inferInstanceAs (Decidable (Has _ _ _ _))

instance (m : Monitor) : Decidable m.Free := inferInstanceAs (Decidable (m.Present 0))

/-- No address other than zero has two slots. -/
def Monitor.Unique (m : Monitor) : Prop := Distinct ptpMonitorlConstant PtpC.ipaddr 0 m.ptpMonitorl

/-- What is asked of a call. -/
structure Kept (m : Monitor) (r : Report) : Prop where
  written : (ptpUnpackControl m r).2 < ptpMonitorlConstant
  unique : (monitorStep m r).Unique
  present : ∃ i, i < ptpMonitorlConstant ∧ ((monitorStep m r).ptpMonitorl i).ipaddr = r.ipaddr ∧
    ((monitorStep m r).ptpMonitorl i).offset = r.p
  /-- at most one slot changes -/
  others : ∃ i, ∀ j, j ≠ i → (monitorStep m r).ptpMonitorl j = m.ptpMonitorl j
  /-- an address has to go only if the table is full and does not have the new one -/
  stays : m.Present r.ipaddr ∨ m.Free → ∀ i, i < ptpMonitorlConstant →
    (m.ptpMonitorl i).ipaddr ≠ 0 →
    (monitorStep m r).Present (m.ptpMonitorl i).ipaddr

/-- There is a slot in the table for the address: its own, a free one, or the one at the cursor. -/
def Roomy (m : Monitor) (r : Report) : Prop :=
  m.Present r.ipaddr ∨ m.Free ∨ m.cnt.toNat < ptpMonitorlConstant

instance (m : Monitor) (r : Report) : Decidable (Roomy m r) :=
  inferInstanceAs (Decidable (_ ∨ _ ∨ _))

/-- The code's table is a table with keys, with the slot at the cursor for a victim. -/
theorem ptpUnpackControl_eq (m : Monitor) (r : Report) :
    (ptpUnpackControl m r).1.ptpMonitorl =
        put ptpMonitorlConstant PtpC.ipaddr 0 m.ptpMonitorl ⟨r.ipaddr, r.p, r.ptptshr⟩ m.cnt.toNat ∧
      (ptpUnpackControl m r).2 =
        slotFor ptpMonitorlConstant PtpC.ipaddr 0 m.ptpMonitorl r.ipaddr m.cnt.toNat := by
  have hfind :
      ∀ ipaddr, findAddr m ipaddr = lookup ptpMonitorlConstant PtpC.ipaddr m.ptpMonitorl ipaddr :=
    fun _ => rfl
  rw [put, slotFor, ptpUnpackControl, hfind, hfind]
  cases hl : lookup ptpMonitorlConstant PtpC.ipaddr m.ptpMonitorl r.ipaddr with
  | some i =>
    refine ⟨?_, rfl⟩
    have hkey : (m.ptpMonitorl i).ipaddr = r.ipaddr := (lookup_some hl).2
    simp only [Option.getD_some, hkey]
  | none =>
    cases lookup ptpMonitorlConstant PtpC.ipaddr m.ptpMonitorl 0 with
    | some i => exact ⟨rfl, rfl⟩
    | none => exact ⟨rfl, rfl⟩

/-- A call keeps all that is asked of it exactly if there is a slot. -/
theorem kept_iff {m : Monitor} (hm : m.Unique) (r : Report) : Kept m r ↔ Roomy m r := by
  obtain ⟨htab, hidx⟩ := ptpUnpackControl_eq m r
  have hslot : slotFor ptpMonitorlConstant PtpC.ipaddr 0 m.ptpMonitorl r.ipaddr m.cnt.toNat <
    ptpMonitorlConstant ↔ Roomy m r := slotFor_lt_iff
  constructor
  · intro h
    have hlt := h.written
    rw [hidx] at hlt
    exact hslot.mp hlt
  · intro h
    have hlt := hslot.mpr h
    refine ⟨?_, ?_, ⟨_, hlt, ?_⟩, ⟨_, fun j hj => (congrFun htab j).trans (put_of_ne hj)⟩,
      fun hroom i hi hne => ?_⟩
    · rw [hidx]
      exact hlt
    · rw [Monitor.Unique, monitorStep, htab]
      exact hm.put r.ne_zero _
    · have hself : (monitorStep m r).ptpMonitorl
          (slotFor ptpMonitorlConstant PtpC.ipaddr 0 m.ptpMonitorl r.ipaddr m.cnt.toNat) =
            ⟨r.ipaddr, r.p, r.ptptshr⟩ := (congrFun htab _).trans put_self
      rw [hself]
      exact ⟨rfl, rfl⟩
    · rw [Monitor.Present, monitorStep, htab]
      exact Lib.stays hroom hi hne

theorem unique_empty : emptyMonitor.Unique := fun _ _ _ _ _ hne => absurd rfl hne

theorem along_kept_iff {m : Monitor} (hm : m.Unique) (rs : List Report) :
    Along monitorStep Kept m rs ↔ Along monitorStep Roomy m rs :=
  along_congr (I := Monitor.Unique) (fun _ _ _ h => h.unique) (fun _ r hm => kept_iff hm r) hm rs

/-- **The table is kept through any run of reports** exactly if the cursor is in the table whenever
a slot has to be taken from another address. -/
theorem monitor_kept_iff (rs : List Report) :
    Along monitorStep Kept emptyMonitor rs ↔ Along monitorStep Roomy emptyMonitor rs :=
  along_kept_iff unique_empty rs

/-- The addresses from 1 on. -/
def addresses (n : Nat) (h : n < 2 ^ 32 - 1) : List Report :=
  (List.finRange n).map fun i =>
    { ipaddr := BitVec.ofNat 32 (i.val + 1), p := ⟨0, 0⟩, ptptshr := 0
      ne_zero := by
        intro hzero
        have hnat := congrArg BitVec.toNat hzero
        rw [BitVec.toNat_ofNat, Nat.mod_eq_of_lt (by omega)] at hnat
        exact absurd hnat (Nat.succ_ne_zero _) }

/-- Sixteen addresses fill the table, sixteen more take their slots, and the next one goes
behind the table. -/
theorem monitor_not_kept : ¬ Along monitorStep Kept emptyMonitor (addresses 33 (by decide)) := by
  rw [along_kept_iff unique_empty]
  decide +kernel

end Stm32F4.Ptp
