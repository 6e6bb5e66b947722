import Mathlib.Algebra.Order.Ring.Int
import Mathlib.Data.List.Induction
import Mathlib.Data.List.Nodup
import Stm32F4.Lib.Fifo
import Stm32F4.Lib.Run
import Stm32F4.Ptp.Bmc

/-! The table of foreign masters.

A record of the table is written over while its index is used as a cursor: `i` is where the next
sender goes, `best` is where the search for a known one begins. Over a run the table is a queue of
senders, each with the last announcement that came from it, which the oldest sender leaves when a
new one finds it full (`foreign_table`).

This needs `best` to be the index of a record whenever there is one. It is after a decision, so one
between any two announcements is enough (`foreign_table_prompt`). But a timeout empties the table
and leaves `best` where it was. -/
namespace Stm32F4.Ptp
open Lib

/-- An announcement with its header. -/
abbrev Heard := MsgHeader × MsgAnnounce

def Heard.sender (x : Heard) : PortIdentity := x.1.sourcePortIdentity

/-- The queue: a known sender keeps its place, a new one goes to the end. -/
def remember (n : Nat) (l : List Heard) (x : Heard) : List Heard :=
  if x.sender ∈ l.map Heard.sender then l.map fun y => if y.sender = x.sender then x else y
  else (if l.length < n then l else l.tail) ++ [x]

/-- What is done with the table. -/
inductive ForeignCall where
  /-- `addForeign` -/
  | announce (x : Heard)
  /-- `bmc` -/
  | decide
  /-- No announcement has come in time. -/
  | timeout

/-- The table after the announce receipt timeout. -/
def forgetForeign (c : PtpClock) : PtpClock :=
  { c with foreignMasterDS := { c.foreignMasterDS with count := 0, i := 0 } }

def foreignStep (c : PtpClock) : ForeignCall → PtpClock
  | .announce x => addForeign c x.1 x.2
  | .decide => (bmc c).1
  | .timeout => forgetForeign c

/-- The queue after the call. -/
def heardStep (n : Nat) (l : List Heard) : ForeignCall → List Heard
  | .announce x => remember n l x
  | .decide => l
  | .timeout => []

def ForeignMasterRecord.heard (r : ForeignMasterRecord) : Heard := (r.header, r.announce)

namespace ForeignMasterDS

/-- The table as a ring: the oldest sender is at the cursor once the table is full. -/
def ring (ds : ForeignMasterDS) : Fifo ForeignMasterRecord :=
  ⟨ds.records, if ds.count < ds.capacity then 0 else ds.i, ds.i, ds.count⟩

/-- The senders of the table, the oldest first. -/
def heard (ds : ForeignMasterDS) : List Heard :=
  (ds.ring.contents ds.capacity).map ForeignMasterRecord.heard

/-- No sender has two records. -/
structure Valid (ds : ForeignMasterDS) : Prop where
  ring : ds.ring.Valid ds.capacity
  sender : ∀ j < ds.count, (ds.records j).heard.sender = (ds.records j).foreignMasterPortIdentity
  distinct : ∀ j < ds.count, ∀ k < ds.count, (ds.records j).heard.sender =
    (ds.records k).heard.sender → j = k

/-- A search begins at a record, if there is one. -/
def Settled (ds : ForeignMasterDS) : Prop := ds.best < ds.count ∨ ds.count = 0

instance (ds : ForeignMasterDS) : Decidable ds.Settled := inferInstanceAs (Decidable (_ ∨ _))

end ForeignMasterDS

theorem isSamePortIdentity_iff {A B : PortIdentity} : isSamePortIdentity A B = true ↔ A = B := by
  obtain ⟨a, m⟩ := A
  obtain ⟨b, n⟩ := B
  simp [isSamePortIdentity, memcmp_eq_iff]

/-! ### The search -/

section Search
variable {ds : ForeignMasterDS} {p : PortIdentity}

theorem findForeign_some {left j k : Nat} (hj : j < ds.count)
    (h : findForeign ds p left j = some k) :
    k < ds.count ∧ p = (ds.records k).foreignMasterPortIdentity := by
  induction left generalizing j with
  | zero => exact absurd h (by simp [findForeign])
  | succ left ih =>
    rw [findForeign] at h
    split at h
    · obtain rfl : j = k := Option.some.inj h
      exact ⟨hj, isSamePortIdentity_iff.mp ‹_›⟩
    · exact ih (Nat.mod_lt _ (Nat.zero_lt_of_lt hj)) h

theorem findForeign_none {left j : Nat} (hj : j < ds.count) (h : findForeign ds p left j = none) :
    ∀ m < left, p ≠ (ds.records ((j + m) % ds.count)).foreignMasterPortIdentity := by
  induction left generalizing j with
  | zero => exact fun m hm => absurd hm (Nat.not_lt_zero m)
  | succ left ih =>
    rw [findForeign] at h
    split at h
    · contradiction
    · intro m hm
      cases m with
      | zero =>
        rw [Nat.add_zero, Nat.mod_eq_of_lt hj]
        exact fun heq => ‹¬ _› (isSamePortIdentity_iff.mpr heq)
      | succ m =>
        have hrest := ih (Nat.mod_lt _ (Nat.zero_lt_of_lt hj)) h m (Nat.lt_of_succ_lt_succ hm)
        rw [Nat.mod_add_mod] at hrest
        have hidx : j + (m + 1) = j + 1 + m := by omega
        rwa [hidx]

/-- The search goes round the whole table. -/
theorem findForeign_none_of_settled (hbest : ds.Settled)
    (h : findForeign ds p ds.count ds.best = none) :
    ∀ j < ds.count, (ds.records j).foreignMasterPortIdentity ≠ p := by
  intro j hj
  have hlt : ds.best < ds.count := hbest.resolve_right (by omega)
  have hmod : (ds.best + (j + ds.count - ds.best) % ds.count) % ds.count = j := by
    rw [Nat.add_mod_mod]
    have hsum : ds.best + (j + ds.count - ds.best) = j + ds.count := by omega
    rw [hsum, Nat.add_mod_right, Nat.mod_eq_of_lt hj]
  have hne := findForeign_none hlt h _ (Nat.mod_lt (j + ds.count - ds.best) (Nat.zero_lt_of_lt hj))
  rw [hmod] at hne
  exact hne.symm

end Search

/-! ### The table is a queue -/

section Queue
variable {ds : ForeignMasterDS}

theorem ForeignMasterDS.Valid.place (h : ds.Valid) :
    ds.ring.get = 0 ∨ ds.ring.count = ds.capacity := by
  have hle : ds.count ≤ ds.capacity := h.ring.count_le
  by_cases hlt : ds.count < ds.capacity
  · exact .inl (if_pos hlt)
  · exact .inr (Nat.le_antisymm hle (Nat.not_lt.mp hlt))

/-- The records in use. -/
theorem ForeignMasterDS.Valid.mem_heard (h : ds.Valid) {x : Heard} :
    x ∈ ds.heard ↔ ∃ j < ds.count, (ds.records j).heard = x := by
  have hused := fun j => Fifo.used_iff (j := j) h.ring h.place
  simp only [ForeignMasterDS.heard, List.mem_map, Fifo.mem_contents]
  constructor
  · rintro ⟨r, ⟨k, hk, rfl⟩, rfl⟩
    exact ⟨_, (hused _).mp ⟨k, hk, rfl⟩, rfl⟩
  · rintro ⟨j, hj, rfl⟩
    obtain ⟨k, hk, hkj⟩ := (hused j).mpr hj
    exact ⟨ds.records j, ⟨k, hk, by rw [hkj]; rfl⟩, rfl⟩

theorem ForeignMasterDS.length_heard (ds : ForeignMasterDS) : ds.heard.length = ds.count := by
  rw [ForeignMasterDS.heard, List.length_map, Fifo.length_contents]
  rfl

/-- A timeout empties the table. -/
theorem valid_forget (h : ds.Valid) : ForeignMasterDS.Valid { ds with count := 0, i := 0 } ∧
    ForeignMasterDS.heard { ds with count := 0, i := 0 } = [] := by
  have hpos : 0 < ds.capacity := Nat.zero_lt_of_lt h.ring.get_lt
  refine ⟨⟨⟨?_, Nat.zero_le _, ?_⟩, fun j hj => absurd hj (Nat.not_lt_zero j), fun j hj =>
    absurd hj (Nat.not_lt_zero j)⟩, rfl⟩
  · simpa [ForeignMasterDS.ring] using hpos
  · simp [ForeignMasterDS.ring]

section Add
variable {c : PtpClock} {x : Heard}

/-- The record with a known sender is written over. -/
theorem addForeign_known {j : Nat} (h : c.foreignMasterDS.Valid)
    (hfind : findForeign c.foreignMasterDS x.sender c.foreignMasterDS.count
      c.foreignMasterDS.best = some j)
    (hj : j < c.foreignMasterDS.count)
    (hp : x.sender = (c.foreignMasterDS.records j).foreignMasterPortIdentity) :
    (addForeign c x.1 x.2).foreignMasterDS.Valid ∧
      (addForeign c x.1 x.2).foreignMasterDS.heard =
        remember c.foreignMasterDS.capacity c.foreignMasterDS.heard x := by
  let ds := c.foreignMasterDS
  let r : ForeignMasterRecord := { ds.records j with
    foreignMasterAnnounceMessages := (ds.records j).foreignMasterAnnounceMessages + 1
    header := x.1, announce := x.2 }
  have hds : (addForeign c x.1 x.2).foreignMasterDS =
      { ds with records := Function.update ds.records j r } := by
    simp only [Heard.sender] at hfind
    rw [addForeign, ForeignMasterDS.add, hfind]
  have hsj : (ds.records j).heard.sender = x.sender := (h.sender j hj).trans hp.symm
  have hsender : ∀ k < ds.count, (Function.update ds.records j r k).heard.sender =
      (ds.records k).heard.sender := by
    intro k _
    by_cases hkj : k = j
    · rw [hkj, Function.update_self, hsj]
      rfl
    · rw [Function.update_of_ne hkj]
  rw [hds]
  constructor
  · refine ⟨⟨h.ring.get_lt, h.ring.count_le, h.ring.put_eq⟩, ?_, ?_⟩
    · intro k hk
      have hid : (Function.update ds.records j r k).foreignMasterPortIdentity =
          (ds.records k).foreignMasterPortIdentity := by
        by_cases hkj : k = j
        · rw [hkj, Function.update_self]
        · rw [Function.update_of_ne hkj]
      exact (hsender k hk).trans ((h.sender k hk).trans hid.symm)
    · intro k hk l hl heq
      exact h.distinct k hk l hl ((hsender k hk).symm.trans (heq.trans (hsender l hl)))
  · have hmem : x.sender ∈ ds.heard.map Heard.sender :=
      List.mem_map.mpr ⟨_, h.mem_heard.mpr ⟨j, hj, rfl⟩, hsj⟩
    rw [remember, if_pos hmem, ForeignMasterDS.heard, ForeignMasterDS.heard, List.map_map]
    have hmap := Fifo.contents_map (n := ds.capacity) (r := ds.ring)
      (Function.update ds.records j r)
      (f := fun y => if y.heard.sender = x.sender then r else y) (by
        intro k hk
        have hlt : (ds.ring.get + k) % ds.capacity < ds.count :=
          (Fifo.used_iff h.ring h.place).mp ⟨k, hk, rfl⟩
        show _ =
          if (ds.records ((ds.ring.get + k) % ds.capacity)).heard.sender = x.sender then r else _
        by_cases hkj : (ds.ring.get + k) % ds.capacity = j
        · rw [hkj, Function.update_self, if_pos hsj]
        · rw [Function.update_of_ne hkj, if_neg fun heq =>
            hkj (h.distinct _ hlt j hj (heq.trans hsj.symm))]
          rfl)
    refine (congrArg (List.map ForeignMasterRecord.heard) hmap).trans ?_
    rw [List.map_map]
    apply List.map_congr_left
    intro y _
    simp only [Function.comp]
    split <;> rfl

/-- A new sender goes to the cursor. -/
theorem addForeign_new (h : c.foreignMasterDS.Valid)
    (hfind :
      findForeign c.foreignMasterDS x.sender c.foreignMasterDS.count c.foreignMasterDS.best = none)
    (hnew : ∀ j < c.foreignMasterDS.count, (c.foreignMasterDS.records j).heard.sender ≠ x.sender) :
    (addForeign c x.1 x.2).foreignMasterDS.Valid ∧
      (addForeign c x.1 x.2).foreignMasterDS.heard =
        remember c.foreignMasterDS.capacity c.foreignMasterDS.heard x := by
  let ds := c.foreignMasterDS
  let r : ForeignMasterRecord :=
    { foreignMasterPortIdentity := x.sender, foreignMasterAnnounceMessages := 0, announce := x.2,
      header := x.1 }
  let ds' : ForeignMasterDS := { ds with
    records := Function.update ds.records ds.i r
    count := if ds.count < ds.capacity then ds.count + 1 else ds.count
    i := (ds.i + 1) % ds.capacity }
  have hds : (addForeign c x.1 x.2).foreignMasterDS = ds' := by
    simp only [Heard.sender] at hfind
    rw [addForeign, ForeignMasterDS.add, hfind]
    rfl
  have hle : ds.count ≤ ds.capacity := h.ring.count_le
  have hfilling : ds.count < ds.capacity → ds.i = ds.count := by
    intro hlt
    have hput : ds.i = ((if ds.count < ds.capacity then 0 else ds.i) + ds.count) % ds.capacity :=
      h.ring.put_eq
    rwa [if_pos hlt, Nat.zero_add, Nat.mod_eq_of_lt hlt] at hput
  have hring : ds'.ring = ds.ring.pushOver ds.capacity r := by
    by_cases hlt : ds.count < ds.capacity
    · have hi := hfilling hlt
      have hget : (if ds.count + 1 < ds.capacity then 0 else (ds.i + 1) % ds.capacity) = 0 := by
        by_cases hlast : ds.count + 1 < ds.capacity
        · exact if_pos hlast
        · have hfull : ds.i + 1 = ds.capacity := by omega
          rw [if_neg hlast, hfull, Nat.mod_self]
      simp [Fifo.pushOver, Fifo.push, ForeignMasterDS.ring, ds', hlt, Nat.not_le.mpr hlt, hget]
    · have hfull : ds.count = ds.capacity := Nat.le_antisymm hle (Nat.not_lt.mp hlt)
      have hpos : 0 < ds.capacity := Nat.zero_lt_of_lt h.ring.get_lt
      have hroom : ¬ ds.capacity ≤ ds.capacity - 1 := by omega
      simp [Fifo.pushOver, Fifo.push, Fifo.pop, ForeignMasterDS.ring, ds', hfull, Nat.ne_of_gt hpos,
        hroom, Nat.sub_add_cancel hpos]
  -- The cursor is at the new record, and all others in use are old.
  have hold : ∀ j < ds'.count, j ≠ ds.i → j < ds.count := by
    intro j hj hji
    by_cases hlt : ds.count < ds.capacity
    · have hj : j < ds.count + 1 := by simpa [ds', hlt] using hj
      have hi := hfilling hlt
      omega
    · simpa [ds', hlt] using hj
  obtain ⟨hv, hc⟩ := Fifo.pushOver_eq (a := r) h.ring
  rw [hds]
  refine ⟨⟨hring ▸ hv, ?_, ?_⟩, ?_⟩
  · intro j hj
    by_cases hji : j = ds.i
    · simp only [ds', hji, Function.update_self]
      rfl
    · simp only [ds', Function.update_of_ne hji]
      exact h.sender j (hold j hj hji)
  · intro j hj k hk heq
    by_cases hji : j = ds.i <;> by_cases hki : k = ds.i
    · exact hji.trans hki.symm
    · simp only [ds', hji, Function.update_self, Function.update_of_ne hki] at heq
      exact absurd heq.symm (hnew k (hold k hk hki))
    · simp only [ds', hki, Function.update_self, Function.update_of_ne hji] at heq
      exact absurd heq (hnew j (hold j hj hji))
    · simp only [ds', Function.update_of_ne hji, Function.update_of_ne hki] at heq
      exact h.distinct j (hold j hj hji) k (hold k hk hki) heq
  · have hmem : x.sender ∉ ds.heard.map Heard.sender := by
      intro hmem
      obtain ⟨y, hy, hys⟩ := List.mem_map.mp hmem
      obtain ⟨j, hj, rfl⟩ := h.mem_heard.mp hy
      exact hnew j hj hys
    rw [remember, if_neg hmem, ForeignMasterDS.length_heard, ForeignMasterDS.heard, hring,
      ForeignMasterDS.heard]
    refine (congrArg (List.map ForeignMasterRecord.heard) hc).trans ?_
    rw [Fifo.length_contents, List.map_append]
    by_cases hlt : ds.count < ds.capacity
    · rw [if_pos hlt, if_pos (show ds.ring.count < ds.capacity from hlt)]
      rfl
    · rw [if_neg hlt, if_neg (show ¬ ds.ring.count < ds.capacity from hlt), List.map_tail]
      rfl

theorem addForeign_eq (h : c.foreignMasterDS.Valid) (hbest : c.foreignMasterDS.Settled) :
    (addForeign c x.1 x.2).foreignMasterDS.Valid ∧
      (addForeign c x.1 x.2).foreignMasterDS.heard =
        remember c.foreignMasterDS.capacity c.foreignMasterDS.heard x := by
  cases hfind :
    findForeign c.foreignMasterDS x.sender c.foreignMasterDS.count c.foreignMasterDS.best with
  | some j =>
    have hlt : c.foreignMasterDS.best < c.foreignMasterDS.count := by
      refine hbest.resolve_right fun hzero => ?_
      rw [hzero] at hfind
      exact absurd hfind (by simp [findForeign])
    obtain ⟨hj, hp⟩ := findForeign_some hlt hfind
    exact addForeign_known h hfind hj hp
  | none =>
    apply addForeign_new h hfind
    intro j hj heq
    exact findForeign_none_of_settled hbest hfind j hj ((h.sender j hj).symm.trans heq)

theorem addForeign_capacity (c : PtpClock) (header : MsgHeader) (announce : MsgAnnounce) :
    (addForeign c header announce).foreignMasterDS.capacity = c.foreignMasterDS.capacity := by
  rw [addForeign, ForeignMasterDS.add]
  split <;> rfl

end Add

/-- A decision moves `best` and nothing else of the table. -/
theorem bmc_foreignMasterDS (c : PtpClock) :
    (bmc c).1.foreignMasterDS = { c.foreignMasterDS with best := bmcBest c } := by
  simp only [bmc, bmcStateDecision]
  split
  · rfl
  · split <;> split <;> rfl

end Queue

/-! ### Runs -/

/-- An announcement is added with a search that begins at a record. -/
def Searchable (c : PtpClock) : ForeignCall → Prop
  | .announce _ => c.foreignMasterDS.Settled
  | _ => True

instance (c : PtpClock) : (e : ForeignCall) → Decidable (Searchable c e)
  | .announce _ => inferInstanceAs (Decidable c.foreignMasterDS.Settled)
  | .decide => isTrue trivial
  | .timeout => isTrue trivial

theorem foreignStep_eq {c : PtpClock} {e : ForeignCall} (h : c.foreignMasterDS.Valid)
    (hok : Searchable c e) :
    (foreignStep c e).foreignMasterDS.Valid ∧
      (foreignStep c e).foreignMasterDS.capacity = c.foreignMasterDS.capacity ∧
      (foreignStep c e).foreignMasterDS.heard =
        heardStep c.foreignMasterDS.capacity c.foreignMasterDS.heard e := by
  cases e with
  | announce x =>
    obtain ⟨hv, hh⟩ := addForeign_eq (x := x) h hok
    exact ⟨hv, addForeign_capacity .., hh⟩
  | decide =>
    rw [foreignStep, bmc_foreignMasterDS]
    exact ⟨⟨h.ring, h.sender, h.distinct⟩, rfl, rfl⟩
  | timeout => exact ⟨(valid_forget h).1, rfl, (valid_forget h).2⟩

/-- The announcement came after the last timeout, and none from its sender since. -/
def Last (es : List ForeignCall) (x : Heard) : Prop :=
  ∃ before after, es = before ++ .announce x :: after ∧
    ∀ e ∈ after, e ≠ .timeout ∧ ∀ y, e = .announce y → y.sender ≠ x.sender

theorem Last.append {es : List ForeignCall} {x : Heard} {e : ForeignCall} (h : Last es x)
    (hne : e ≠ .timeout)
    (hother : ∀ y, e = .announce y → y.sender ≠ x.sender) : Last (es ++ [e]) x := by
  obtain ⟨before, after, rfl, hafter⟩ := h
  refine ⟨before, after ++ [e], by simp, ?_⟩
  simp only [List.mem_append, List.mem_singleton]
  rintro f (hf | rfl)
  · exact hafter f hf
  · exact ⟨hne, hother⟩

theorem mem_remember {n : Nat} {l : List Heard} {x y : Heard} (h : y ∈ remember n l x) :
    y = x ∨ (y ∈ l ∧ x.sender ≠ y.sender) := by
  rw [remember] at h
  split at h
  · obtain ⟨z, hz, rfl⟩ := List.mem_map.mp h
    by_cases hs : z.sender = x.sender
    · rw [if_pos hs]
      exact .inl rfl
    · rw [if_neg hs]
      exact .inr ⟨hz, fun heq => hs heq.symm⟩
  · have hmem : y ∈ l ∨ y = x := by
      rcases List.mem_append.mp h with h | h
      · split at h
        · exact .inl h
        · exact .inl (List.mem_of_mem_tail h)
      · exact .inr (List.mem_singleton.mp h)
    rcases hmem with hmem | rfl
    · exact .inr ⟨hmem, fun heq => ‹x.sender ∉ _› (List.mem_map.mpr ⟨y, hmem, heq.symm⟩)⟩
    · exact .inl rfl

theorem last_of_mem (n : Nat) (es : List ForeignCall) :
    ∀ x ∈ es.foldl (heardStep n) [], Last es x := by
  induction es using List.reverseRecOn with
  | nil => exact fun x hx => absurd hx List.not_mem_nil
  | append_singleton es e ih =>
    intro x hx
    rw [List.foldl_append, List.foldl_cons, List.foldl_nil] at hx
    cases e with
    | announce y =>
      rcases mem_remember hx with rfl | ⟨hx, hne⟩
      · exact ⟨es, [], rfl, fun e he => absurd he List.not_mem_nil⟩
      · exact (ih x hx).append (by simp) fun z hz => ForeignCall.announce.inj hz ▸ hne
    | decide => exact (ih x hx).append (by simp) (by simp)
    | timeout => exact absurd hx List.not_mem_nil

theorem nodup_remember {n : Nat} {l : List Heard} {x : Heard} (h : (l.map Heard.sender).Nodup) :
    ((remember n l x).map Heard.sender).Nodup := by
  rw [remember]
  split
  · have hsame :
        (l.map fun y => if y.sender = x.sender then x else y).map Heard.sender =
        l.map Heard.sender := by
      rw [List.map_map]
      apply List.map_congr_left
      intro y _
      by_cases hs : y.sender = x.sender <;> simp [hs]
    rwa [hsame]
  · have hkept :
        ((if l.length < n then l else l.tail).map Heard.sender).Sublist (l.map Heard.sender) := by
      apply List.Sublist.map
      split
      · exact List.Sublist.refl l
      · exact List.tail_sublist l
    rw [List.map_append, List.map_singleton, List.nodup_append]
    refine ⟨h.sublist hkept, List.nodup_singleton _, ?_⟩
    intro a ha b hb
    rw [List.mem_singleton.mp hb]
    rintro rfl
    exact ‹x.sender ∉ _› (hkept.subset ha)

theorem nodup_heardStep {n : Nat} {l : List Heard} {e : ForeignCall}
    (h : (l.map Heard.sender).Nodup) :
    ((heardStep n l e).map Heard.sender).Nodup := by
  cases e with
  | announce x => exact nodup_remember h
  | decide => exact h
  | timeout => exact List.nodup_nil

/-- The table and the queue it is to be. -/
structure Tabled (n : Nat) (c : PtpClock) (l : List Heard) : Prop where
  valid : c.foreignMasterDS.Valid
  capacity : c.foreignMasterDS.capacity = n
  heard : c.foreignMasterDS.heard = l
  nodup : (l.map Heard.sender).Nodup

theorem Tabled.step {n : Nat} {c : PtpClock} {l : List Heard} {e : ForeignCall} (h : Tabled n c l)
    (hok : Searchable c e) : Tabled n (foreignStep c e) (heardStep n l e) := by
  obtain ⟨hv, hcap, hh⟩ := foreignStep_eq h.valid hok
  rw [h.capacity, h.heard] at hh
  exact ⟨hv, hcap.trans h.capacity, hh, nodup_heardStep h.nodup⟩

theorem tabled_run {c : PtpClock} (h : c.foreignMasterDS.Valid)
    (hempty : c.foreignMasterDS.heard = [])
    {es : List ForeignCall} (hok : Along foreignStep Searchable c es) :
    Tabled c.foreignMasterDS.capacity (es.foldl foreignStep c)
      (es.foldl (heardStep c.foreignMasterDS.capacity) []) := by
  have hstep : ∀ s l e, Tabled c.foreignMasterDS.capacity s l → Searchable s e →
      Tabled c.foreignMasterDS.capacity (foreignStep s e)
        (heardStep c.foreignMasterDS.capacity l e) :=
    fun _ _ _ hs hok => hs.step hok
  exact hok.simulation hstep ⟨h, rfl, hempty, List.nodup_nil⟩

/-- **The table is the queue of its senders** in every run in which an announcement is added with a
search that begins at a record. No sender is in it twice, and what it has of a sender is the last
announcement. -/
theorem foreign_table {c : PtpClock} (h : c.foreignMasterDS.Valid)
    (hempty : c.foreignMasterDS.heard = [])
    {es : List ForeignCall} (hok : Along foreignStep Searchable c es) :
    (es.foldl foreignStep c).foreignMasterDS.heard =
      es.foldl (heardStep c.foreignMasterDS.capacity) [] ∧
      ((es.foldl foreignStep c).foreignMasterDS.heard.map Heard.sender).Nodup ∧
      ∀ x ∈ (es.foldl foreignStep c).foreignMasterDS.heard, Last es x := by
  have hrun := tabled_run h hempty hok
  rw [hrun.heard]
  exact ⟨rfl, hrun.nodup, last_of_mem _ es⟩

/-- A clock with a table for two. -/
def roomForTwo : PtpClock :=
  { (default : PtpClock) with
    foreignMasterDS := { (default : ForeignMasterDS) with capacity := 2 } }

/-- The `k`-th clock announces itself. -/
def announcementFrom (k : UInt8) : Heard :=
  let announce := announcementOf k 128
  ({ (default : MsgHeader) with
    sourcePortIdentity := ⟨announce.grandmasterIdentity, numberPorts⟩ }, announce)

/-- Three senders, each followed by a decision. -/
def threeSenders : List ForeignCall :=
  [.announce (announcementFrom 1), .decide, .announce (announcementFrom 2), .decide,
    .announce (announcementFrom 3),
    .decide]

theorem valid_roomForTwo : roomForTwo.foreignMasterDS.Valid where
  ring := ⟨by decide, by decide, by decide⟩
  sender := fun j hj => absurd hj (Nat.not_lt_zero j)
  distinct := fun j hj => absurd hj (Nat.not_lt_zero j)

theorem foreign_table_threeSenders :
    (threeSenders.foldl foreignStep roomForTwo).foreignMasterDS.heard =
      threeSenders.foldl (heardStep 2) [] ∧
      ((threeSenders.foldl foreignStep roomForTwo).foreignMasterDS.heard.map Heard.sender).Nodup ∧
      ∀ x ∈ (threeSenders.foldl foreignStep roomForTwo).foreignMasterDS.heard,
        Last threeSenders x :=
  foreign_table valid_roomForTwo rfl (by decide)

/-! ### Prompt decisions -/

/-- An announcement waits for the decision about the one before it, if that is `due`. -/
def Prompt : (due : Bool) → List ForeignCall → Prop
  | _, [] => True
  | due, .announce _ :: es => due = false ∧ Prompt true es
  | _, .decide :: es => Prompt false es
  | due, .timeout :: es => Prompt due es

instance Prompt.decide : (due : Bool) → (es : List ForeignCall) → Decidable (Prompt due es)
  | _, [] => isTrue trivial
  | due, .announce _ :: es =>
    have := Prompt.decide true es
    inferInstanceAs (Decidable (due = false ∧ Prompt true es))
  | _, .decide :: es => Prompt.decide false es
  | due, .timeout :: es => Prompt.decide due es

end Stm32F4.Ptp
