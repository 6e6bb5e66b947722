import Mathlib.Data.List.Induction
import Mathlib.Data.List.Nodup
import Stm32F4.Lib.Run

/-! The control blocks of the two ports.

`doInit` shuts the network down and starts it again, and goes on to do so until a start succeeds. A
start that gets the control block of the event port but not that of the general port gives the
first one back and keeps the pointer to it, so the next shutdown gives it back once more. This is
the only way to it (`removed_nodup_iff`).

Control blocks are numbered in the order `udp_new` hands them out. -/
namespace Stm32F4.Ptp
open Lib

/-- What a start meets: whether there is an interface with an address, and whether the two calls of
`udp_new` succeed. -/
structure Attempt where
  iface : Bool
  eventNew : Bool
  generalNew : Bool
deriving DecidableEq, Inhabited

/-- `netPath->eventPcb` and `netPath->generalPcb`, the number of the next control block, and the
calls of `udp_remove` so far. -/
structure Pcbs where
  eventPcb : Option Nat
  generalPcb : Option Nat
  next : Nat
  removed : List Nat
deriving DecidableEq

def netShutdown (s : Pcbs) : Pcbs :=
  let s := { s with removed := s.removed ++ s.eventPcb.toList, eventPcb := none }
  { s with removed := s.removed ++ s.generalPcb.toList, generalPcb := none }

def netInit (a : Attempt) (s : Pcbs) : Pcbs × Bool :=
  if !a.iface then (s, false)
  else if !a.eventNew then ({ s with eventPcb := none }, false)
  else
    let eventPcb := s.next
    let s := { s with eventPcb := some eventPcb, next := s.next + 1 }
    if !a.generalNew then ({ s with generalPcb := none, removed := s.removed ++ [eventPcb] }, false)
    else ({ s with generalPcb := some s.next, next := s.next + 1 }, true)

/-- The network part of `doInit`. -/
def restart (s : Pcbs) (a : Attempt) : Pcbs := (netInit a (netShutdown s)).1

/-- Before the first start. -/
def noPcbs : Pcbs := ⟨none, none, 0, []⟩

/-- The start gets one control block and not the other. -/
def Attempt.Halfway (a : Attempt) : Prop :=
  a.iface = true ∧ a.eventNew = true ∧ a.generalNew = false

instance (a : Attempt) : Decidable a.Halfway := inferInstanceAs (Decidable (_ ∧ _))

/-- The pointers are to control blocks of their own. -/
structure Pcbs.Sound (s : Pcbs) : Prop where
  removed_lt : ∀ e ∈ s.removed, e < s.next
  event_lt : ∀ e ∈ s.eventPcb, e < s.next
  general_lt : ∀ g ∈ s.generalPcb, g < s.next
  general_live : ∀ g ∈ s.generalPcb, g ∉ s.removed
  distinct : ∀ e ∈ s.eventPcb, ∀ g ∈ s.generalPcb, e ≠ g

/-- The control block of the event port has been given back. -/
def Pcbs.Stale (s : Pcbs) : Prop := ∃ e ∈ s.eventPcb, e ∈ s.removed

section Restart
variable {s : Pcbs}

/-- What a shutdown gives back. -/
theorem removed_netShutdown (s : Pcbs) :
    (netShutdown s).removed = s.removed ++ (s.eventPcb.toList ++ s.generalPcb.toList) := by
  rw [netShutdown, List.append_assoc]

theorem Pcbs.Sound.netShutdown_lt (h : s.Sound) :
    ∀ e ∈ (netShutdown s).removed, e < (netShutdown s).next := by
  intro e he
  rw [removed_netShutdown] at he
  simp only [List.mem_append, Option.mem_toList] at he
  rcases he with he | he | he
  · exact h.removed_lt e he
  · exact h.event_lt e he
  · exact h.general_lt e he

/-- A shutdown gives back twice exactly if the pointer is stale. -/
theorem Pcbs.Sound.nodup_netShutdown_iff (h : s.Sound) (hs : s.removed.Nodup) :
    (netShutdown s).removed.Nodup ↔ ¬ s.Stale := by
  rw [removed_netShutdown, List.nodup_append]
  constructor
  · rintro ⟨-, -, hdis⟩ ⟨e, he, hmem⟩
    exact hdis e hmem e (List.mem_append_left _ (Option.mem_toList.mpr he)) rfl
  · intro hstale
    refine ⟨hs, ?_, ?_⟩
    · have hd := h.distinct
      cases he : s.eventPcb <;> cases hg : s.generalPcb <;> simp_all
    · rintro a ha b hb rfl
      rcases List.mem_append.mp hb with hb | hb
      · exact hstale ⟨a, Option.mem_toList.mp hb, ha⟩
      · exact h.general_live a (Option.mem_toList.mp hb) ha

/-- What a start does after a shutdown: it has no pointers to begin with. -/
theorem restart_cases (s : Pcbs) (a : Attempt) :
    (¬ a.Halfway ∧ (restart s a).removed = (netShutdown s).removed ∧
        ((restart s a) = netShutdown s ∨
          (restart s a).eventPcb = some s.next ∧ (restart s a).generalPcb = some (s.next + 1) ∧
            (restart s a).next = s.next + 2)) ∨
      (a.Halfway ∧ (restart s a).removed = (netShutdown s).removed ++ [s.next] ∧
        (restart s a).eventPcb = some s.next ∧ (restart s a).generalPcb = none ∧
          (restart s a).next = s.next + 1) := by
  obtain ⟨iface, eventNew, generalNew⟩ := a
  cases iface with
  | false => exact .inl ⟨by simp [Attempt.Halfway], rfl, .inl rfl⟩
  | true =>
    cases eventNew with
    | false => exact .inl ⟨by simp [Attempt.Halfway], rfl, .inl rfl⟩
    | true =>
      cases generalNew with
      | false => exact .inr ⟨⟨rfl, rfl, rfl⟩, rfl, rfl, rfl, rfl⟩
      | true => exact .inl ⟨by simp [Attempt.Halfway], rfl, .inr ⟨rfl, rfl, rfl⟩⟩

theorem Pcbs.Sound.restart (h : s.Sound) (a : Attempt) :
    (restart s a).Sound ∧ ((Ptp.restart s a).Stale ↔ a.Halfway) ∧
      ((Ptp.restart s a).removed.Nodup ↔ (netShutdown s).removed.Nodup) := by
  have hlt : ∀ e ∈ (netShutdown s).removed, e < s.next := h.netShutdown_lt
  rcases restart_cases s a with ⟨hhalf, hrem, heq | ⟨hev, hgen, hnext⟩⟩ | ⟨hhalf, hrem, hev,
    hgen, hnext⟩
  · rw [heq]
    refine ⟨⟨hlt, ?_, ?_, ?_, ?_⟩, iff_of_false ?_ hhalf, Iff.rfl⟩ <;>
      simp [netShutdown, Pcbs.Stale]
  · refine ⟨⟨?_, ?_, ?_, ?_, ?_⟩, iff_of_false ?_ hhalf, by rw [hrem]⟩
    · intro e he
      rw [hrem] at he
      have := hlt e he
      omega
    · intro e he
      rw [hev] at he
      obtain rfl : s.next = e := Option.some.inj he
      omega
    · intro g hg
      rw [hgen] at hg
      obtain rfl : s.next + 1 = g := Option.some.inj hg
      omega
    · intro g hg hmem
      rw [hgen] at hg
      rw [hrem] at hmem
      obtain rfl : s.next + 1 = g := Option.some.inj hg
      have := hlt _ hmem
      omega
    · intro e he g hg
      rw [hev] at he
      rw [hgen] at hg
      obtain rfl : s.next = e := Option.some.inj he
      obtain rfl : s.next + 1 = g := Option.some.inj hg
      omega
    · rintro ⟨e, he, hmem⟩
      rw [hev] at he
      rw [hrem] at hmem
      obtain rfl : s.next = e := Option.some.inj he
      exact absurd (hlt _ hmem) (Nat.lt_irrefl _)
  · refine ⟨⟨?_, ?_, ?_, ?_, ?_⟩, iff_of_true ?_ hhalf, ?_⟩
    · intro e he
      rw [hrem, List.mem_append, List.mem_singleton] at he
      rcases he with he | rfl
      · have := hlt e he
        omega
      · omega
    · intro e he
      rw [hev] at he
      obtain rfl : s.next = e := Option.some.inj he
      omega
    · rw [hgen]
      exact fun g hg => absurd hg (Option.not_mem_none g)
    · rw [hgen]
      exact fun g hg => absurd hg (Option.not_mem_none g)
    · rw [hgen]
      exact fun e _ g hg => absurd hg (Option.not_mem_none g)
    · refine ⟨s.next, hev, ?_⟩
      rw [hrem]
      exact List.mem_append_right _ (List.mem_singleton.mpr rfl)
    · rw [hrem]
      have hnew : s.next ∉ (netShutdown s).removed :=
        fun hmem => absurd (hlt _ hmem) (Nat.lt_irrefl _)
      simp only [List.nodup_append, List.nodup_singleton, List.mem_singleton, true_and,
        and_iff_left_iff_imp]
      rintro - a ha b rfl rfl
      exact hnew ha

/-- One more start. -/
theorem Pcbs.Sound.nodup_restart_iff (h : s.Sound) (a : Attempt) :
    (Ptp.restart s a).removed.Nodup ↔ s.removed.Nodup ∧ ¬ s.Stale := by
  rw [(h.restart a).2.2]
  constructor
  · intro hnodup
    have hs : s.removed.Nodup := by
      rw [removed_netShutdown] at hnodup
      exact hnodup.of_append_left
    exact ⟨hs, (h.nodup_netShutdown_iff hs).mp hnodup⟩
  · rintro ⟨hs, hstale⟩
    exact (h.nodup_netShutdown_iff hs).mpr hstale

end Restart

theorem sound_noPcbs : noPcbs.Sound := by
  constructor <;> simp [noPcbs]

theorem sound_foldl (as : List Attempt) : (as.foldl restart noPcbs).Sound := by
  induction as using List.reverseRecOn with
  | nil => exact sound_noPcbs
  | append_singleton as a ih =>
    rw [List.foldl_append]
    exact (ih.restart a).1

/-- **Control blocks are given back once**, in every run of starts, exactly if none of them but the
last is one that gets the first control block and not the second. -/
theorem removed_nodup_iff (as : List Attempt) :
    (as.foldl restart noPcbs).removed.Nodup ↔ ∀ a ∈ as.dropLast, ¬ a.Halfway := by
  induction as using List.reverseRecOn with
  | nil => simp [noPcbs]
  | append_singleton as a ih =>
    rw [List.foldl_append, List.foldl_cons, List.foldl_nil, (sound_foldl as).nodup_restart_iff, ih,
      List.dropLast_concat]
    -- The pointer is stale if the start before this one was of that kind.
    cases as using List.reverseRecOn with
    | nil => simp [noPcbs, Pcbs.Stale]
    | append_singleton as b =>
      rw [List.foldl_append, List.foldl_cons, List.foldl_nil, ((sound_foldl as).restart b).2.1,
        List.dropLast_concat]
      constructor
      · rintro ⟨hinit, hlast⟩ c hc
        rcases List.mem_append.mp hc with hc | hc
        · exact hinit c hc
        · rw [List.mem_singleton.mp hc]
          exact hlast
      · intro h
        exact ⟨fun c hc => h c (List.mem_append_left _ hc),
          h b (List.mem_append_right _ (List.mem_singleton.mpr rfl))⟩

end Stm32F4.Ptp
