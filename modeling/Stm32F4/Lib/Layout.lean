import Mathlib.Algebra.Order.Ring.Int
import Mathlib.Data.List.Pairwise
import Mathlib.Logic.Function.Basic
import Mathlib.Order.Bounds.Basic

/-! Blocks of consecutive cells.

A table of cells is divided into blocks. `Span` is one of them, and a `Layout size`
is a list of non-empty spans below `size` that share no cell: one that overlaps
cannot be built. `Layout.cell` is the table such a layout asks for, every cell of
a block holding the length of the block and every other cell zero. Taking a span out
and putting one in change the table on its own cells only (`cell_release`,
`cell_place`).

Where a new block can go is a search over runs of free cells. `searchDown` counts free cells
from the top and stops at the first place where enough of them are in a row;
that is the highest run of that length, and there is none when it finds nothing
(`searchDown_eq_some_iff`, `searchDown_eq_none_iff`). -/
namespace Stm32F4.Lib

/-! ### Stores in a row -/

/-- The table with `v` stored at each of the cells, in that order. -/
def setCells {V : Type*} (v : V) (m : Nat → V) (cells : List Nat) : Nat → V :=
  cells.foldl (fun m c => Function.update m c v) m

theorem setCells_apply {V : Type*} (v : V) (m : Nat → V) (cells : List Nat) (c : Nat) :
    setCells v m cells c = if c ∈ cells then v else m c := by
  induction cells generalizing m with
  | nil => simp [setCells]
  | cons d rest ih =>
    show setCells v (Function.update m d v) rest c = _
    rw [ih]
    by_cases hc : c = d
    · simp [hc]
    · simp [hc]

/-- The cells `start, …, start + n - 1` in order. -/
def cellsFrom (start n : Nat) : List Nat := (List.range n).map (start + ·)

theorem mem_cellsFrom {start n c : Nat} : c ∈ cellsFrom start n ↔ start ≤ c ∧ c < start + n := by
  simp only [cellsFrom, List.mem_map, List.mem_range]
  constructor
  · rintro ⟨i, hi, rfl⟩
    omega
  · intro h
    exact ⟨c - start, by omega, by omega⟩

/-! ### Runs of free cells -/

/-- The `n` cells from `i` on are free. -/
def FreeRun (free : Nat → Bool) (i n : Nat) : Prop := ∀ j, j < n → free (i + j) = true

instance (free : Nat → Bool) (i n : Nat) : Decidable (FreeRun free i n) :=
  inferInstanceAs (Decidable (∀ j, j < n → free (i + j) = true))

/-- Below `size` there are `n` free cells in a row. -/
def HasRun (free : Nat → Bool) (size n : Nat) : Prop := ∃ i, i + n ≤ size ∧ FreeRun free i n

/-- The places below `size` where `n` free cells in a row start. -/
def runs (free : Nat → Bool) (size n : Nat) : Set Nat := {i | i + n ≤ size ∧ FreeRun free i n}

variable {free : Nat → Bool} {size need : Nat}

/-- A run goes on one cell further down. -/
theorem FreeRun.cons {n c : Nat} (h : FreeRun free (n + 1) c) (hn : free n = true) :
    FreeRun free n (c + 1) := by
  intro j hj
  cases j with
  | zero => exact hn
  | succ j =>
    have hrest := h j (by omega)
    rwa [show n + 1 + j = n + (j + 1) by omega] at hrest

/-- From below cell `n` downwards, with `c` free cells in a row just above: the first
place where `need` of them are in a row. -/
def searchDown (free : Nat → Bool) (need : Nat) : Nat → Nat → Option Nat
  | 0, _ => none
  | n + 1, c =>
    let c := if free n then c + 1 else 0
    if c = need then some n else searchDown free need n c

/-- Part way down: `c` cells from `n` on are free and no longer run starts there, they are
too few, and no place from `n` on has enough. -/
structure Searching (free : Nat → Bool) (size need n c : Nat) : Prop where
  few : c < need
  below : n + c ≤ size
  run : FreeRun free n c
  stops : n + c = size ∨ free (n + c) = false
  lost : ∀ i, n ≤ i → i + need ≤ size → ¬ FreeRun free i need

theorem searching_start (h : 0 < need) : Searching free size need size 0 where
  few := h
  below := Nat.le_refl _
  run := fun _ hj => absurd hj (Nat.not_lt_zero _)
  stops := .inl rfl
  lost := fun i hi hin => by omega

/-- One more free cell, still too few. -/
theorem Searching.more {n c : Nat} (h : Searching free size need (n + 1) c) (hn : free n = true)
    (hne : c + 1 ≠ need) : Searching free size need n (c + 1) := by
  have hfew := h.few
  have hbelow := h.below
  have hstops : n + (c + 1) = size ∨ free (n + (c + 1)) = false := by
    rw [show n + (c + 1) = n + 1 + c by omega]
    exact h.stops
  refine ⟨by omega, by omega, h.run.cons hn, hstops, fun i hi hin hrun => ?_⟩
  by_cases hin' : n + 1 ≤ i
  · exact h.lost i hin' hin hrun
  · -- a long enough run from `n` on would go past the cell that ends this one
    obtain rfl : i = n := by omega
    rcases hstops with hend | hend
    · omega
    · rw [hrun (c + 1) (by omega)] at hend
      cases hend

/-- A cell in use starts the count again. -/
theorem Searching.used {n c : Nat} (h : Searching free size need (n + 1) c) (hn : free n = false) :
    Searching free size need n 0 := by
  have hfew := h.few
  have hbelow := h.below
  refine ⟨by omega, by omega, fun j hj => absurd hj (Nat.not_lt_zero _), .inr hn,
    fun i hi hin hrun => ?_⟩
  by_cases hin' : n + 1 ≤ i
  · exact h.lost i hin' hin hrun
  · obtain rfl : i = n := by omega
    rw [show i = i + 0 from rfl, hrun 0 (by omega)] at hn
    cases hn

/-- What the search finds from part way down is the highest place of all, and when it
finds nothing there is none. -/
theorem Searching.result {n c : Nat} (h : Searching free size need n c) :
    (∀ i, searchDown free need n c = some i → IsGreatest (runs free size need) i) ∧
      (searchDown free need n c = none → ¬ HasRun free size need) := by
  induction n generalizing c with
  | zero =>
    refine ⟨nofun, fun _ hrun => ?_⟩
    obtain ⟨i, hin, hrun⟩ := hrun
    exact h.lost i (Nat.zero_le i) hin hrun
  | succ n ih =>
    have hbelow := h.below
    simp only [searchDown]
    by_cases hn : free n = true
    · rw [if_pos hn]
      by_cases hc : c + 1 = need
      · rw [if_pos hc]
        refine ⟨fun i hi => ?_, nofun⟩
        cases hi
        refine ⟨⟨by omega, hc ▸ h.run.cons hn⟩, fun j ⟨hin, hrun⟩ => ?_⟩
        by_contra hj
        exact h.lost j (by omega) hin hrun
      · rw [if_neg hc]
        exact ih (h.more hn hc)
    · have hn' : free n = false := by simpa using hn
      rw [if_neg hn, if_neg (by have := h.few; omega)]
      exact ih (h.used hn')

/-- The search finds the highest run. -/
theorem searchDown_eq_some_iff (h : 0 < need) (i : Nat) :
    searchDown free need size 0 = some i ↔ IsGreatest (runs free size need) i := by
  obtain ⟨hsome, hnone⟩ := (searching_start h : Searching free size need size 0).result
  refine ⟨hsome i, fun hi => ?_⟩
  cases hs : searchDown free need size 0 with
  | none => exact absurd ⟨i, hi.1⟩ (hnone hs)
  | some j => rw [(hsome j hs).unique hi]

/-- It finds nothing exactly when there is no run. -/
theorem searchDown_eq_none_iff (h : 0 < need) :
    searchDown free need size 0 = none ↔ ¬ HasRun free size need := by
  obtain ⟨hsome, hnone⟩ := (searching_start h : Searching free size need size 0).result
  refine ⟨hnone, fun hno => ?_⟩
  cases hs : searchDown free need size 0 with
  | none => rfl
  | some j => exact absurd ⟨j, (hsome j hs).1⟩ hno

/-! ### Blocks -/

/-- Consecutive cells. -/
structure Span where
  start : Nat
  len : Nat
deriving DecidableEq, Repr

namespace Span

def Owns (s : Span) (c : Nat) : Prop := s.start ≤ c ∧ c < s.start + s.len

instance (s : Span) (c : Nat) : Decidable (s.Owns c) :=
  inferInstanceAs (Decidable (s.start ≤ c ∧ c < s.start + s.len))

/-- One ends before the other starts. -/
def Apart (s t : Span) : Prop := s.start + s.len ≤ t.start ∨ t.start + t.len ≤ s.start

variable {s t : Span}

theorem Apart.symm (h : s.Apart t) : t.Apart s := Or.symm h

/-- A cell has one owner. -/
theorem Apart.not_owns {c : Nat} (h : s.Apart t) (hs : s.Owns c) : ¬ t.Owns c := by
  unfold Owns at *
  rcases h with h | h <;> omega

/-- A non-empty span owns its first cell. -/
theorem owns_start (h : 0 < s.len) : s.Owns s.start := ⟨Nat.le_refl _, by omega⟩

/-- Spans no cell of which is the other's are apart. -/
theorem apart_of_disjoint (hs : 0 < s.len) (ht : 0 < t.len) (h : ∀ c, s.Owns c → ¬ t.Owns c) :
    s.Apart t := by
  by_contra hnot
  simp only [Apart, not_or, Nat.not_le] at hnot
  refine h (max s.start t.start) ?_ ?_ <;> unfold Owns <;> omega

end Span

/-- There is room for spans of these lengths one after the other, each on the highest place
that is left for it. -/
def Fits (free : Nat → Bool) (size : Nat) : List Nat → Prop
  | [] => True
  | need :: rest => 0 < need ∧ ∃ i, IsGreatest (runs free size need) i ∧
      Fits (fun c => free c && !decide ((Span.mk i need).Owns c)) size rest

/-- Non-empty spans below `size` that share no cell. -/
structure Layout (size : Nat) where
  spans : List Span
  apart : spans.Pairwise Span.Apart
  pos : ∀ s ∈ spans, 0 < s.len
  inside : ∀ s ∈ spans, s.start + s.len ≤ size

namespace Layout

def empty (size : Nat) : Layout size where
  spans := []
  apart := .nil
  pos := fun _ h => by cases h
  inside := fun _ h => by cases h

variable {size : Nat} (L : Layout size)

/-- The table of the layout: a cell holds the length of the block it belongs to. -/
def cell (c : Nat) : Nat :=
  match L.spans.find? (fun s => s.Owns c) with
  | some s => s.len
  | none => 0

variable {L}

/-- Two blocks with a cell in common are one. -/
theorem owner_unique {s t : Span} (hs : s ∈ L.spans) (ht : t ∈ L.spans) {c : Nat} (hc : s.Owns c)
    (hc' : t.Owns c) : s = t := by
  by_contra hne
  have hsymm : Std.Symm Span.Apart := ⟨fun _ _ h => h.symm⟩
  exact (L.apart.forall hs ht hne).not_owns hc hc'

theorem cell_of_owns {s : Span} (hs : s ∈ L.spans) {c : Nat} (hc : s.Owns c) :
    L.cell c = s.len := by
  unfold cell
  cases hf : L.spans.find? (fun s => s.Owns c) with
  | none => exact absurd (decide_eq_true hc) (List.find?_eq_none.mp hf s hs)
  | some t =>
    have ht : t.Owns c := by simpa using List.find?_some hf
    rw [owner_unique hs (List.mem_of_find?_eq_some hf) hc ht]

theorem cell_of_free {c : Nat} (h : ∀ s ∈ L.spans, ¬ s.Owns c) : L.cell c = 0 := by
  unfold cell
  rw [List.find?_eq_none.mpr fun s hs hc => h s hs (of_decide_eq_true hc)]

/-- A cell is in use exactly when a block owns it. -/
theorem cell_ne_zero_iff {c : Nat} : L.cell c ≠ 0 ↔ ∃ s ∈ L.spans, s.Owns c := by
  constructor
  · intro h
    by_contra hno
    exact h (cell_of_free fun s hs hc => hno ⟨s, hs, hc⟩)
  · rintro ⟨s, hs, hc⟩
    rw [cell_of_owns hs hc]
    exact Nat.ne_of_gt (L.pos s hs)

/-- A cell holds at most the size of the table. -/
theorem cell_le (c : Nat) : L.cell c ≤ size := by
  by_cases h : ∃ s ∈ L.spans, s.Owns c
  · obtain ⟨s, hs, hc⟩ := h
    have hin := L.inside s hs
    rw [cell_of_owns hs hc]
    omega
  · rw [cell_of_free fun s hs hc => h ⟨s, hs, hc⟩]
    exact Nat.zero_le size

/-- One block more, on cells that are free. -/
def place (L : Layout size) (s : Span) (hpos : 0 < s.len) (hin : s.start + s.len ≤ size)
    (hfree : ∀ c, s.Owns c → L.cell c = 0) : Layout size where
  spans := s :: L.spans
  apart :=
    List.pairwise_cons.mpr ⟨fun t ht => Span.apart_of_disjoint hpos (L.pos t ht) fun c hc hc' =>
    cell_ne_zero_iff.mpr ⟨t, ht, hc'⟩ (hfree c hc), L.apart⟩
  pos := List.forall_mem_cons.mpr ⟨hpos, L.pos⟩
  inside := List.forall_mem_cons.mpr ⟨hin, L.inside⟩

theorem cell_place {s : Span} (hpos : 0 < s.len) (hin : s.start + s.len ≤ size)
    (hfree : ∀ c, s.Owns c → L.cell c = 0) (c : Nat) :
    (L.place s hpos hin hfree).cell c = if s.Owns c then s.len else L.cell c := by
  by_cases hc : s.Owns c
  · rw [if_pos hc]
    exact cell_of_owns List.mem_cons_self hc
  · rw [if_neg hc]
    by_cases h : ∃ t ∈ L.spans, t.Owns c
    · obtain ⟨t, ht, hc'⟩ := h
      rw [cell_of_owns ht hc']
      exact cell_of_owns (List.mem_cons_of_mem _ ht) hc'
    · rw [cell_of_free fun t ht hc' => h ⟨t, ht, hc'⟩]
      exact cell_of_free (List.forall_mem_cons.mpr ⟨hc, fun t ht hc' => h ⟨t, ht, hc'⟩⟩)

/-- The layout without one of its blocks. -/
def release (L : Layout size) (s : Span) : Layout size where
  spans := L.spans.filter (· ≠ s)
  apart := L.apart.filter _
  pos := fun t ht => L.pos t (List.mem_filter.mp ht).1
  inside := fun t ht => L.inside t (List.mem_filter.mp ht).1

theorem cell_release {s : Span} (hs : s ∈ L.spans) (c : Nat) :
    (L.release s).cell c = if s.Owns c then 0 else L.cell c := by
  have hmem : ∀ t, t ∈ (L.release s).spans ↔ t ∈ L.spans ∧ t ≠ s := by simp [release]
  by_cases hc : s.Owns c
  · rw [if_pos hc]
    refine cell_of_free fun t ht hc' => ?_
    obtain ⟨ht, hne⟩ := (hmem t).mp ht
    exact hne (owner_unique ht hs hc' hc)
  · rw [if_neg hc]
    by_cases h : ∃ t ∈ L.spans, t.Owns c
    · obtain ⟨t, ht, hc'⟩ := h
      have hne : t ≠ s := by
        rintro rfl
        exact hc hc'
      rw [cell_of_owns ht hc', cell_of_owns ((hmem t).mpr ⟨ht, hne⟩) hc']
    · rw [cell_of_free fun t ht hc' => h ⟨t, ht, hc'⟩]
      exact cell_of_free fun t ht hc' => h ⟨t, ((hmem t).mp ht).1, hc'⟩

end Layout

end Stm32F4.Lib
