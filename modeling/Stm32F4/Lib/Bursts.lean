import Mathlib.Data.List.Basic

/-! Bursts: what arrives without a pause.

Items arrive in intervals. One without any is a pause: it closes the burst that is
open and passes it on; one with items adds to it. `bursts cur cs` are the bursts that
the intervals `cs` close when `cur` is open before them. Nothing is lost or passed on
twice (`flatten_bursts`), and everything is passed on as a single burst exactly
when no pause falls between the first item and the last
(`bursts_eq_singleton_iff`). -/
namespace Stm32F4.Lib

variable {α : Type*}

/-- What is open after an interval. -/
def stillOpen (cur : List α) : List α → List α
  | [] => []
  | a :: c => cur ++ a :: c

/-- What an interval closes. -/
def closed : List α → List α → List (List α)
  | a :: cur, [] => [a :: cur]
  | _, _ => []

def bursts : List α → List (List α) → List (List α)
  | _, [] => []
  | cur, c :: cs => closed cur c ++ bursts (stillOpen cur c) cs

/-- No pause falls between the first item and the last; `cur` came before. -/
def Unbroken (cur : List α) (cs : List (List α)) : Prop :=
  ∀ a b, cs = a ++ [] :: b → cur ++ a.flatten = [] ∨ b.flatten = []

variable {cur : List α} {cs : List (List α)}

theorem closed_of_ne {c : List α} (hc : c ≠ []) : closed cur c = [] := by
  cases c with
  | nil => exact absurd rfl hc
  | cons a c => cases cur <;> rfl

theorem stillOpen_of_ne {c : List α} (hc : c ≠ []) : stillOpen cur c = cur ++ c := by
  cases c with
  | nil => exact absurd rfl hc
  | cons a c => rfl

theorem closed_pause (hcur : cur ≠ []) : closed cur [] = [cur] := by
  cases cur with
  | nil => exact absurd rfl hcur
  | cons a cur => rfl

/-- Nothing is lost and nothing is passed on twice. -/
theorem flatten_bursts (cur : List α) (cs : List (List α)) :
    (bursts cur cs).flatten ++ cs.foldl stillOpen cur = cur ++ cs.flatten := by
  induction cs generalizing cur with
  | nil => simp [bursts]
  | cons c rest ih =>
    have hstep : (closed cur c).flatten ++ stillOpen cur c = cur ++ c := by
      cases c <;> cases cur <;> simp [closed, stillOpen]
    simp only [bursts, List.flatten_append, List.foldl_cons, List.flatten_cons, List.append_assoc,
      ih]
    rw [← List.append_assoc, hstep, List.append_assoc]

/-- Pauses alone close nothing. -/
theorem bursts_of_flatten_eq_nil (h : cs.flatten = []) : bursts [] cs = [] := by
  induction cs with
  | nil => rfl
  | cons c rest ih =>
    obtain ⟨rfl, hrest⟩ : c = [] ∧ rest.flatten = [] := by simpa using h
    exact ih hrest

/-- A pause at the end leaves nothing open. -/
theorem foldl_paused (cur : List α) (cs : List (List α)) (n : Nat) :
    (cs ++ List.replicate (n + 1) []).foldl stillOpen cur = [] := by
  rw [List.replicate_succ', ← List.append_assoc, List.foldl_append]
  rfl

theorem flatten_bursts_paused (cur : List α) (cs : List (List α)) (n : Nat) :
    (bursts cur (cs ++ List.replicate (n + 1) [])).flatten = cur ++ cs.flatten := by
  have hall := flatten_bursts cur (cs ++ List.replicate (n + 1) [])
  rw [foldl_paused] at hall
  simpa using hall

theorem unbroken_pause (cs : List (List α)) : Unbroken cur ([] :: cs) ↔
    (cur = [] ∧ Unbroken [] cs) ∨ (cur ≠ [] ∧ cs.flatten = []) := by
  constructor
  · intro h
    by_cases hcur : cur = []
    · subst hcur
      refine .inl ⟨rfl, fun a b hab => ?_⟩
      have hsplit := h ([] :: a) b (by rw [hab]; rfl)
      simpa using hsplit
    · have hfirst := h [] cs rfl
      rw [List.flatten_nil, List.append_nil] at hfirst
      exact .inr ⟨hcur, hfirst.resolve_left hcur⟩
  · rintro (⟨rfl, h⟩ | ⟨-, hnil⟩) a b hab
    · cases a with
      | nil => exact .inl rfl
      | cons c a =>
        obtain ⟨rfl, hcs⟩ : [] = c ∧ cs = a ++ [] :: b := by simpa using hab
        exact h a b hcs
    · refine .inr ?_
      cases a with
      | nil =>
        obtain rfl : cs = b := by simpa using hab
        exact hnil
      | cons c a =>
        obtain ⟨-, rfl⟩ : [] = c ∧ cs = a ++ [] :: b := by simpa using hab
        simp only [List.flatten_append, List.flatten_cons, List.append_eq_nil_iff] at hnil
        exact hnil.2.2

theorem unbroken_cons {c : List α} (hc : c ≠ []) (cs : List (List α)) :
    Unbroken cur (c :: cs) ↔ Unbroken (cur ++ c) cs := by
  constructor
  · intro h a b hab
    have hsplit := h (c :: a) b (by rw [hab]; rfl)
    simpa using hsplit
  · intro h a b hab
    cases a with
    | nil =>
      obtain ⟨rfl, -⟩ : c = [] ∧ cs = b := by simpa using hab
      exact absurd rfl hc
    | cons c' a =>
      obtain ⟨rfl, hcs⟩ : c = c' ∧ cs = a ++ [] :: b := by simpa using hab
      have hsplit := h a b hcs
      simpa using hsplit

/-- Followed by at least one pause, everything goes out as one burst when it is unbroken,
and only then. -/
theorem bursts_eq_singleton_iff (n : Nat) (hne : cur ++ cs.flatten ≠ []) :
    bursts cur (cs ++ List.replicate (n + 1) []) = [cur ++ cs.flatten] ↔ Unbroken cur cs := by
  induction cs generalizing cur with
  | nil =>
    have hcur : cur ≠ [] := by simpa using hne
    have hrest : bursts (α := α) [] (List.replicate n []) = [] := bursts_of_flatten_eq_nil (by simp)
    refine ⟨fun _ a b hab => by simp at hab, fun _ => ?_⟩
    rw [List.nil_append, List.replicate_succ, bursts, closed_pause hcur]
    simp [stillOpen, hrest]
  | cons c cs ih =>
    by_cases hc : c = []
    · subst hc
      rw [unbroken_pause, List.cons_append, bursts]
      by_cases hcur : cur = []
      · subst hcur
        have hne' : [] ++ cs.flatten ≠ [] := by simpa using hne
        simpa [closed, stillOpen] using ih hne'
      · -- the pause closes `cur`, so nothing may follow
        rw [closed_pause hcur, stillOpen]
        have hall := flatten_bursts_paused [] cs n
        constructor
        · intro h
          have hnil : bursts [] (cs ++ List.replicate (n + 1) []) = [] := (List.cons.inj h).2
          rw [hnil] at hall
          exact .inr ⟨hcur, by simpa using hall.symm⟩
        · rintro (⟨hnil, -⟩ | ⟨-, hnil⟩)
          · exact absurd hnil hcur
          · have hrest : bursts [] (cs ++ List.replicate (n + 1) []) = [] :=
              bursts_of_flatten_eq_nil (by simp [hnil])
            simp [hrest, hnil]
    · rw [unbroken_cons hc, List.cons_append, bursts, closed_of_ne hc, stillOpen_of_ne hc,
        List.nil_append, List.flatten_cons, ← List.append_assoc]
      exact ih (by simpa using hne)

end Stm32F4.Lib
