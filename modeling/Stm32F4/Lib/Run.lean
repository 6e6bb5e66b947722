import Mathlib.Data.List.Basic
import Mathlib.Tactic.Tauto

/-! Runs of a machine and conditions along them.

A machine is a total step on events, `step : S → E → S`, and a run is the fold
of a list of events. `Along step ok s es` says that every event of the run met
`ok` in the state it was served in. What holds initially and is kept by every
step that met the condition holds after every such run (`Along.invariant`), and
a run that does not meet its condition has a first event that breaks it
(`exists_first`). -/
namespace Stm32F4.Lib

variable {S E : Type*} (step : S → E → S)

/-- Every event of the run meets `ok` in the state it is served in. -/
def Along (ok : S → E → Prop) : S → List E → Prop
  | _, [] => True
  | s, e :: es => ok s e ∧ Along ok (step s e) es

variable {step} {ok ok' : S → E → Prop}

@[simp] theorem along_nil (s : S) : Along step ok s [] := trivial

@[simp] theorem along_cons (s : S) (e : E) (es : List E) :
    Along step ok s (e :: es) ↔ ok s e ∧ Along step ok (step s e) es := Iff.rfl

instance Along.decide [∀ s e, Decidable (ok s e)] : (s : S) → (es : List E) →
    Decidable (Along step ok s es)
  | _, [] => inferInstanceAs (Decidable True)
  | s, e :: es =>
    have := Along.decide (step s e) es
    inferInstanceAs (Decidable (ok s e ∧ Along step ok (step s e) es))

theorem along_append (s : S) (a b : List E) :
    Along step ok s (a ++ b) ↔ Along step ok s a ∧ Along step ok (a.foldl step s) b := by
  induction a generalizing s with
  | nil => simp
  | cons e rest ih => simp [ih, and_assoc]

/-- What every step that meets the condition keeps holds after every run that does. -/
theorem Along.invariant {I : S → Prop} (hstep : ∀ s e, I s → ok s e → I (step s e)) {s : S}
    {es : List E} (h : Along step ok s es) (hs : I s) : I (es.foldl step s) := by
  induction es generalizing s with
  | nil => exact hs
  | cons e rest ih => exact ih h.2 (hstep s e hs h.1)

/-- A relation to another machine that every step keeps holds after every run. -/
theorem Along.simulation {T : Type*} {step' : T → E → T} {R : S → T → Prop}
    (hstep : ∀ s t e, R s t → ok s e → R (step s e) (step' t e)) {s : S} {t : T} {es : List E}
    (h : Along step ok s es) (hs : R s t) : R (es.foldl step s) (es.foldl step' t) := by
  induction es generalizing s t with
  | nil => exact hs
  | cons e rest ih => exact ih h.2 (hstep s t e hs h.1)

/-- A prefix of such a run is one too. -/
theorem Along.take {s : S} {es : List E} (h : Along step ok s es) (n : Nat) :
    Along step ok s (es.take n) := by
  rw [← List.take_append_drop n es, along_append] at h
  exact h.1

/-- Under an invariant one condition may be exchanged for an equivalent one. -/
theorem along_congr {I : S → Prop} (hstep : ∀ s e, I s → ok s e → I (step s e))
    (hiff : ∀ s e, I s → (ok s e ↔ ok' s e)) {s : S} (hs : I s) (es : List E) :
    Along step ok s es ↔ Along step ok' s es := by
  induction es generalizing s with
  | nil => simp
  | cons e rest ih =>
    constructor
    · intro ⟨he, hrest⟩
      exact ⟨(hiff s e hs).1 he, (ih (hstep s e hs he)).1 hrest⟩
    · intro ⟨he, hrest⟩
      have he' := (hiff s e hs).2 he
      exact ⟨he', (ih (hstep s e hs he')).2 hrest⟩

/-- Under an invariant a condition may be weakened. -/
theorem Along.imp {I : S → Prop} (hstep : ∀ s e, I s → ok s e → I (step s e))
    (himp : ∀ s e, I s → ok s e → ok' s e) {s : S} {es : List E} (h : Along step ok s es)
    (hs : I s) :
    Along step ok' s es := by
  induction es generalizing s with
  | nil => trivial
  | cons e rest ih => exact ⟨himp s e hs h.1, ih h.2 (hstep s e hs h.1)⟩

/-- A condition that every event meets on its own is met along every run of such events. -/
theorem along_of_forall {p : E → Prop} (s : S) {es : List E} (h : ∀ e ∈ es, p e) :
    Along step (fun _ e => p e) s es := by
  induction es generalizing s with
  | nil => trivial
  | cons e rest ih =>
    exact ⟨h e List.mem_cons_self, ih _ fun e he => h e (List.mem_cons_of_mem _ he)⟩

theorem along_and {s : S} {es : List E} :
    Along step (fun s e => ok s e ∧ ok' s e) s es ↔ Along step ok s es ∧ Along step ok' s es := by
  induction es generalizing s with
  | nil => simp
  | cons e rest ih =>
    rw [along_cons, along_cons, along_cons, ih]
    tauto

theorem Along.and {s : S} {es : List E} (h : Along step ok s es) (h' : Along step ok' s es) :
    Along step (fun s e => ok s e ∧ ok' s e) s es := along_and.mpr ⟨h, h'⟩

/-- What holds of every state a run reaches, first and last included. -/
theorem forall_take_iff {P : S → Prop} {s : S} {es : List E} :
    (∀ n, P ((es.take n).foldl step s)) ↔ P s ∧ Along step (fun s e => P (step s e)) s es := by
  induction es generalizing s with
  | nil => simp
  | cons e rest ih =>
    rw [along_cons, ← ih]
    constructor
    · intro h
      exact ⟨h 0, fun n => h (n + 1)⟩
    · intro ⟨h0, h⟩ n
      cases n with
      | zero => exact h0
      | succ n => exact h n

/-- A run that breaks its condition has a first event that breaks it. -/
theorem exists_first {s : S} {es : List E} (h : ¬ Along step ok s es) :
    ∃ a e b, es = a ++ e :: b ∧ Along step ok s a ∧ ¬ ok (a.foldl step s) e := by
  induction es generalizing s with
  | nil => exact absurd trivial h
  | cons e rest ih =>
    by_cases he : ok s e
    · have hrest : ¬ Along step ok (step s e) rest := fun hr => h ⟨he, hr⟩
      obtain ⟨a, e', b, rfl, ha, hb⟩ := ih hrest
      exact ⟨e :: a, e', b, rfl, ⟨he, ha⟩, hb⟩
    · exact ⟨[], e, rest, rfl, trivial, he⟩

/-! ### Sums along a run -/

/-- What the steps of the run yield, summed up. -/
def yield (step : S → E → S) (f : S → E → Nat) : S → List E → Nat
  | _, [] => 0
  | s, e :: es => f s e + yield step f (step s e) es

@[simp] theorem yield_nil (f : S → E → Nat) (s : S) : yield step f s [] = 0 := rfl

@[simp] theorem yield_cons (f : S → E → Nat) (s : S) (e : E) (es : List E) :
    yield step f s (e :: es) = f s e + yield step f (step s e) es := rfl

theorem yield_append (f : S → E → Nat) (s : S) (a b : List E) :
    yield step f s (a ++ b) = yield step f s a + yield step f (a.foldl step s) b := by
  induction a generalizing s with
  | nil => simp
  | cons e rest ih => simp [ih, Nat.add_assoc]

theorem yield_mul (n : Nat) (f : S → E → Nat) (s : S) (es : List E) :
    yield step (fun s e => n * f s e) s es = n * yield step f s es := by
  induction es generalizing s with
  | nil => rfl
  | cons e rest ih => rw [yield_cons, yield_cons, ih, Nat.mul_add]

theorem yield_add (f g : S → E → Nat) (s : S) (es : List E) :
    yield step (fun s e => f s e + g s e) s es = yield step f s es + yield step g s es := by
  induction es generalizing s with
  | nil => rfl
  | cons e rest ih =>
    rw [yield_cons, yield_cons, yield_cons, ih]
    omega

theorem yield_zero (s : S) (es : List E) : yield step (fun _ _ => 0) s es = 0 := by
  induction es generalizing s with
  | nil => rfl
  | cons e rest ih => rw [yield_cons, ih]

/-- A potential pays for what the steps yield: no run yields more than it has put in, and what the
potential was at first. -/
theorem Along.yield_add_le {I : S → Prop} {f g : S → E → Nat} {φ : S → Nat}
    (hstep : ∀ s e, I s → ok s e → I (step s e) ∧ f s e + φ (step s e) ≤ φ s + g s e) {s : S}
    {es : List E}
    (h : Along step ok s es) (hs : I s) :
    yield step f s es + φ (es.foldl step s) ≤ φ s + yield step g s es := by
  induction es generalizing s with
  | nil => simp
  | cons e rest ih =>
    obtain ⟨hnext, hle⟩ := hstep s e hs h.1
    have hrest := ih h.2 hnext
    rw [yield_cons, yield_cons, List.foldl_cons]
    omega

/-! ### The states a kind of event was served in -/

/-- The states in which the run served an event that meets `p`, in order. -/
def visits (step : S → E → S) (p : S → E → Bool) : S → List E → List S
  | _, [] => []
  | s, e :: es => if p s e then s :: visits step p (step s e) es else visits step p (step s e) es

/-- What a step keeps of the state and of the last visit, the run keeps. -/
theorem Along.visits_invariant {p : S → E → Bool} {I : Option S → S → Prop}
    (hstep : ∀ o s e, I o s → ok s e → I (if p s e then some s else o) (step s e))
    {o : Option S} {s : S}
    {es : List E} (h : Along step ok s es) (hs : I o s) :
    I ((visits step p s es).getLast?.or o) (es.foldl step s) := by
  induction es generalizing o s with
  | nil => exact hs
  | cons e rest ih =>
    have hrest := ih h.2 (hstep o s e hs h.1)
    rw [visits, List.foldl_cons]
    by_cases he : p s e = true
    · rw [if_pos he] at hrest ⊢
      rw [List.getLast?_cons]
      cases hl : (visits step p (step s e) rest).getLast? with
      | none => simpa [hl] using hrest
      | some v => simpa [hl] using hrest
    · rw [if_neg he] at hrest ⊢
      exact hrest

end Stm32F4.Lib
