import Mathlib.Tactic.Common

/-! Runs of steps one after the other, what holds in every state on the way, and
which steps keep it so. -/

namespace Foundation.Runs

variable {σ χ : Type} (step : σ → χ → σ)

/-- The property holds in every state of the run, the first and the last included. -/
def Always (property : σ → Prop) : σ → List χ → Prop
  | state, [] => property state
  | state, taken :: rest => property state ∧ Always property (step state taken) rest

/-- Every step of the run meets the condition in the state it is taken in. -/
def Meets (condition : σ → χ → Prop) : σ → List χ → Prop
  | _, [] => True
  | state, taken :: rest => condition state taken ∧ Meets condition (step state taken) rest

variable {step}
variable {run : List χ} {state : σ}

theorem Meets.and {first second : σ → χ → Prop} (meets : Meets step first state run)
    (meets' : Meets step second state run) : Meets step (fun state taken => first state taken ∧ second state taken) state run := by
  induction run generalizing state with
  | nil => trivial
  | cons taken rest ih => exact ⟨⟨meets.1, meets'.1⟩, ih meets.2 meets'.2⟩

variable {invariant : σ → Prop} {condition : σ → χ → Prop}

/-- The property holds all along if and only if all steps meet the condition,
where the condition says exactly which single steps lead to the property. -/
theorem always_iff_meets {given : σ → χ → Prop} {property : σ → Prop}
    (holds : ∀ state, invariant state → property state)
    (kept : ∀ state taken, invariant state → given state taken → condition state taken → invariant (step state taken))
    (lost : ∀ state taken, invariant state → given state taken → property (step state taken) → condition state taken)
    (start : invariant state) (assumed : Meets step given state run) :
    Always step property state run ↔ Meets step condition state run := by
  induction run generalizing state with
  | nil => exact ⟨fun _ => trivial, fun _ => holds state start⟩
  | cons taken rest ih =>
    have first : ∀ later : List χ, Always step property (step state taken) later → property (step state taken) := by
      intro later always
      cases later with
      | nil => exact always
      | cons _ _ => exact always.1
    constructor
    · intro always
      have meets := lost state taken start assumed.1 (first rest always.2)
      exact ⟨meets, (ih (kept state taken start assumed.1 meets) assumed.2).mp always.2⟩
    · intro meets
      exact ⟨holds state start, (ih (kept state taken start assumed.1 meets.1) assumed.2).mpr meets.2⟩

/-- The property holds all along a run whose steps keep an invariant. -/
theorem always_of_meets {property : σ → Prop} (holds : ∀ state, invariant state → property state)
    (kept : ∀ state taken, invariant state → condition state taken → invariant (step state taken))
    (start : invariant state) (meets : Meets step condition state run) :
    Always step property state run := by
  induction run generalizing state with
  | nil => exact holds state start
  | cons taken rest ih => exact ⟨holds state start, ih (kept state taken start meets.1) meets.2⟩

/-- What every step of a run guarantees, where each keeps an invariant. -/
theorem Meets.guaranteed {guarantee : σ → χ → Prop}
    (kept : ∀ state taken, invariant state → condition state taken → guarantee state taken ∧ invariant (step state taken))
    (start : invariant state) (meets : Meets step condition state run) :
    Meets step guarantee state run := by
  induction run generalizing state with
  | nil => trivial
  | cons taken rest ih =>
    obtain ⟨guaranteed, next⟩ := kept state taken start meets.1
    exact ⟨guaranteed, ih next meets.2⟩

/-- An invariant that every step keeps holds where the run ends. -/
theorem Meets.last (kept : ∀ state taken, invariant state → condition state taken → invariant (step state taken))
    (start : invariant state) (meets : Meets step condition state run) :
    invariant (run.foldl step state) := by
  induction run generalizing state with
  | nil => exact start
  | cons taken rest ih => exact ih (kept state taken start meets.1) meets.2

end Foundation.Runs
