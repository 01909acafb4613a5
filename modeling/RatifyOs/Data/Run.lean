/-! Runs of a deterministic machine over the events that happen to it. -/
namespace RatifyOs.Data.Run

variable {σ ε : Type} (step : σ → ε → σ)

def run (s : σ) (events : List ε) : σ := events.foldl step s

/-- Every step of the run meets a condition on the state before it. -/
def Meets (condition : σ → ε → Prop) : σ → List ε → Prop
  | _, [] => True
  | s, event :: events => condition s event ∧ Meets condition (step s event) events

instance Meets.decidable (condition : σ → ε → Prop) [∀ s event, Decidable (condition s event)] :
    ∀ s events, Decidable (Meets step condition s events)
  | _, [] => inferInstanceAs (Decidable True)
  | s, event :: events =>
    have := Meets.decidable condition (step s event) events
    inferInstanceAs (Decidable (_ ∧ _))

variable {step} {condition : σ → ε → Prop}

theorem run_append (s : σ) (first second : List ε) : run step s (first ++ second) = run step (run step s first) second :=
  List.foldl_append

theorem Meets.of_append {s : σ} {first second : List ε} (meets : Meets step condition s (first ++ second)) :
    Meets step condition s first ∧ Meets step condition (run step s first) second := by
  induction first generalizing s with
  | nil => exact ⟨trivial,meets⟩
  | cons event events ih =>
    obtain ⟨here,rest⟩ := meets
    obtain ⟨before,after⟩ := ih rest
    exact ⟨⟨here,before⟩,after⟩

theorem Meets.mono {weaker : σ → ε → Prop} (implies : ∀ s event, condition s event → weaker s event) {s : σ}
    {events : List ε} (meets : Meets step condition s events) : Meets step weaker s events := by
  induction events generalizing s with
  | nil => trivial
  | cons event events ih => exact ⟨implies s event meets.1,ih meets.2⟩

/-- A condition on the events alone. -/
theorem Meets.of_forall {condition : ε → Prop} {events : List ε} (all : ∀ event ∈ events, condition event) (s : σ) :
    Meets step (fun _ event => condition event) s events := by
  induction events generalizing s with
  | nil => trivial
  | cons event events ih => exact ⟨all event (.head _),ih (fun event inside => all event (.tail _ inside)) _⟩

theorem invariant {I : σ → Prop} (keeps : ∀ s event, condition s event → I s → I (step s event)) {s : σ} (holds : I s)
    {events : List ε} (meets : Meets step condition s events) : I (run step s events) := by
  induction events generalizing s with
  | nil => exact holds
  | cons event events ih => exact ih (keeps s event meets.1 holds) meets.2

/-- A condition that implies another in the states of an invariant implies it along a run. -/
theorem Meets.within {I : σ → Prop} {other : σ → ε → Prop}
    (keeps : ∀ s event, condition s event → I s → I (step s event))
    (implies : ∀ s event, condition s event → I s → other s event) {s : σ} (holds : I s) {events : List ε}
    (meets : Meets step condition s events) : Meets step other s events := by
  induction events generalizing s with
  | nil => trivial
  | cons event events ih => exact ⟨implies s event meets.1 holds,ih (keeps s event meets.1 holds) meets.2⟩

/-- What only a step that breaks the condition spoils, and nothing mends. -/
theorem lasting_iff {A : σ → Prop} (lasts : ∀ s event, A (step s event) ↔ A s ∧ condition s event) (s : σ)
    (events : List ε) : A (run step s events) ↔ A s ∧ Meets step condition s events := by
  induction events generalizing s with
  | nil => exact (and_iff_left trivial).symm
  | cons event events ih => exact (ih _).trans (by rw [lasts,Meets,and_assoc])

end RatifyOs.Data.Run
