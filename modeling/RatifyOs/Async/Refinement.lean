import RatifyOs.Async.System

/-! A system whose effects are answered by more state is a system whose effects are
answered at will, seen through a view that forgets that state. -/
namespace RatifyOs.Async

variable {Op : Type} {Ans : Op → Type} {ε σ τ κ χ υ : Type}

structure Refinement (concrete : System Op Ans ε τ κ υ) (abstract : System Op Ans ε σ κ χ) (view : τ → σ) :
    Prop where
  program : ∀ call, concrete.program call = abstract.program call
  handle : ∀ choice op s, ∃ choice', abstract.handle choice' op (view s) =
    ((concrete.handle choice op s).1,view (concrete.handle choice op s).2)
  ambient : ∀ choice s, ∃ choice', abstract.ambient choice' (view s) = view (concrete.ambient choice s)
  restart : ∀ s, abstract.restart (view s) = view (concrete.restart s)

def Config.view (f : τ → σ) (c : Config Op Ans ε τ) : Config Op Ans ε σ :=
  { state := f c.state, threads := c.threads, count := c.count, trace := c.trace }

namespace Refinement
variable {concrete : System Op Ans ε τ κ υ} {abstract : System Op Ans ε σ κ χ} {f : τ → σ}

theorem step [Inhabited χ] (refines : Refinement concrete abstract f) (c : Config Op Ans ε τ) (event : Event κ υ) :
    ∃ event', abstract.step (c.view f) event' = (concrete.step c event).view f := by
  cases event with
  | start call =>
    refine ⟨.start call,?_⟩
    simp [System.step,Config.view,refines.program]
  | perform i choice =>
    rcases concrete.perform_cases c i choice with ⟨op,next,history,here⟩ | idle
    · obtain ⟨choice',same⟩ := refines.handle choice op c.state
      refine ⟨.perform i choice',?_⟩
      have here' : (c.view f).threads i = some ⟨.perform op next,history⟩ := here
      rw [concrete.perform_eq here,abstract.perform_eq here']
      simp [Config.view,same]
    · refine ⟨.perform i default,?_⟩
      rw [idle]
      rcases abstract.perform_cases (c.view f) i default with ⟨op,next,history,here⟩ | idle'
      · have here' : c.threads i = some ⟨.perform op next,history⟩ := here
        have grown := congrArg Config.trace (concrete.perform_eq here' choice)
        rw [idle] at grown
        simp at grown
      · exact idle'
  | ambient choice =>
    obtain ⟨choice',same⟩ := refines.ambient choice c.state
    exact ⟨.ambient choice',by simp [System.step,Config.view,same]⟩
  | crash =>
    refine ⟨.crash,?_⟩
    simp [System.step,Config.view,refines.restart]

theorem run [Inhabited χ] (refines : Refinement concrete abstract f) (c : Config Op Ans ε τ)
    (events : List (Event κ υ)) : ∃ events', abstract.run (c.view f) events' = (concrete.run c events).view f := by
  induction events generalizing c with
  | nil => exact ⟨[],rfl⟩
  | cons event events ih =>
    obtain ⟨event',stepped⟩ := refines.step c event
    obtain ⟨events',rest⟩ := ih (concrete.step c event)
    exact ⟨event' :: events',by rw [System.run_cons,stepped,rest,System.run_cons]⟩

end Refinement

end RatifyOs.Async
