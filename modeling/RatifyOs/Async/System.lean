import RatifyOs.Async.Program
import Mathlib.Data.Nat.Notation

/-! Any number of async calls over one shared state, interleaved at every effect, with
crashes. A run is the list of what happened; the environment's part is in its choices. -/
namespace RatifyOs.Async

variable {Op : Type} {Ans : Op → Type} {ε σ κ χ : Type}

/-- The calls that can be made, what an effect does to the shared state under the
environment's choice, and what survives a restart. -/
structure System (Op : Type) (Ans : Op → Type) (ε σ κ χ : Type) where
  program : κ → Program Op Ans ε Unit
  handle : χ → (op : Op) → σ → Except ε (Ans op) × σ
  ambient : χ → σ → σ
  restart : σ → σ

/-- A call in flight, or finished, with what it has done. -/
structure Thread (Op : Type) (Ans : Op → Type) (ε : Type) where
  program : Program Op Ans ε Unit
  history : History Op Ans ε

/-- Threads keep their number for ever; `trace` is what all of them did, newest first,
and outlives a crash. -/
structure Config (Op : Type) (Ans : Op → Type) (ε σ : Type) where
  state : σ
  threads : ℕ → Option (Thread Op Ans ε)
  count : ℕ
  trace : History Op Ans ε

inductive Event (κ χ : Type) where
  | start (call : κ)
  | perform (thread : ℕ) (choice : χ)
  | ambient (choice : χ)
  | crash

def Config.initial (state : σ) : Config Op Ans ε σ := ⟨state,fun _ => none,0,[]⟩

namespace System

variable (s : System Op Ans ε σ κ χ)

def perform (c : Config Op Ans ε σ) (i : ℕ) (choice : χ) : Config Op Ans ε σ :=
  match c.threads i with
  | some ⟨.perform op next,history⟩ =>
    let result := s.handle choice op c.state
    { c with
      state := result.2
      threads := Function.update c.threads i (some ⟨next result.1,⟨op,result.1⟩ :: history⟩)
      trace := ⟨op,result.1⟩ :: c.trace }
  | _ => c

def step (c : Config Op Ans ε σ) : Event κ χ → Config Op Ans ε σ
  | .start call =>
    { c with
      threads := Function.update c.threads c.count (some ⟨s.program call,[]⟩)
      count := c.count + 1 }
  | .perform i choice => s.perform c i choice
  | .ambient choice => { c with state := s.ambient choice c.state }
  | .crash => { c with state := s.restart c.state, threads := fun _ => none }

def run (c : Config Op Ans ε σ) (events : List (Event κ χ)) : Config Op Ans ε σ :=
  events.foldl s.step c

@[simp] theorem run_nil (c : Config Op Ans ε σ) : s.run c [] = c := rfl

@[simp] theorem run_cons (c : Config Op Ans ε σ) (event : Event κ χ) (events : List (Event κ χ)) :
    s.run c (event :: events) = s.run (s.step c event) events := rfl

theorem run_append (c : Config Op Ans ε σ) (first second : List (Event κ χ)) :
    s.run c (first ++ second) = s.run (s.run c first) second := List.foldl_append

/-- Every step of the run meets a condition on the state before it. -/
def Meets (condition : Config Op Ans ε σ → Event κ χ → Prop) :
    Config Op Ans ε σ → List (Event κ χ) → Prop
  | _, [] => True
  | c, event :: events => condition c event ∧ Meets condition (s.step c event) events

instance decidableMeets (condition : Config Op Ans ε σ → Event κ χ → Prop)
    [∀ c event, Decidable (condition c event)] :
    ∀ (c : Config Op Ans ε σ) events, Decidable (s.Meets condition c events)
  | _, [] => isTrue trivial
  | c, event :: events =>
    have := decidableMeets condition (s.step c event) events
    inferInstanceAs (Decidable (condition c event ∧ s.Meets condition (s.step c event) events))

theorem meets_mono {weaker stronger : Config Op Ans ε σ → Event κ χ → Prop}
    (implies : ∀ c event, stronger c event → weaker c event) {c : Config Op Ans ε σ}
    {events : List (Event κ χ)} (meets : s.Meets stronger c events) : s.Meets weaker c events := by
  induction events generalizing c with
  | nil => trivial
  | cons event events ih => exact ⟨implies c event meets.1,ih meets.2⟩

theorem meets_append (condition : Config Op Ans ε σ → Event κ χ → Prop)
    (first second : List (Event κ χ)) (c : Config Op Ans ε σ) :
    s.Meets condition c (first ++ second) ↔
      s.Meets condition c first ∧ s.Meets condition (s.run c first) second := by
  induction first generalizing c with
  | nil => simp [Meets]
  | cons event events ih => simp [Meets,ih,and_assoc]

theorem meets_of_forall {condition : Config Op Ans ε σ → Event κ χ → Prop}
    (always : ∀ c event, condition c event) (c : Config Op Ans ε σ) (events : List (Event κ χ)) :
    s.Meets condition c events := by
  induction events generalizing c with
  | nil => trivial
  | cons event events ih => exact ⟨always c event,ih _⟩

theorem perform_eq {c : Config Op Ans ε σ} {i : ℕ} {op : Op}
    {next : Except ε (Ans op) → Program Op Ans ε Unit} {history : History Op Ans ε}
    (here : c.threads i = some ⟨.perform op next,history⟩) (choice : χ) :
    s.step c (.perform i choice) =
      { c with
        state := (s.handle choice op c.state).2
        threads := Function.update c.threads i
          (some ⟨next (s.handle choice op c.state).1,⟨op,(s.handle choice op c.state).1⟩ :: history⟩)
        trace := ⟨op,(s.handle choice op c.state).1⟩ :: c.trace } := by
  simp [step,perform,here]

/-- A step of a thread performs its next effect, or there is none and nothing changes. -/
theorem perform_cases (c : Config Op Ans ε σ) (i : ℕ) (choice : χ) :
    (∃ op next history, c.threads i = some ⟨.perform op next,history⟩) ∨
      s.step c (.perform i choice) = c := by
  cases found : c.threads i with
  | none => exact .inr (by simp [step,perform,found])
  | some thread =>
    obtain ⟨program,history⟩ := thread
    cases program with
    | pure value => exact .inr (by simp [step,perform,found])
    | throw error => exact .inr (by simp [step,perform,found])
    | perform op next => exact .inl ⟨op,next,history,rfl⟩

/-- A thread after an update is the one that is put there, or was there before. -/
theorem thread_updated {threads : ℕ → Option (Thread Op Ans ε)} {i j : ℕ} {t u : Thread Op Ans ε}
    (found : Function.update threads i (some u) j = some t) : (j = i ∧ t = u) ∨ (j ≠ i ∧ threads j = some t) := by
  by_cases same : j = i
  · subst same
    rw [Function.update_self,Option.some.injEq] at found
    exact .inl ⟨rfl,found.symm⟩
  · rw [Function.update_of_ne same] at found
    exact .inr ⟨same,found⟩

/-- Where a thread of the configuration after a step comes from. -/
inductive ThreadStep (c : Config Op Ans ε σ) (event : Event κ χ) (j : ℕ) (t : Thread Op Ans ε) : Prop where
  | started (call) (started : event = .start call) (fresh : t = ⟨s.program call,[]⟩)
  | resumed (choice op next history) (performed : event = .perform j choice)
      (here : c.threads j = some ⟨.perform op next,history⟩)
      (after : t = ⟨next (s.handle choice op c.state).1,⟨op,(s.handle choice op c.state).1⟩ :: history⟩)
  | kept (found : c.threads j = some t) (other : ∀ i choice op next history, event = .perform i choice →
      c.threads i = some ⟨.perform op next,history⟩ → j ≠ i)

theorem thread_of_step {c : Config Op Ans ε σ} {event : Event κ χ} {j : ℕ} {t : Thread Op Ans ε}
    (found : (s.step c event).threads j = some t) : s.ThreadStep c event j t := by
  cases event with
  | start call =>
    by_cases same : j = c.count
    · subst same
      simp only [step,Function.update_self,Option.some.injEq] at found
      exact .started call rfl found.symm
    · simp only [step,Function.update_of_ne same] at found
      exact .kept found fun _ _ _ _ _ performed => by cases performed
  | perform i choice =>
    rcases s.perform_cases c i choice with ⟨op,next,history,here⟩ | idle
    · rw [s.perform_eq here] at found
      rcases thread_updated found with ⟨rfl,resumed⟩ | ⟨other,there⟩
      · exact .resumed choice op next history rfl here resumed
      · refine .kept there fun _ _ _ _ _ performed _ => ?_
        cases performed
        exact other
    · rw [idle] at found
      refine .kept found fun _ _ _ _ _ performed here => ?_
      cases performed
      have grown := congrArg Config.trace (s.perform_eq here choice)
      rw [idle] at grown
      simp at grown
  | ambient choice => exact .kept found fun _ _ _ _ _ performed => by cases performed
  | crash => simp [step] at found

theorem trace_of_step (c : Config Op Ans ε σ) (event : Event κ χ) :
    (s.step c event).trace = c.trace ∨ ∃ i choice op next history, event = .perform i choice ∧
      c.threads i = some ⟨.perform op next,history⟩ ∧
      (s.step c event).trace = ⟨op,(s.handle choice op c.state).1⟩ :: c.trace ∧
      (s.step c event).state = (s.handle choice op c.state).2 := by
  cases event with
  | start call => exact .inl rfl
  | ambient choice => exact .inl rfl
  | crash => exact .inl rfl
  | perform i choice =>
    rcases s.perform_cases c i choice with ⟨op,next,history,here⟩ | idle
    · refine .inr ⟨i,choice,op,next,history,rfl,here,?_⟩
      rw [s.perform_eq here]
      exact ⟨rfl,rfl⟩
    · exact .inl (by rw [idle])

section Invariants
variable {allow : History Op Ans ε → Op → Prop} {Q : History Op Ans ε → Prop}

/-- Every call in flight obeys the discipline from where it stands, and what it has
done is in the trace. -/
def Obeys (allow : History Op Ans ε → Op → Prop) (Q : History Op Ans ε → Prop)
    (c : Config Op Ans ε σ) : Prop :=
  ∀ i thread, c.threads i = some thread →
    thread.program.wp allow (fun _ => Q) (fun _ => Q) thread.history ∧
      thread.history ⊆ c.trace

/-- The discipline is a property of the programs alone, so every step keeps it. -/
theorem obeys_step (programs : ∀ call, (s.program call).wp allow (fun _ => Q) (fun _ => Q) [])
    (c : Config Op Ans ε σ) (event : Event κ χ) (obeys : Obeys allow Q c) :
    Obeys allow Q (s.step c event) := by
  cases event with
  | start call =>
    intro i thread found
    by_cases same : i = c.count
    · subst same
      simp only [step,Function.update_self,Option.some.injEq] at found
      subst found
      exact ⟨programs call,List.nil_subset _⟩
    · simp only [step,Function.update_of_ne same] at found
      exact obeys i thread found
  | perform i choice =>
    rcases s.perform_cases c i choice with ⟨op,next,history,here⟩ | idle
    · rw [s.perform_eq here]
      intro j thread found
      rcases thread_updated found with ⟨rfl,rfl⟩ | ⟨_,there⟩
      · have before := obeys j _ here
        exact ⟨before.1.2 _,List.cons_subset_cons _ before.2⟩
      · have before := obeys j thread there
        exact ⟨before.1,List.subset_cons_of_subset _ before.2⟩
    · rw [idle]
      exact obeys
  | ambient choice => exact obeys
  | crash =>
    intro i thread found
    simp [step] at found

theorem obeys_initial (state : σ) : Obeys allow Q (Config.initial state : Config Op Ans ε σ) := by
  intro i thread found
  simp [Config.initial] at found

theorem Obeys.allowed {c : Config Op Ans ε σ} (obeys : Obeys allow Q c) {i : ℕ} {op : Op}
    {next : Except ε (Ans op) → Program Op Ans ε Unit} {history : History Op Ans ε}
    (here : c.threads i = some ⟨.perform op next,history⟩) : allow history op :=
  (obeys i _ here).1.1

theorem Obeys.next {c : Config Op Ans ε σ} (obeys : Obeys allow Q c) {i : ℕ} {op : Op}
    {next : Except ε (Ans op) → Program Op Ans ε Unit} {history : History Op Ans ε}
    (here : c.threads i = some ⟨.perform op next,history⟩) (answer : Except ε (Ans op)) :
    (next answer).wp allow (fun _ => Q) (fun _ => Q) (⟨op,answer⟩ :: history) :=
  (obeys i _ here).1.2 answer

theorem Obeys.recorded {c : Config Op Ans ε σ} (obeys : Obeys allow Q c) {i : ℕ}
    {thread : Thread Op Ans ε} (found : c.threads i = some thread) : thread.history ⊆ c.trace :=
  (obeys i thread found).2

/-- Induction over a run whose steps meet a condition, with the discipline at hand. -/
theorem run_induction (programs : ∀ call, (s.program call).wp allow (fun _ => Q) (fun _ => Q) [])
    (condition : Config Op Ans ε σ → Event κ χ → Prop) (I : Config Op Ans ε σ → Prop)
    (keeps : ∀ c event, Obeys allow Q c → condition c event → I c → I (s.step c event))
    {c : Config Op Ans ε σ} (obeys : Obeys allow Q c) (holds : I c)
    (events : List (Event κ χ)) (meets : s.Meets condition c events) :
    Obeys allow Q (s.run c events) ∧ I (s.run c events) := by
  induction events generalizing c with
  | nil => exact ⟨obeys,holds⟩
  | cons event events ih =>
    have kept := keeps c event obeys meets.1 holds
    exact ih (s.obeys_step programs c event obeys) kept meets.2

end Invariants

/-- What each call in flight has been told, measured against the state. -/
def Learned (good : σ → History Op Ans ε → Prop) (c : Config Op Ans ε σ) : Prop :=
  ∀ i t, c.threads i = some t → good c.state t.history

/-- What was learned stays learned when it survives every step and every answer adds to it. -/
theorem learned_step {good : σ → History Op Ans ε → Prop} {c : Config Op Ans ε σ} {event : Event κ χ}
    (learned : Learned good c) (nothing : ∀ state, good state [])
    (stable : ∀ history, good c.state history → good (s.step c event).state history)
    (learns : ∀ i choice op next history, event = .perform i choice →
      c.threads i = some ⟨.perform op next,history⟩ → good (s.step c event).state history →
        good (s.step c event).state (⟨op,(s.handle choice op c.state).1⟩ :: history)) :
    Learned good (s.step c event) := by
  intro j t found
  cases s.thread_of_step found with
  | started call _ fresh =>
    rw [fresh]
    exact nothing _
  | kept there _ => exact stable _ (learned j t there)
  | resumed choice op next history performed here after =>
    rw [after]
    exact learns j choice op next history performed here (stable history (learned j _ here))

end System

end RatifyOs.Async
