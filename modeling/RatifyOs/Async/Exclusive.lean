import RatifyOs.Async.System
import Mathlib.Data.List.Count

/-! Effects that at most one call may perform: the right to perform one is held by at
most one call at a time, and is gone once it has been used. -/
namespace RatifyOs.Async

variable {Op : Type} {Ans : Op → Type} {ε α σ κ χ : Type}

/-- The program performs no `bad` effect before its next `stop` effect. -/
def Program.Quiet (bad stop : Op → Prop) : Program Op Ans ε α → Prop
  | .pure _ => True
  | .throw _ => True
  | .perform op next => ¬bad op ∧ (stop op ∨ ∀ answer, (next answer).Quiet bad stop)

/-- A discipline that lets `bad` happen only after an arming effect makes every unarmed
program quiet. -/
theorem Program.quiet_of_wp {allow : History Op Ans ε → Op → Prop} {bad stop : Op → Prop}
    (armed : History Op Ans ε → Prop) (arming : ∀ h op, allow h op → bad op → armed h)
    (keeps : ∀ h op answer, ¬stop op → ¬bad op → ¬armed h → ¬armed (⟨op,answer⟩ :: h))
    {Q : α → History Op Ans ε → Prop} {E : ε → History Op Ans ε → Prop}
    (p : Program Op Ans ε α) (h : History Op Ans ε) (obeys : p.wp allow Q E h) (unarmed : ¬armed h) :
    p.Quiet bad stop := by
  induction p generalizing h with
  | pure value => trivial
  | throw error => trivial
  | perform op next ih =>
    have harmless : ¬bad op := fun isBad => unarmed (arming h op obeys.1 isBad)
    refine ⟨harmless,?_⟩
    by_cases stops : stop op
    · exact .inl stops
    · refine .inr fun answer => ?_
      exact ih answer _ (obeys.2 answer) (keeps h op answer stops harmless unarmed)

namespace System

section Tokens
variable (holds : Thread Op Ans ε → Prop) (used : Entry Op Ans ε → Bool)

/-- Nobody holds the right and it was never used. -/
def Unused (c : Config Op Ans ε σ) : Prop :=
  (∀ i thread, c.threads i = some thread → ¬holds thread) ∧ c.trace.countP used = 0

structure Exclusive (c : Config Op Ans ε σ) : Prop where
  unique : ∀ i j t u, c.threads i = some t → c.threads j = some u → holds t → holds u → i = j
  once : c.trace.countP used ≤ 1
  spent : ∀ i t, c.threads i = some t → holds t → c.trace.countP used = 0

variable {holds used}

theorem unused_initial (state : σ) : Unused holds used (Config.initial state : Config Op Ans ε σ) := by
  constructor
  · intro i thread found
    simp [Config.initial] at found
  · rfl

theorem Unused.exclusive {c : Config Op Ans ε σ} (unused : Unused holds used c) :
    Exclusive holds used c where
  unique i _ t _ found _ held := absurd held (unused.1 i t found)
  once := by rw [unused.2]; omega
  spent _ _ _ _ := unused.2

variable (s : System Op Ans ε σ κ χ)

/-- What a performed effect may do with the right: leave it alone, hand it to a call when
no other call holds it and it is unused, or use it up. -/
inductive Handover (holds : Thread Op Ans ε → Prop) (used : Entry Op Ans ε → Bool)
    (c : Config Op Ans ε σ) (i : ℕ) (before after : Thread Op Ans ε) (entry : Entry Op Ans ε) : Prop where
  | keep (unused : used entry = false) (same : holds after → holds before)
  | take (unused : used entry = false) (never : c.trace.countP used = 0)
      (others : ∀ j t, j ≠ i → c.threads j = some t → ¬holds t)
  | use (held : holds before) (gone : ¬holds after)

section Handover
omit s
variable {c : Config Op Ans ε σ} {i : ℕ} {before after : Thread Op Ans ε} {entry : Entry Op Ans ε}

/-- Who holds the right after a handover that leaves it alone held it before. -/
theorem Exclusive.keep (exclusive : Exclusive holds used c) (here : c.threads i = some before) (unused : used entry = false)
    (same : holds after → holds before) (state : σ) :
    Exclusive holds used ⟨state,Function.update c.threads i (some after),c.count,entry :: c.trace⟩ := by
  have old : ∀ j t, Function.update c.threads i (some after) j = some t → holds t → ∃ u, c.threads j = some u ∧ holds u := by
    intro j t found held
    rcases thread_updated found with ⟨rfl,rfl⟩ | ⟨_,found⟩
    · exact ⟨_,here,same held⟩
    · exact ⟨t,found,held⟩
  refine ⟨?_,by simpa [unused] using exclusive.once,?_⟩
  · intro j k t u ht hu holdsT holdsU
    obtain ⟨t',ht',holdsT'⟩ := old j t ht holdsT
    obtain ⟨u',hu',holdsU'⟩ := old k u hu holdsU
    exact exclusive.unique j k t' u' ht' hu' holdsT' holdsU'
  · intro j t found held
    obtain ⟨u,hu,holdsU⟩ := old j t found held
    have zero := exclusive.spent j u hu holdsU
    simpa [unused] using zero

theorem Exclusive.take (unused : used entry = false) (never : c.trace.countP used = 0)
    (others : ∀ j t, j ≠ i → c.threads j = some t → ¬holds t) (state : σ) :
    Exclusive holds used ⟨state,Function.update c.threads i (some after),c.count,entry :: c.trace⟩ := by
  have mine : ∀ j t, Function.update c.threads i (some after) j = some t → holds t → j = i := by
    intro j t found held
    rcases thread_updated found with ⟨same,_⟩ | ⟨other,found⟩
    · exact same
    · exact absurd held (others j t other found)
  refine ⟨?_,by simp [unused,never],fun _ _ _ _ => by simp [unused,never]⟩
  intro j k t u ht hu holdsT holdsU
  rw [mine j t ht holdsT,mine k u hu holdsU]

/-- Once it is used nobody holds it. -/
theorem Exclusive.use (exclusive : Exclusive holds used c) (here : c.threads i = some before) (held : holds before)
    (gone : ¬holds after) (state : σ) :
    Exclusive holds used ⟨state,Function.update c.threads i (some after),c.count,entry :: c.trace⟩ := by
  have zero := exclusive.spent i _ here held
  have nobody : ∀ j t, Function.update c.threads i (some after) j = some t → ¬holds t := by
    intro j t found holdsT
    rcases thread_updated found with ⟨_,rfl⟩ | ⟨other,found⟩
    · exact gone holdsT
    · exact other (exclusive.unique j i t _ found here holdsT held)
  refine ⟨?_,?_,?_⟩
  · intro j k t u ht _ holdsT
    exact absurd holdsT (nobody j t ht)
  · have grows : (entry :: c.trace).countP used ≤ c.trace.countP used + 1 := by
      rw [List.countP_cons]
      split <;> omega
    simpa only [zero] using grows
  · intro j t found holdsT
    exact absurd holdsT (nobody j t found)

end Handover

/-- One step keeps the right exclusive when calls start without it and every performed
effect is a proper handover. -/
theorem exclusive_step (c : Config Op Ans ε σ) (event : Event κ χ) (exclusive : Exclusive holds used c)
    (starts : ∀ call, ¬holds ⟨s.program call,[]⟩)
    (performs : ∀ i choice op next history, event = .perform i choice →
      c.threads i = some ⟨.perform op next,history⟩ →
      Handover holds used c i ⟨.perform op next,history⟩
        ⟨next (s.handle choice op c.state).1,⟨op,(s.handle choice op c.state).1⟩ :: history⟩
        ⟨op,(s.handle choice op c.state).1⟩) :
    Exclusive holds used (s.step c event) := by
  cases event with
  | start call =>
    have old : ∀ i t, (s.step c (.start call)).threads i = some t → holds t → c.threads i = some t := by
      intro i t found held
      by_cases same : i = c.count
      · subst same
        simp only [step,Function.update_self,Option.some.injEq] at found
        exact absurd (found ▸ held) (starts call)
      · simpa only [step,Function.update_of_ne same] using found
    refine ⟨?_,exclusive.once,?_⟩
    · intro i j t u ht hu holdsT holdsU
      exact exclusive.unique i j t u (old i t ht holdsT) (old j u hu holdsU) holdsT holdsU
    · intro i t found held
      exact exclusive.spent i t (old i t found held) held
  | ambient choice => exact ⟨exclusive.unique,exclusive.once,exclusive.spent⟩
  | crash =>
    refine ⟨?_,exclusive.once,?_⟩
    · intro i j t u ht
      simp [step] at ht
    · intro i t found
      simp [step] at found
  | perform i choice =>
    rcases s.perform_cases c i choice with ⟨op,next,history,here⟩ | idle
    · have handover := performs i choice op next history rfl here
      rw [s.perform_eq here]
      cases handover with
      | keep unused same => exact exclusive.keep here unused same _
      | take unused never others => exact .take unused never others _
      | use held gone => exact exclusive.use here held gone _
    · rw [idle]
      exact exclusive

end Tokens

end System

end RatifyOs.Async
