import RatifyOs.Async.System

/-! Which call a thread came from, and effects that all the calls together perform at
most once, crashes included. -/
namespace RatifyOs.Async

variable {Op : Type} {Ans : Op → Type} {ε α β σ κ χ : Type}

namespace Program

theorem wp_weaken {allow weaker : History Op Ans ε → Op → Prop} {Q : α → History Op Ans ε → Prop}
    {E : ε → History Op Ans ε → Prop} (p : Program Op Ans ε α) {h : History Op Ans ε}
    (implies : ∀ h op, allow h op → weaker h op) (good : p.wp allow Q E h) : p.wp weaker Q E h := by
  induction p generalizing h with
  | pure value => exact good
  | throw error => exact good
  | perform op next ih => exact ⟨implies h op good.1,fun answer => ih answer (good.2 answer)⟩

/-- What a program followed by another has performed is the first one's, as long as it runs. -/
theorem Ran.of_map {p : Program Op Ans ε α} {value : β} {h : History Op Ans ε} {q : Program Op Ans ε β}
    (ran : Ran (p.bind fun _ => .pure value) h q) : ∃ first, Ran p h first ∧ q = first.bind fun _ => .pure value := by
  induction ran with
  | start => exact ⟨p,.start p,rfl⟩
  | perform answer before ih =>
    obtain ⟨first,ran,same⟩ := ih
    cases first with
    | pure value => cases same
    | throw error => cases same
    | perform op next =>
      cases same
      exact ⟨next answer,ran.perform answer,rfl⟩

end Program

namespace System

variable (s : System Op Ans ε σ κ χ)

/-- Every thread is where one of the calls stands after what the thread has performed. -/
def Launched (c : Config Op Ans ε σ) : Prop :=
  ∀ i t, c.threads i = some t → ∃ call, Program.Ran (s.program call) t.history t.program

theorem launched_initial (state : σ) : s.Launched (Config.initial state) := by
  intro i t found
  cases found

theorem launched_step {c : Config Op Ans ε σ} (launched : s.Launched c) (event : Event κ χ) :
    s.Launched (s.step c event) := by
  intro i t found
  cases s.thread_of_step found with
  | started call _ fresh =>
    subst fresh
    exact ⟨call,.start _⟩
  | resumed choice op next history _ here after =>
    subst after
    obtain ⟨call,ran⟩ := launched i _ here
    exact ⟨call,ran.perform _⟩
  | kept there _ => exact launched i t there

theorem launched_run {c : Config Op Ans ε σ} (launched : s.Launched c) (events : List (Event κ χ)) :
    s.Launched (s.run c events) := by
  induction events generalizing c with
  | nil => exact launched
  | cons event events ih => exact ih (s.launched_step launched event)

/-- The step performs an effect that counts, by a call that has done what counts. -/
def performs (counts : History Op Ans ε → Op → Bool) (c : Config Op Ans ε σ) : Event κ χ → Bool
  | .perform i _ =>
    match c.threads i with
    | some ⟨.perform op _,history⟩ => counts history op
    | _ => false
  | _ => false

def tally (counts : History Op Ans ε → Op → Bool) : Config Op Ans ε σ → List (Event κ χ) → ℕ
  | _, [] => 0
  | c, event :: events => (if performs counts c event then 1 else 0) + tally counts (s.step c event) events

theorem of_performs {counts : History Op Ans ε → Op → Bool} {c : Config Op Ans ε σ} {event : Event κ χ}
    (done : performs counts c event) : ∃ i choice op next history, event = .perform i choice ∧
      c.threads i = some ⟨.perform op next,history⟩ ∧ counts history op = true := by
  unfold performs at done
  split at done
  · split at done
    · rename_i i choice _ op next history here
      exact ⟨i,choice,op,next,history,rfl,here,done⟩
    · cases done
  · cases done

section Once
variable (counts : History Op Ans ε → Op → Bool) (I : Config Op Ans ε σ → Prop) (holds : History Op Ans ε → Prop)
  (closed : σ → Prop)

/-- Nobody holds the right while it can still be had, and at most one call does. -/
structure Sole (c : Config Op Ans ε σ) : Prop where
  waits : ¬closed c.state → ∀ i t, c.threads i = some t → ¬holds t.history
  unique : ∀ i j t u, c.threads i = some t → c.threads j = some u → holds t.history → holds u.history → i = j

def Spent (c : Config Op Ans ε σ) : Prop := closed c.state ∧ ∀ i t, c.threads i = some t → ¬holds t.history

/-- What makes an effect one that is performed at most once: the right to it is had by
taking it from the state, and performing it uses it up. -/
structure Rationed : Prop where
  keeps : ∀ c event, I c → I (s.step c event)
  stays : ∀ c event, I c → closed c.state → closed (s.step c event).state
  fresh : ¬holds []
  gain : ∀ c i choice op next history, I c → c.threads i = some ⟨.perform op next,history⟩ → ¬holds history →
    holds (⟨op,(s.handle choice op c.state).1⟩ :: history) → ¬closed c.state ∧ closed (s.handle choice op c.state).2
  use : ∀ c i op next history, I c → c.threads i = some ⟨.perform op next,history⟩ → counts history op →
    holds history ∧ ∀ answer, ¬holds (⟨op,answer⟩ :: history)

variable {s counts I holds closed} {c : Config Op Ans ε σ}

theorem Spent.step (rationed : s.Rationed counts I holds closed) (inv : I c) (spent : Spent holds closed c)
    (event : Event κ χ) : Spent holds closed (s.step c event) := by
  refine ⟨rationed.stays c event inv spent.1,?_⟩
  intro j t found
  cases s.thread_of_step found with
  | started call _ fresh =>
    subst fresh
    exact rationed.fresh
  | kept there _ => exact spent.2 j t there
  | resumed choice op next history _ here after =>
    subst after
    intro held
    exact (rationed.gain c j choice op next history inv here (spent.2 j _ here) held).1 spent.1

theorem Spent.tally (rationed : s.Rationed counts I holds closed) (inv : I c) (spent : Spent holds closed c)
    (events : List (Event κ χ)) : s.tally counts c events = 0 := by
  induction events generalizing c with
  | nil => rfl
  | cons event events ih =>
    have idle : performs counts c event = false := by
      rw [Bool.eq_false_iff]
      intro done
      obtain ⟨i,choice,op,next,history,_,here,counted⟩ := of_performs done
      exact spent.2 i _ here (rationed.use c i op next history inv here counted).1
    simp [System.tally,idle,ih (rationed.keeps c event inv) (spent.step rationed inv event)]

theorem Sole.step (rationed : s.Rationed counts I holds closed) (inv : I c) (sole : Sole holds closed c)
    (event : Event κ χ) : Sole holds closed (s.step c event) := by
  have before : ∀ j t, (s.step c event).threads j = some t → holds t.history →
      (∃ u, c.threads j = some u ∧ holds u.history) ∨ ¬closed c.state ∧ closed (s.step c event).state := by
    intro j t found held
    cases s.thread_of_step found with
    | started call _ fresh =>
      subst fresh
      exact absurd held rationed.fresh
    | kept there _ => exact .inl ⟨t,there,held⟩
    | resumed choice op next history performed here after =>
      subst after
      by_cases already : holds history
      · exact .inl ⟨_,here,already⟩
      · subst performed
        rw [s.perform_eq here]
        exact .inr (rationed.gain c j choice op next history inv here already held)
  constructor
  · intro waiting j t found held
    have earlier : ¬closed c.state := fun gone => waiting (rationed.stays c event inv gone)
    rcases before j t found held with ⟨u,there,holding⟩ | ⟨_,gone⟩
    · exact sole.waits earlier j u there holding
    · exact waiting gone
  · intro i j t u foundT foundU heldT heldU
    rcases before i t foundT heldT with ⟨t',thereT,holdingT⟩ | ⟨waiting,_⟩
    · rcases before j u foundU heldU with ⟨u',thereU,holdingU⟩ | ⟨waiting,_⟩
      · exact sole.unique i j t' u' thereT thereU holdingT holdingU
      · exact absurd holdingT (sole.waits waiting i t' thereT)
    · -- both have it from this step, and a step is one thread's
      have mine : ∀ k v, (s.step c event).threads k = some v → holds v.history → ∃ choice, event = .perform k choice := by
        intro k v found held
        cases s.thread_of_step found with
        | started call _ fresh =>
          subst fresh
          exact absurd held rationed.fresh
        | kept there _ => exact absurd held (sole.waits waiting k v there)
        | resumed choice op next history performed _ _ => exact ⟨choice,performed⟩
      obtain ⟨_,first⟩ := mine i t foundT heldT
      obtain ⟨_,second⟩ := mine j u foundU heldU
      rw [first] at second
      injection second

theorem Rationed.tally_le_one (rationed : s.Rationed counts I holds closed) (inv : I c)
    (sole : Sole holds closed c) (events : List (Event κ χ)) : s.tally counts c events ≤ 1 := by
  induction events generalizing c with
  | nil => exact Nat.zero_le 1
  | cons event events ih =>
    have later := rationed.keeps c event inv
    by_cases done : performs counts c event
    · have spent : Spent holds closed (s.step c event) := by
        obtain ⟨i,choice,op,next,history,performed,here,counted⟩ := of_performs done
        obtain ⟨held,gone⟩ := rationed.use c i op next history inv here counted
        have taken : closed c.state := by
          by_contra waiting
          exact sole.waits waiting i _ here held
        refine ⟨rationed.stays c event inv taken,?_⟩
        subst performed
        intro j t found holding
        cases s.thread_of_step found with
        | started _ started _ => cases started
        | kept there other =>
          exact other i choice op next history rfl here (sole.unique j i t _ there here holding held)
        | resumed choice' op' next' history' performed here' after =>
          cases performed
          rw [here] at here'
          cases here'
          subst after
          exact gone _ holding
      simp [System.tally,done,spent.tally rationed later events]
    · simp only [System.tally,done,Bool.false_eq_true,if_false,Nat.zero_add]
      exact ih later (sole.step rationed inv event)

end Once

end System

end RatifyOs.Async
