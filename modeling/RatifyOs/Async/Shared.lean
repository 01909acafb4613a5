import Mathlib.Data.Nat.Notation
import RatifyOs.Async.Crash
import RatifyOs.Data.Run

/-! Calls on one database, interleaved at every statement. What a call may rely on is that
the others move the data along a given order only. -/
namespace RatifyOs.Async.Shared

variable {Op : Type} {Ans : Op → Type} {ε α σ κ χ : Type}

/-- A call with what it was called with, and what had returned before it started. -/
structure Call (Op : Type) (Ans : Op → Type) (ε α κ : Type) where
  args : κ
  script : Program Op Ans ε α
  earlier : List κ

/-- The data with the calls on it; `returned` is what the calls that have returned were
called with. -/
structure Site (Op : Type) (Ans : Op → Type) (ε α κ σ : Type) where
  state : σ
  calls : ℕ → Option (Call Op Ans ε α κ)
  count : ℕ
  returned : List κ

def Site.initial (s : σ) : Site Op Ans ε α κ σ := ⟨s,fun _ => none,0,[]⟩

/-- What happens next; a call may die with its process. -/
inductive Event (κ χ : Type) where
  | start (args : κ)
  | perform (call : ℕ) (choice : χ)
  | die (call : ℕ)

section Step
variable (program : κ → Program Op Ans ε α) (handle : χ → (op : Op) → σ → Except ε (Ans op) × σ)

def noted (args : κ) (script : Program Op Ans ε α) (returned : List κ) : List κ :=
  match script with
  | .pure _ => args :: returned
  | _ => returned

def step (c : Site Op Ans ε α κ σ) : Event κ χ → Site Op Ans ε α κ σ
  | .start args =>
    { c with
      calls := Function.update c.calls c.count (some ⟨args,program args,c.returned⟩)
      count := c.count + 1
      returned := noted args (program args) c.returned }
  | .perform i choice =>
    match c.calls i with
    | some ⟨args,.perform op next,earlier⟩ =>
      let result := handle choice op c.state
      { c with
        state := result.2
        calls := Function.update c.calls i (some ⟨args,next result.1,earlier⟩)
        returned := noted args (next result.1) c.returned }
    | _ => c
  | .die i => { c with calls := Function.update c.calls i none }

variable (fits : κ → (op : Op) → σ → χ → Prop) (refits : κ → (op : Op) → σ → χ → Prop)

/-- An effect is performed as it fits the call, and once more as it fits one that is repeated. -/
def Fitting (c : Site Op Ans ε α κ σ) : Event κ χ → Prop
  | .perform i choice =>
    match c.calls i with
    | some ⟨args,.perform op _,earlier⟩ => fits args op c.state choice ∧ (args ∈ earlier → refits args op c.state choice)
    | _ => True
  | _ => True

end Step

section Inversion
variable {program : κ → Program Op Ans ε α} {handle : χ → (op : Op) → σ → Except ε (Ans op) × σ} {c : Site Op Ans ε α κ σ}

/-- Where a call that is there after a step comes from. -/
inductive Comes (program : κ → Program Op Ans ε α) (handle : χ → (op : Op) → σ → Except ε (Ans op) × σ) (c : Site Op Ans ε α κ σ)
    (event : Event κ χ) (j : ℕ) (call : Call Op Ans ε α κ) : Prop where
  | started (args : κ) (start : event = .start args) (fresh : call = ⟨args,program args,c.returned⟩)
  | resumed (choice : χ) (args : κ) (op : Op) (next : Except ε (Ans op) → Program Op Ans ε α) (earlier : List κ)
      (performed : event = .perform j choice) (here : c.calls j = some ⟨args,.perform op next,earlier⟩)
      (after : call = ⟨args,next (handle choice op c.state).1,earlier⟩)
  | kept (there : c.calls j = some call)

theorem comes_of_step {event : Event κ χ} {j : ℕ} {call : Call Op Ans ε α κ}
    (found : (step program handle c event).calls j = some call) : Comes program handle c event j call := by
  cases event with
  | start args =>
    simp only [step] at found
    by_cases here : j = c.count
    · rw [here,Function.update_self,Option.some.injEq] at found
      exact .started args rfl found.symm
    · rw [Function.update_of_ne here] at found
      exact .kept found
  | perform i choice =>
    simp only [step] at found
    split at found
    · rename_i args op next earlier here
      by_cases same : j = i
      · subst same
        simp only [Function.update_self,Option.some.injEq] at found
        exact .resumed choice args op next earlier rfl here found.symm
      · simp only [Function.update_of_ne same] at found
        exact .kept found
    · exact .kept found
  | die i =>
    simp only [step] at found
    by_cases same : j = i
    · rw [same,Function.update_self] at found
      cases found
    · rw [Function.update_of_ne same] at found
      exact .kept found

end Inversion

section Logic
variable (handle : χ → (op : Op) → σ → Except ε (Ans op) × σ) (R : σ → σ → Prop) (I : σ → Prop)
  (fits : (op : Op) → σ → χ → Prop)

/-- What an effect asks of the data by the time it is performed, where it fits. -/
def relying : Program.Spec Op Ans ε σ :=
  fun op P s => ∀ s', R s s' → I s' → ∀ choice, fits op s' choice → P (handle choice op s').1 (handle choice op s').2

/-- The same of an effect that is to leave the data as they are. -/
def still : Program.Spec Op Ans ε σ :=
  fun op P s => ∀ s', R s s' → I s' → ∀ choice, fits op s' choice →
    (handle choice op s').2 = s' ∧ P (handle choice op s').1 s'

variable {handle R I fits}

variable (trans : ∀ a b c, R a b → R b c → R a c)
include trans

theorem relying_later {p : Program Op Ans ε α} {Q : α → σ → Prop} {E : ε → σ → Prop}
    (stable : ∀ value s s', Q value s → R s s' → Q value s') (failed : ∀ error s s', E error s → R s s' → E error s') {s s' : σ}
    (good : p.holds (relying handle R I fits) Q E s) (later : R s s') : p.holds (relying handle R I fits) Q E s' := by
  cases p with
  | pure value => exact stable _ _ _ good later
  | throw error => exact failed _ _ _ good later
  | perform op next => exact fun s'' more => good s'' (trans _ _ _ later more)

theorem still_later {p : Program Op Ans ε α} {s s' : σ}
    (good : p.holds (still handle R I fits) (fun _ _ => True) (fun _ _ => False) s) (later : R s s') :
    p.holds (still handle R I fits) (fun _ _ => True) (fun _ _ => False) s' := by
  cases p with
  | pure value => trivial
  | throw error => exact good
  | perform op next => exact fun s'' more => good s'' (trans _ _ _ later more)

end Logic

section Sound
variable (program : κ → Program Op Ans ε α) (handle : χ → (op : Op) → σ → Except ε (Ans op) × σ)
  (fits refits : κ → (op : Op) → σ → χ → Prop) (R : σ → σ → Prop) (I : σ → Prop) (Q : κ → α → Prop) (E : κ → ε → Prop)
  (Stored : κ → σ → Prop)

/-- What a call that returns leaves is stored; one that is repeated when it is changes nothing
and does not throw. -/
structure Sound (c : Site Op Ans ε α κ σ) : Prop where
  valid : I c.state
  stored : ∀ args ∈ c.returned, Stored args c.state
  obeys : ∀ i call, c.calls i = some call →
    call.script.holds (relying handle R I (fits call.args)) (fun value s => Q call.args value ∧ Stored call.args s)
      (fun error _ => E call.args error) c.state
  repeats : ∀ i call, c.calls i = some call → call.args ∈ call.earlier →
    call.script.holds (still handle R I fun op s choice => fits call.args op s choice ∧ refits call.args op s choice)
      (fun _ _ => True) (fun _ _ => False) c.state

/-- What the effects of the calls are to meet, apart from the calls. -/
structure Order : Prop where
  refl : ∀ s, R s s
  trans : ∀ a b c, R a b → R b c → R a c
  moves : ∀ choice op s, I s → R s (handle choice op s).2 ∧ I (handle choice op s).2
  stays : ∀ args s s', Stored args s → R s s' → Stored args s'

variable {program handle fits refits R I Q E Stored} {c : Site Op Ans ε α κ σ} (order : Order handle R I Stored)
  (scripts : ∀ args s, I s → (program args).holds (relying handle R I (fits args)) (fun value s => Q args value ∧ Stored args s)
    (fun error _ => E args error) s)
  (repeated : ∀ args s, I s → Stored args s →
    (program args).holds (still handle R I fun op s choice => fits args op s choice ∧ refits args op s choice)
      (fun _ _ => True) (fun _ _ => False) s)

theorem Sound.initial {s : σ} (holds : I s) : Sound handle fits refits R I Q E Stored (Site.initial s : Site Op Ans ε α κ σ) where
  valid := holds
  stored := by simp [Site.initial]
  obeys := by simp [Site.initial]
  repeats := by simp [Site.initial]

theorem stored_of_noted {args : κ} {script : Program Op Ans ε α} {returned : List κ} {s : σ}
    (old : ∀ args ∈ returned, Stored args s) (good : ∀ value, script = .pure value → Stored args s) :
    ∀ other ∈ noted args script returned, Stored other s := by
  intro other inside
  cases script with
  | pure value =>
    obtain rfl | there := List.mem_cons.mp inside
    · exact good value rfl
    · exact old other there
  | throw error => exact old other inside
  | perform op next => exact old other inside

include order

/-- The data move along the order, whatever happens. -/
theorem moves_step (valid : I c.state) (event : Event κ χ) :
    R c.state (step program handle c event).state ∧ I (step program handle c event).state := by
  cases event with
  | start args => exact ⟨order.refl _,valid⟩
  | perform i choice =>
    simp only [step]
    split
    · exact order.moves _ _ _ valid
    · exact ⟨order.refl _,valid⟩
  | die i => exact ⟨order.refl _,valid⟩

include scripts repeated

theorem Sound.step (sound : Sound handle fits refits R I Q E Stored c) {event : Event κ χ} (fitting : Fitting fits refits c event) :
    Sound handle fits refits R I Q E Stored (step program handle c event) := by
  obtain ⟨later,valid⟩ := moves_step order sound.valid event
  have obeys : ∀ i call, (Shared.step program handle c event).calls i = some call →
      call.script.holds (relying handle R I (fits call.args)) (fun value s => Q call.args value ∧ Stored call.args s)
        (fun error _ => E call.args error) (Shared.step program handle c event).state := by
    intro i call found
    cases comes_of_step found with
    | started args start fresh =>
      subst start fresh
      exact scripts args c.state sound.valid
    | resumed choice args op next earlier performed here after =>
      subst performed after
      simp only [Fitting,here] at fitting
      simp only [Shared.step,here]
      exact sound.obeys i _ here c.state (order.refl _) sound.valid choice fitting.1
    | kept there =>
      apply relying_later order.trans _ _ (sound.obeys i call there) later
      · exact fun value s s' met later => ⟨met.1,order.stays _ _ _ met.2 later⟩
      · exact fun error s s' thrown _ => thrown
  refine ⟨valid,?_,obeys,?_⟩
  · have old : ∀ args ∈ c.returned, Stored args (Shared.step program handle c event).state :=
      fun args inside => order.stays _ _ _ (sound.stored args inside) later
    cases event with
    | die i => exact old
    | start args =>
      refine stored_of_noted old fun value same => ?_
      have good := obeys c.count ⟨args,program args,c.returned⟩ (by simp [Shared.step])
      rw [same] at good
      exact good.2
    | perform i choice =>
      simp only [Shared.step] at old obeys ⊢
      split
      · rename_i args op next earlier found
        simp only [found] at old obeys
        refine stored_of_noted old fun value same => ?_
        have good := obeys i _ (by rw [Function.update_self])
        simp only [same] at good
        exact good.2
      · exact sound.stored
  · intro i call found known
    cases comes_of_step found with
    | started args start fresh =>
      subst start fresh
      exact repeated args c.state sound.valid (sound.stored args known)
    | resumed choice args op next earlier performed here after =>
      subst performed after
      simp only [Fitting,here] at fitting
      obtain ⟨quiet,next⟩ :=
        sound.repeats i _ here known c.state (order.refl _) sound.valid choice ⟨fitting.1,fitting.2 known⟩
      simp only [Shared.step,here,quiet]
      exact next
    | kept there => exact still_later order.trans (sound.repeats i call there known) later

theorem Sound.run (sound : Sound handle fits refits R I Q E Stored c) {events : List (Event κ χ)}
    (meets : Data.Run.Meets (Shared.step program handle) (Fitting fits refits) c events) :
    Sound handle fits refits R I Q E Stored (Data.Run.run (Shared.step program handle) c events) := by
  exact Data.Run.invariant (fun c event fitting sound => sound.step order scripts repeated fitting) sound meets

omit scripts repeated in
/-- A repeated call changes nothing. -/
theorem Sound.quiet (sound : Sound handle fits refits R I Q E Stored c) {i : ℕ} {call : Call Op Ans ε α κ} {choice : χ}
    (found : c.calls i = some call) (known : call.args ∈ call.earlier) (fitting : Fitting fits refits c (.perform i choice)) :
    (Shared.step program handle c (.perform i choice)).state = c.state := by
  have good := sound.repeats i call found known
  obtain ⟨args,script,earlier⟩ := call
  simp only [Fitting,found] at fitting
  simp only [Shared.step,found]
  cases script with
  | pure value => rfl
  | throw error => rfl
  | perform op next => exact (good c.state (order.refl _) sound.valid choice ⟨fitting.1,fitting.2 known⟩).1

end Sound

section Allowed
variable (program : κ → Program Op Ans ε α) (handle : χ → (op : Op) → σ → Except ε (Ans op) × σ) (allow : Op → Prop)

/-- A program performs effects of this kind only. -/
def Performs : Program Op Ans ε α → Prop
  | .perform op next => allow op ∧ ∀ answer, Performs (next answer)
  | _ => True

/-- Every call does. -/
def Allowed (c : Site Op Ans ε α κ σ) : Prop := ∀ i call, c.calls i = some call → Performs allow call.script

variable {program handle allow} {c : Site Op Ans ε α κ σ} {β : Type}

theorem performs_bind {p : Program Op Ans ε β} {f : β → Program Op Ans ε α} (first : Performs allow p)
    (rest : ∀ value, Performs allow (f value)) : Performs allow (p >>= f) := by
  change Performs allow (p.bind f)
  induction p with
  | pure value => exact rest value
  | throw error => trivial
  | perform op next ih => exact ⟨first.1,fun answer => ih answer (first.2 answer)⟩

theorem performs_call {op : Op} (allowed : allow op) : Performs allow (Program.call op : Program Op Ans ε (Ans op)) := by
  refine ⟨allowed,fun answer => ?_⟩
  cases answer <;> trivial

theorem performs_reject {condition : Prop} [Decidable condition] {error : ε} :
    Performs allow (Program.reject condition error : Program Op Ans ε Unit) := by
  unfold Program.reject
  split <;> trivial

theorem performs_ofOption {value : Option α} {error : ε} :
    Performs allow (Program.ofOption value error : Program Op Ans ε α) := by
  cases value <;> trivial

theorem Allowed.performed (allowed : Allowed allow c) {i : ℕ} {args : κ} {op : Op} {next : Except ε (Ans op) → Program Op Ans ε α}
    {earlier : List κ} (found : c.calls i = some ⟨args,.perform op next,earlier⟩) : allow op := by
  have good := allowed i _ found
  exact good.1

theorem Allowed.step (allowed : Allowed allow c) {event : Event κ χ}
    (starts : ∀ args, event = .start args → Performs allow (program args)) : Allowed allow (step program handle c event) := by
  intro j call found
  cases comes_of_step found with
  | started args start fresh =>
    subst fresh
    exact starts args start
  | resumed choice args op next earlier performed here after =>
    subst after
    have good := allowed j _ here
    exact good.2 _
  | kept there => exact allowed j call there

end Allowed

end RatifyOs.Async.Shared
