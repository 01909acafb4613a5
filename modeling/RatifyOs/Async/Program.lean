import Mathlib.Logic.Function.Basic

/-! Async functions as trees of effects, with a weakest precondition over what they
have done so far. Nothing here says what an effect means: answers are arbitrary. -/
namespace RatifyOs.Async

variable {Op : Type} {Ans : Op → Type} {ε α β : Type}

/-- An async function cut at its effects. Between two of them it is pure; an error
answer is a rejected promise or a statement that threw. -/
inductive Program (Op : Type) (Ans : Op → Type) (ε α : Type) : Type where
  | pure (value : α)
  | throw (error : ε)
  | perform (op : Op) (next : Except ε (Ans op) → Program Op Ans ε α)

/-- One performed effect with its answer. -/
abbrev Entry (Op : Type) (Ans : Op → Type) (ε : Type) := Σ op : Op, Except ε (Ans op)

/-- What a call has performed, newest first. -/
abbrev History (Op : Type) (Ans : Op → Type) (ε : Type) := List (Entry Op Ans ε)

namespace Program

protected def bind : Program Op Ans ε α → (α → Program Op Ans ε β) → Program Op Ans ε β
  | .pure value, f => f value
  | .throw error, _ => .throw error
  | .perform op next, f => .perform op fun answer => (next answer).bind f

protected def tryCatch : Program Op Ans ε α → (ε → Program Op Ans ε α) → Program Op Ans ε α
  | .pure value, _ => .pure value
  | .throw error, handler => handler error
  | .perform op next, handler => .perform op fun answer => (next answer).tryCatch handler

/-- `try { const value = await p; … }`, where the handler does not see what follows. -/
def attempt (p : Program Op Ans ε α) (handler : ε → Program Op Ans ε β) (rest : α → Program Op Ans ε β) :
    Program Op Ans ε β :=
  match p with
  | .pure value => rest value
  | .throw error => handler error
  | .perform op next => .perform op fun answer => (next answer).attempt handler rest

instance : Monad (Program Op Ans ε) where
  pure := .pure
  bind := Program.bind

instance : MonadExceptOf ε (Program Op Ans ε) where
  throw := .throw
  tryCatch := Program.tryCatch

def call (op : Op) : Program Op Ans ε (Ans op) :=
  .perform op fun
    | .ok value => .pure value
    | .error error => .throw error

/-- `if (c) throw e` -/
def reject (c : Prop) [Decidable c] (error : ε) : Program Op Ans ε Unit :=
  if c then .throw error else .pure ()

/-- The value of an optional, or the given error where it is absent. -/
def ofOption (value : Option α) (error : ε) : Program Op Ans ε α :=
  match value with
  | some value => .pure value
  | none => .throw error

/-- `if (c) await p` -/
def onlyIf (c : Prop) [Decidable c] (p : Program Op Ans ε α) : Program Op Ans ε Unit :=
  if c then p.bind fun _ => .pure () else .pure ()

def ofExcept (value : Except ε α) : Program Op Ans ε α :=
  match value with
  | .ok value => .pure value
  | .error error => .throw error

/-- Every effect is allowed after the ones before it, whatever the answers are, and
the program ends in `Q` where it returns and in `E` where it throws. -/
def wp (allow : History Op Ans ε → Op → Prop) : Program Op Ans ε α →
    (α → History Op Ans ε → Prop) → (ε → History Op Ans ε → Prop) → History Op Ans ε → Prop
  | .pure value, Q, _, h => Q value h
  | .throw error, _, E, h => E error h
  | .perform op next, Q, E, h =>
    allow h op ∧ ∀ answer, (next answer).wp allow Q E (⟨op,answer⟩ :: h)

section Rules
variable {allow : History Op Ans ε → Op → Prop} {Q Q' : α → History Op Ans ε → Prop}
  {E E' : ε → History Op Ans ε → Prop} {h : History Op Ans ε}

@[simp] theorem wp_pure (value : α) :
    wp allow (Pure.pure value : Program Op Ans ε α) Q E h ↔ Q value h := Iff.rfl

@[simp] theorem wp_throw (error : ε) :
    wp allow (MonadExcept.throw error : Program Op Ans ε α) Q E h ↔ E error h := Iff.rfl

@[simp] theorem wp_ret (value : α) :
    wp allow (.pure value : Program Op Ans ε α) Q E h ↔ Q value h := Iff.rfl

@[simp] theorem wp_fail (error : ε) :
    wp allow (.throw error : Program Op Ans ε α) Q E h ↔ E error h := Iff.rfl

theorem wp_perform (op : Op) (next : Except ε (Ans op) → Program Op Ans ε α) :
    wp allow (perform op next) Q E h ↔ allow h op ∧ ∀ answer, wp allow (next answer) Q E (⟨op,answer⟩ :: h) := Iff.rfl

@[simp] theorem wp_bind (p : Program Op Ans ε β) (f : β → Program Op Ans ε α) :
    wp allow (p >>= f) Q E h ↔ wp allow p (fun value => wp allow (f value) Q E) E h := by
  change wp allow (p.bind f) Q E h ↔ _
  induction p generalizing h with
  | pure value => exact Iff.rfl
  | throw error => exact Iff.rfl
  | perform op next ih =>
    change wp allow (perform op fun answer => (next answer).bind f) Q E h ↔ _
    simp only [wp_perform,ih]

@[simp] theorem wp_tryCatch (p : Program Op Ans ε α) (handler : ε → Program Op Ans ε α) :
    wp allow (MonadExcept.tryCatch p handler) Q E h ↔
      wp allow p Q (fun error => wp allow (handler error) Q E) h := by
  change wp allow (p.tryCatch handler) Q E h ↔ _
  induction p generalizing h with
  | pure value => exact Iff.rfl
  | throw error => exact Iff.rfl
  | perform op next ih =>
    change wp allow (perform op fun answer => (next answer).tryCatch handler) Q E h ↔ _
    simp only [wp_perform,ih]

@[simp] theorem wp_call (op : Op) {Q : Ans op → History Op Ans ε → Prop} :
    wp allow (call op : Program Op Ans ε (Ans op)) Q E h ↔
      allow h op ∧ (∀ value, Q value (⟨op,.ok value⟩ :: h)) ∧
        ∀ error, E error (⟨op,.error error⟩ :: h) := by
  constructor
  · rintro ⟨allowed,rest⟩
    exact ⟨allowed,fun value => rest (.ok value),fun error => rest (.error error)⟩
  · rintro ⟨allowed,returned,thrown⟩
    refine ⟨allowed,fun answer => ?_⟩
    cases answer with
    | ok value => exact returned value
    | error error => exact thrown error

@[simp] theorem wp_ite (c : Prop) [Decidable c] (p q : Program Op Ans ε α) :
    wp allow (if c then p else q) Q E h ↔
      (c → wp allow p Q E h) ∧ (¬c → wp allow q Q E h) := by
  split <;> simp_all

@[simp] theorem wp_reject (c : Prop) [Decidable c] (error : ε)
    {Q : Unit → History Op Ans ε → Prop} :
    wp allow (reject c error : Program Op Ans ε Unit) Q E h ↔ (c → E error h) ∧ (¬c → Q () h) := by
  simp [reject]

@[simp] theorem wp_ofOption (value : Option α) (error : ε) :
    wp allow (ofOption value error : Program Op Ans ε α) Q E h ↔
      (∀ v, value = some v → Q v h) ∧ (value = none → E error h) := by
  cases value <;> simp [ofOption]

@[simp] theorem wp_onlyIf (c : Prop) [Decidable c] (p : Program Op Ans ε α)
    {Q : Unit → History Op Ans ε → Prop} :
    wp allow (onlyIf c p) Q E h ↔
      (c → wp allow p (fun _ => Q ()) E h) ∧ (¬c → Q () h) := by
  have bound : wp allow (p.bind fun _ => .pure ()) Q E h ↔ wp allow p (fun _ => Q ()) E h :=
    wp_bind p fun _ => .pure ()
  simp only [onlyIf,wp_ite,wp_ret,bound]

@[simp] theorem wp_ofExcept (value : Except ε α) :
    wp allow (ofExcept value : Program Op Ans ε α) Q E h ↔
      (∀ v, value = .ok v → Q v h) ∧ ∀ error, value = .error error → E error h := by
  cases value <;> simp [ofExcept]

theorem wp_mono (p : Program Op Ans ε α) (good : wp allow p Q E h)
    (returns : ∀ value h, Q value h → Q' value h) (throws : ∀ error h, E error h → E' error h) :
    wp allow p Q' E' h := by
  induction p generalizing h with
  | pure value => exact returns _ _ good
  | throw error => exact throws _ _ good
  | perform op next ih => exact ⟨good.1,fun answer => ih answer (good.2 answer)⟩

theorem wp_recorded (p : Program Op Ans ε α) (good : wp allow p Q E h) :
    wp allow p (fun value after => Q value after ∧ h ⊆ after) (fun error after => E error after ∧ h ⊆ after) h := by
  induction p generalizing h with
  | pure value => exact ⟨good,List.Subset.refl h⟩
  | throw error => exact ⟨good,List.Subset.refl h⟩
  | perform op next ih =>
    refine ⟨good.1,fun answer => ?_⟩
    apply wp_mono (next answer) (ih answer (good.2 answer))
    · exact fun _ _ grown => ⟨grown.1,List.subset_of_cons_subset grown.2⟩
    · exact fun _ _ grown => ⟨grown.1,List.subset_of_cons_subset grown.2⟩

/-- What every calm effect keeps is kept by a program that performs no other. -/
theorem wp_framed {calm : Op → Prop} {R : History Op Ans ε → Prop} (p : Program Op Ans ε α)
    (good : wp (fun _ => calm) p Q E h) (start : R h) (allowed : ∀ h op, calm op → allow h op)
    (kept : ∀ h op answer, calm op → R h → R (⟨op,answer⟩ :: h)) :
    wp allow p (fun value after => Q value after ∧ R after) (fun error after => E error after ∧ R after) h := by
  induction p generalizing h with
  | pure value => exact ⟨good,start⟩
  | throw error => exact ⟨good,start⟩
  | perform op next ih =>
    refine ⟨allowed h op good.1,fun answer => ?_⟩
    exact ih answer (good.2 answer) (kept h op answer good.1 start)

/-- A handler is verified once, for whatever its body may leave behind when it throws. -/
theorem wp_tryCatch_of (p : Program Op Ans ε α) (handler : ε → Program Op Ans ε α)
    (body : wp allow p Q E' h) (handled : ∀ error h, E' error h → wp allow (handler error) Q E h) :
    wp allow (MonadExcept.tryCatch p handler) Q E h :=
  (wp_tryCatch p handler).mpr (wp_mono p body (fun _ _ good => good) handled)

@[simp] theorem wp_attempt (p : Program Op Ans ε β) (handler : ε → Program Op Ans ε α) (rest : β → Program Op Ans ε α) :
    wp allow (p.attempt handler rest) Q E h ↔
      wp allow p (fun value => wp allow (rest value) Q E) (fun error => wp allow (handler error) Q E) h := by
  induction p generalizing h with
  | pure value => exact Iff.rfl
  | throw error => exact Iff.rfl
  | perform op next ih =>
    change wp allow (perform op fun answer => (next answer).attempt handler rest) Q E h ↔ _
    simp only [wp_perform,ih]

end Rules

/-- Where a program stands once it has performed these effects and got these answers. -/
inductive Ran : Program Op Ans ε α → History Op Ans ε → Program Op Ans ε α → Prop where
  | start (p) : Ran p [] p
  | perform {p h op next} (answer) (before : Ran p h (.perform op next)) : Ran p (⟨op,answer⟩ :: h) (next answer)

/-- The program after so many effects, each answered alike. -/
def play (answer : (op : Op) → Except ε (Ans op)) : Nat → Program Op Ans ε α → Program Op Ans ε α
  | n + 1,.perform op next => play answer n (next (answer op))
  | _,p => p

/-- The program after so many effects and what it has performed by then; an answer may depend on
how many effects are still to come. -/
def playing (answer : Nat → (op : Op) → Except ε (Ans op)) :
    Nat → Program Op Ans ε α → History Op Ans ε → Program Op Ans ε α × History Op Ans ε
  | n + 1,.perform op next,h => playing answer n (next (answer n op)) (⟨op,answer n op⟩ :: h)
  | _,p,h => (p,h)

def returned : Program Op Ans ε α → Option α
  | .pure value => some value
  | _ => none

section Ran
variable {p q : Program Op Ans ε α} {h : History Op Ans ε} {allow : History Op Ans ε → Op → Prop}
  {Q : α → History Op Ans ε → Prop} {E : ε → History Op Ans ε → Prop}

theorem Ran.wp (ran : Ran p h q) (good : p.wp allow Q E []) : q.wp allow Q E h := by
  induction ran with
  | start => exact good
  | perform answer before ih => exact ih.2 answer

/-- Whatever a program has performed it was allowed to, after what it had done by then. -/
theorem Ran.allowed {after before : History Op Ans ε} {entry : Entry Op Ans ε} (ran : Ran p (after ++ entry :: before) q)
    (good : p.wp allow Q E []) : allow before entry.1 := by
  induction after generalizing q with
  | nil =>
    cases ran with
    | perform answer before => exact (before.wp good).1
  | cons newer after ih =>
    cases ran with
    | perform answer before => exact ih before

theorem Ran.next (answer : (op : Op) → Except ε (Ans op)) (ran : Ran p h q) :
    ∀ n : Nat, ∃ h, Ran p h (q.play answer n) := by
  intro n
  induction n generalizing h q with
  | zero => cases q <;> exact ⟨h,ran⟩
  | succ n ih =>
    cases q with
    | pure value => exact ⟨h,ran⟩
    | throw error => exact ⟨h,ran⟩
    | perform op next => exact ih (ran.perform (answer op))

theorem Ran.playing (answer : Nat → (op : Op) → Except ε (Ans op)) (ran : Ran p h q) :
    ∀ n : Nat, Ran p (q.playing answer n h).2 (q.playing answer n h).1 := by
  intro n
  induction n generalizing h q with
  | zero => cases q <;> exact ran
  | succ n ih =>
    cases q with
    | pure value => exact ran
    | throw error => exact ran
    | perform op next => exact ih (ran.perform (answer n op))

end Ran

end Program

end RatifyOs.Async
