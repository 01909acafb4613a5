import RatifyOs.Async.Program

/-! A program whose effects are themselves programs over finer effects. -/
namespace RatifyOs.Async.Program

variable {Op Fine : Type} {Ans : Op → Type} {FineAns : Fine → Type} {ε α β : Type}

/-- Every effect is replaced by the program that performs it. -/
def inline (body : (op : Op) → Program Fine FineAns ε (Ans op)) : Program Op Ans ε α → Program Fine FineAns ε α
  | .pure value => .pure value
  | .throw error => .throw error
  | .perform op next =>
    (body op).attempt (fun error => (next (.error error)).inline body) fun value => (next (.ok value)).inline body

variable {body : (op : Op) → Program Fine FineAns ε (Ans op)} {allow : History Fine FineAns ε → Fine → Prop}

section Outcome
variable {σ : Type} (handle : (op : Op) → σ → Except ε (Ans op) × σ)

/-- What a program comes to when nothing else runs and every effect is answered alike. -/
def outcome : Program Op Ans ε α → σ → Except ε α × σ
  | .pure value, s => (.ok value,s)
  | .throw error, s => (.error error,s)
  | .perform op next, s => outcome (next (handle op s).1) (handle op s).2

variable {handle} {s : σ}

@[simp] theorem outcome_pure (value : α) :
    (Pure.pure value : Program Op Ans ε α).outcome handle s = (.ok value,s) := rfl

@[simp] theorem outcome_throw (error : ε) :
    (MonadExcept.throw error : Program Op Ans ε α).outcome handle s = (.error error,s) := rfl

theorem outcome_attempt (p : Program Op Ans ε α) (handler : ε → Program Op Ans ε β) (rest : α → Program Op Ans ε β) :
    (p.attempt handler rest).outcome handle s = match p.outcome handle s with
      | (.ok value,after) => (rest value).outcome handle after
      | (.error error,after) => (handler error).outcome handle after := by
  induction p generalizing s with
  | pure value => rfl
  | throw error => rfl
  | perform op next ih => exact ih _

@[simp] theorem outcome_bind (p : Program Op Ans ε α) (f : α → Program Op Ans ε β) :
    (p >>= f).outcome handle s = match p.outcome handle s with
      | (.ok value,after) => (f value).outcome handle after
      | (.error error,after) => (.error error,after) := by
  change (p.bind f).outcome handle s = _
  induction p generalizing s with
  | pure value => rfl
  | throw error => rfl
  | perform op next ih => exact ih _

@[simp] theorem outcome_call (op : Op) : (call op : Program Op Ans ε (Ans op)).outcome handle s = handle op s := by
  change outcome handle (.perform op _) s = _
  rw [outcome]
  generalize handle op s = result
  obtain ⟨answer,after⟩ := result
  cases answer <;> rfl

@[simp] theorem outcome_reject (c : Prop) [Decidable c] (error : ε) :
    (reject c error : Program Op Ans ε Unit).outcome handle s = (if c then .error error else .ok (),s) := by
  unfold reject
  split <;> rfl

@[simp] theorem outcome_ofExcept (value : Except ε α) :
    (ofExcept value : Program Op Ans ε α).outcome handle s = (value,s) := by
  cases value <;> rfl

/-- A program over finer effects comes to what the effects come to. -/
theorem outcome_inline {fine : (op : Fine) → σ → Except ε (FineAns op) × σ} (p : Program Op Ans ε α) :
    (p.inline body).outcome fine s = p.outcome (fun op s => (body op).outcome fine s) s := by
  induction p generalizing s with
  | pure value => rfl
  | throw error => rfl
  | perform op next ih =>
    rw [inline,outcome_attempt,outcome]
    generalize (body op).outcome fine s = result
    obtain ⟨answer,after⟩ := result
    cases answer with
    | ok value => exact ih (.ok value)
    | error error => exact ih (.error error)

end Outcome

end RatifyOs.Async.Program
