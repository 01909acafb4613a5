import RatifyOs.Data.Result

/-! Synchronous code over some state that throws. What it wrote before it threw stays
written, unless the code itself takes it back. -/
namespace RatifyOs.Data

variable {σ ε α β : Type}

abbrev Session (σ ε α : Type) := ExceptT ε (StateM σ) α

namespace Session

/-- What the code returns or throws, and the state it leaves. -/
def exec (p : Session σ ε α) (s : σ) : Except ε α × σ := (ExceptT.run p).run s

/-- `if (c) throw e` -/
def reject (c : Prop) [Decidable c] (error : ε) : Session σ ε Unit := if c then throw error else pure ()

/-- The value of an optional, or the given error where it is absent. -/
def ofOption (value : Option α) (error : ε) : Session σ ε α :=
  match value with
  | some value => pure value
  | none => throw error

/-- `if (c) p` -/
def onlyIf (c : Prop) [Decidable c] (p : Session σ ε Unit) : Session σ ε Unit := if c then p else pure ()

section Exec
variable (s : σ)

@[simp] theorem exec_pure (a : α) : exec (pure a : Session σ ε α) s = (.ok a,s) := rfl

@[simp] theorem exec_throw (error : ε) : exec (throw error : Session σ ε α) s = (.error error,s) := rfl

@[simp] theorem exec_get : exec (get : Session σ ε σ) s = (.ok s,s) := rfl

@[simp] theorem exec_modify (f : σ → σ) : exec (modify f : Session σ ε PUnit) s = (.ok ⟨⟩,f s) := rfl

theorem exec_bind (p : Session σ ε α) (f : α → Session σ ε β) : exec (p >>= f) s =
    match (exec p s).1 with
    | .ok a => exec (f a) (exec p s).2
    | .error error => (.error error,(exec p s).2) := by
  change exec (ExceptT.bind p f) s = _
  simp only [exec,ExceptT.run,ExceptT.bind,ExceptT.mk,StateT.run,bind,StateT.bind]
  rcases p s with ⟨answer | answer,after⟩ <;> rfl

theorem exec_tryCatch (p : Session σ ε α) (handler : ε → Session σ ε α) : exec (tryCatch p handler) s =
    match (exec p s).1 with
    | .ok a => (.ok a,(exec p s).2)
    | .error error => exec (handler error) (exec p s).2 := by
  change exec (ExceptT.tryCatch p handler) s = _
  simp only [exec,ExceptT.run,ExceptT.tryCatch,ExceptT.mk,StateT.run,bind,StateT.bind]
  rcases p s with ⟨answer | answer,after⟩ <;> rfl

theorem exec_reject_bind (c : Prop) [Decidable c] (error : ε) (f : Unit → Session σ ε β) :
    exec (reject c error >>= f) s = if c then (.error error,s) else exec (f ()) s := by
  unfold reject
  split <;> rfl

theorem exec_ofOption_bind (value : Option α) (error : ε) (f : α → Session σ ε β) :
    exec (ofOption value error >>= f) s = match value with
      | some a => exec (f a) s
      | none => (.error error,s) := by
  cases value <;> rfl

variable {s} {s' : σ}

theorem exec_bind_eq_ok {p : Session σ ε α} {f : α → Session σ ε β} {b : β} :
    exec (p >>= f) s = (.ok b,s') ↔ ∃ a mid, exec p s = (.ok a,mid) ∧ exec (f a) mid = (.ok b,s') := by
  rw [exec_bind]
  rcases exec p s with ⟨answer | answer,mid⟩
  · simp
  · constructor
    · intro done
      exact ⟨answer,mid,rfl,done⟩
    · intro ⟨_,_,same,done⟩
      cases same
      exact done

theorem exec_pure_eq_ok {a b : α} : exec (pure a : Session σ ε α) s = (.ok b,s') ↔ a = b ∧ s = s' := by
  simp

theorem exec_get_eq_ok {a : σ} : exec (get : Session σ ε σ) s = (.ok a,s') ↔ s = a ∧ s = s' := by
  simp

theorem exec_modify_eq_ok {f : σ → σ} {u : PUnit} :
    exec (modify f : Session σ ε PUnit) s = (.ok u,s') ↔ f s = s' := by
  simp

theorem exec_reject_eq_ok {c : Prop} [Decidable c] {error : ε} {u : Unit} :
    exec (reject c error) s = (.ok u,s') ↔ ¬c ∧ s = s' := by
  unfold reject
  split
  · simp_all
  · simp_all

theorem exec_ofOption_eq_ok {value : Option α} {error : ε} {a : α} :
    exec (ofOption value error) s = (.ok a,s') ↔ value = some a ∧ s = s' := by
  cases value <;> simp [ofOption]

theorem exec_reject_bind_eq_ok {c : Prop} [Decidable c] {error : ε} {f : Unit → Session σ ε β} {b : β} :
    exec (reject c error >>= f) s = (.ok b,s') ↔ ¬c ∧ exec (f ()) s = (.ok b,s') := by
  rw [exec_reject_bind]
  split_ifs with stops <;> simp [stops]

theorem exec_ofOption_bind_eq_ok {value : Option α} {error : ε} {f : α → Session σ ε β} {b : β} :
    exec (ofOption value error >>= f) s = (.ok b,s') ↔ ∃ a, value = some a ∧ exec (f a) s = (.ok b,s') := by
  rw [exec_ofOption_bind]
  cases value <;> simp

end Exec

/-- The code returns to a state in `Q`, or throws and leaves one in `E`. -/
def Ends (p : Session σ ε α) (Q : α → σ → Prop) (E : ε → σ → Prop) (s : σ) : Prop :=
  match (exec p s).1 with
  | .ok a => Q a (exec p s).2
  | .error error => E error (exec p s).2

section Ends
variable {Q : α → σ → Prop} {E : ε → σ → Prop} {s : σ}

@[simp] theorem ends_pure (a : α) : Ends (pure a : Session σ ε α) Q E s ↔ Q a s := Iff.rfl

@[simp] theorem ends_throw (error : ε) : Ends (throw error : Session σ ε α) Q E s ↔ E error s := Iff.rfl

@[simp] theorem ends_get {Q : σ → σ → Prop} : Ends (get : Session σ ε σ) Q E s ↔ Q s s := Iff.rfl

@[simp] theorem ends_modify (f : σ → σ) {Q : PUnit → σ → Prop} : Ends (modify f : Session σ ε PUnit) Q E s ↔ Q ⟨⟩ (f s) := Iff.rfl

theorem ends_bind (p : Session σ ε β) (f : β → Session σ ε α) :
    Ends (p >>= f) Q E s ↔ Ends p (fun b => Ends (f b) Q E) E s := by
  unfold Ends
  rw [exec_bind]
  cases (exec p s).1 <;> exact Iff.rfl

theorem ends_tryCatch (p : Session σ ε α) (handler : ε → Session σ ε α) :
    Ends (tryCatch p handler) Q E s ↔ Ends p Q (fun error => Ends (handler error) Q E) s := by
  unfold Ends
  rw [exec_tryCatch]
  rcases exec p s with ⟨error | a,after⟩ <;> exact Iff.rfl

theorem ends_reject (c : Prop) [Decidable c] (error : ε) {Q : Unit → σ → Prop} :
    Ends (reject c error) Q E s ↔ (c → E error s) ∧ (¬c → Q () s) := by
  unfold reject
  split_ifs with stops <;> simp [stops]

theorem ends_ofOption (value : Option α) (error : ε) :
    Ends (ofOption value error) Q E s ↔ (∀ a, value = some a → Q a s) ∧ (value = none → E error s) := by
  cases value <;> simp [ofOption]

theorem ends_onlyIf (c : Prop) [Decidable c] (p : Session σ ε Unit) {Q : Unit → σ → Prop} :
    Ends (onlyIf c p) Q E s ↔ (c → Ends p Q E s) ∧ (¬c → Q () s) := by
  unfold onlyIf
  split_ifs with runs <;> simp [runs]

theorem Ends.mono {Q' : α → σ → Prop} {E' : ε → σ → Prop} {p : Session σ ε α} (ends : Ends p Q E s)
    (returns : ∀ a s, Q a s → Q' a s) (throws : ∀ error s, E error s → E' error s) : Ends p Q' E' s := by
  unfold Ends at *
  cases answer : (exec p s).1 with
  | ok a =>
    rw [answer] at ends
    exact returns _ _ ends
  | error error =>
    rw [answer] at ends
    exact throws _ _ ends

theorem Ends.always {P : σ → Prop} {p : Session σ ε α} (ends : Ends p (fun _ => P) (fun _ => P) s) : P (exec p s).2 := by
  unfold Ends at ends
  cases answer : (exec p s).1 with
  | ok a => rwa [answer] at ends
  | error error => rwa [answer] at ends

theorem Ends.error {p : Session σ ε α} (ends : Ends p Q E s) {error : ε} (thrown : (exec p s).1 = .error error) :
    E error (exec p s).2 := by
  unfold Ends at ends
  rwa [thrown] at ends

end Ends

/-- However the code ends, the state it leaves satisfies what the state it found did. -/
def Keeps (I : σ → Prop) (p : Session σ ε α) : Prop := ∀ s, I s → I (exec p s).2

section Keeps
variable {I : σ → Prop}

theorem keeps_pure (a : α) : Keeps I (pure a : Session σ ε α) := fun _ holds => holds

theorem keeps_throw (error : ε) : Keeps I (throw error : Session σ ε α) := fun _ holds => holds

theorem keeps_get : Keeps I (get : Session σ ε σ) := fun _ holds => holds

theorem keeps_modify {f : σ → σ} (kept : ∀ s, I s → I (f s)) : Keeps I (modify f : Session σ ε PUnit) := kept

theorem keeps_reject (c : Prop) [Decidable c] (error : ε) : Keeps I (reject c error) := by
  unfold reject
  split
  · exact keeps_throw error
  · exact keeps_pure _

theorem keeps_ofOption (value : Option α) (error : ε) : Keeps I (ofOption value error) := by
  cases value with
  | none => exact keeps_throw error
  | some value => exact keeps_pure value

theorem keeps_onlyIf (c : Prop) [Decidable c] {p : Session σ ε Unit} (kept : Keeps I p) : Keeps I (onlyIf c p) := by
  unfold onlyIf
  split
  · exact kept
  · exact keeps_pure _

theorem keeps_bind {p : Session σ ε α} {f : α → Session σ ε β} (first : Keeps I p) (rest : ∀ a, Keeps I (f a)) :
    Keeps I (p >>= f) := by
  intro s holds
  have after := first s holds
  rw [exec_bind]
  cases (exec p s).1 with
  | ok a => exact rest a _ after
  | error error => exact after

theorem keeps_tryCatch {p : Session σ ε α} {handler : ε → Session σ ε α} (body : Keeps I p)
    (handled : ∀ error, Keeps I (handler error)) : Keeps I (tryCatch p handler) := by
  intro s holds
  have after := body s holds
  rw [exec_tryCatch]
  cases (exec p s).1 with
  | ok a => exact after
  | error error => exact handled error _ after

theorem keeps_read {f : σ → Session σ ε α} (kept : ∀ s, I s → Keeps I (f s)) : Keeps I (get >>= f) := by
  intro s holds
  rw [exec_bind]
  exact kept s holds s holds

end Keeps

/-- However the state is, the code does not throw this error. -/
def Never (e : ε) (p : Session σ ε α) : Prop := ∀ s, (exec p s).1 ≠ .error e

section Never
variable {e : ε}

theorem never_pure (a : α) : Never e (pure a : Session σ ε α) := by
  intro s thrown
  cases thrown

theorem never_throw {error : ε} (other : error ≠ e) : Never e (throw error : Session σ ε α) := by
  intro s thrown
  cases thrown
  exact other rfl

theorem never_get : Never e (get : Session σ ε σ) := by
  intro s thrown
  cases thrown

theorem never_modify (f : σ → σ) : Never e (modify f : Session σ ε PUnit) := by
  intro s thrown
  cases thrown

theorem never_reject (c : Prop) [Decidable c] {error : ε} (other : error ≠ e) :
    Never e (reject c error : Session σ ε Unit) := by
  unfold reject
  split
  · exact never_throw other
  · exact never_pure _

theorem never_ofOption (value : Option α) {error : ε} (other : error ≠ e) :
    Never e (ofOption value error : Session σ ε α) := by
  cases value with
  | none => exact never_throw other
  | some value => exact never_pure value

theorem never_onlyIf (c : Prop) [Decidable c] {p : Session σ ε Unit} (never : Never e p) : Never e (onlyIf c p) := by
  unfold onlyIf
  split
  · exact never
  · exact never_pure _

theorem never_bind {p : Session σ ε α} {f : α → Session σ ε β} (first : Never e p) (rest : ∀ a, Never e (f a)) :
    Never e (p >>= f) := by
  intro s
  have here := first s
  rw [exec_bind]
  generalize exec p s = result at *
  obtain ⟨error | a,after⟩ := result
  · intro thrown
    cases thrown
    exact here rfl
  · exact rest a after

theorem never_tryCatch {p : Session σ ε α} {handler : ε → Session σ ε α}
    (handled : ∀ error, error ≠ e → Never e (handler error)) (body : Never e p) : Never e (tryCatch p handler) := by
  intro s
  have here := body s
  rw [exec_tryCatch]
  generalize exec p s = result at *
  obtain ⟨error | a,after⟩ := result
  · refine handled error ?_ after
    rintro rfl
    exact here rfl
  · intro thrown
    cases thrown

end Never

end Session

end RatifyOs.Data
