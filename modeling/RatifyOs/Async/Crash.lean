import RatifyOs.Async.Inline

/-! Programs that run one after the other over a state that outlives them, each to its end or
as far as the crash that cuts it off. -/
namespace RatifyOs.Async.Program

variable {Op Fine : Type} {Ans : Op → Type} {FineAns : Fine → Type} {ε α β σ χ : Type}

/-- What an effect asks of the state it is performed in, by what its answer and the state
after it are to meet. -/
abbrev Spec (Op : Type) (Ans : Op → Type) (ε σ : Type) := (op : Op) → (Except ε (Ans op) → σ → Prop) → σ → Prop

/-- What a program asks of the state, to return in `Q` or throw in `E`. -/
def holds (spec : Spec Op Ans ε σ) : Program Op Ans ε α → (α → σ → Prop) → (ε → σ → Prop) → σ → Prop
  | .pure value, Q, _, s => Q value s
  | .throw error, _, E, s => E error s
  | .perform op next, Q, E, s => spec op (fun answer s => (next answer).holds spec Q E s) s

section Rules
variable {spec : Spec Op Ans ε σ} {Q Q' : α → σ → Prop} {E E' : ε → σ → Prop} {s : σ}

@[simp] theorem holds_pure (value : α) : (Pure.pure value : Program Op Ans ε α).holds spec Q E s ↔ Q value s := Iff.rfl

@[simp] theorem holds_throw (error : ε) :
    (MonadExcept.throw error : Program Op Ans ε α).holds spec Q E s ↔ E error s := Iff.rfl

theorem holds_ret (value : α) : (.pure value : Program Op Ans ε α).holds spec Q E s ↔ Q value s := Iff.rfl

theorem holds_fail (error : ε) : (.throw error : Program Op Ans ε α).holds spec Q E s ↔ E error s := Iff.rfl

theorem holds_perform (op : Op) (next : Except ε (Ans op) → Program Op Ans ε α) :
    (perform op next).holds spec Q E s ↔ spec op (fun answer s => (next answer).holds spec Q E s) s := Iff.rfl

@[simp] theorem holds_bind (p : Program Op Ans ε β) (f : β → Program Op Ans ε α) :
    (p >>= f).holds spec Q E s ↔ p.holds spec (fun value s => (f value).holds spec Q E s) E s := by
  change (p.bind f).holds spec Q E s ↔ _
  induction p generalizing s with
  | pure value => exact Iff.rfl
  | throw error => exact Iff.rfl
  | perform op next ih =>
    change (perform op fun answer => (next answer).bind f).holds spec Q E s ↔ _
    simp only [holds_perform,ih]

@[simp] theorem holds_tryCatch (p : Program Op Ans ε α) (handler : ε → Program Op Ans ε α) :
    (MonadExcept.tryCatch p handler).holds spec Q E s ↔
      p.holds spec Q (fun error s => (handler error).holds spec Q E s) s := by
  change (p.tryCatch handler).holds spec Q E s ↔ _
  induction p generalizing s with
  | pure value => exact Iff.rfl
  | throw error => exact Iff.rfl
  | perform op next ih =>
    change (perform op fun answer => (next answer).tryCatch handler).holds spec Q E s ↔ _
    simp only [holds_perform,ih]

@[simp] theorem holds_attempt (p : Program Op Ans ε β) (handler : ε → Program Op Ans ε α)
    (rest : β → Program Op Ans ε α) :
    (p.attempt handler rest).holds spec Q E s ↔
      p.holds spec (fun value s => (rest value).holds spec Q E s)
        (fun error s => (handler error).holds spec Q E s) s := by
  induction p generalizing s with
  | pure value => exact Iff.rfl
  | throw error => exact Iff.rfl
  | perform op next ih =>
    change (perform op fun answer => (next answer).attempt handler rest).holds spec Q E s ↔ _
    simp only [holds_perform,ih]

theorem holds_call (op : Op) {Q : Ans op → σ → Prop} :
    (call op : Program Op Ans ε (Ans op)).holds spec Q E s ↔
      spec op (fun answer s => match answer with
        | .ok value => Q value s
        | .error error => E error s) s := by
  refine (holds_perform op _).trans (iff_of_eq ?_)
  congr 1
  funext answer s
  cases answer <;> rfl

@[simp] theorem holds_reject (c : Prop) [Decidable c] (error : ε) {Q : Unit → σ → Prop} :
    (reject c error : Program Op Ans ε Unit).holds spec Q E s ↔ (c → E error s) ∧ (¬c → Q () s) := by
  unfold reject
  split <;> simp_all [holds_ret,holds_fail]

@[simp] theorem holds_ofExcept (value : Except ε α) :
    (ofExcept value : Program Op Ans ε α).holds spec Q E s ↔
      (∀ v, value = .ok v → Q v s) ∧ ∀ error, value = .error error → E error s := by
  cases value <;> simp [ofExcept,holds_ret,holds_fail]

@[simp] theorem holds_ofOption (value : Option α) (error : ε) :
    (ofOption value error : Program Op Ans ε α).holds spec Q E s ↔
      (∀ v, value = some v → Q v s) ∧ (value = none → E error s) := by
  cases value <;> simp [ofOption,holds_ret,holds_fail]

/-- A record that was read back is there and does not differ, or an error is thrown. -/
theorem holds_checked {found : Option β} {error : ε} {differs : β → Prop} [DecidablePred differs] {next : β → Program Op Ans ε α} :
    (do
      let r ← ofOption found error
      reject (differs r) error
      next r : Program Op Ans ε α).holds spec Q E s ↔
      (found = none → E error s) ∧ ∀ r, found = some r → (differs r → E error s) ∧ (¬differs r → (next r).holds spec Q E s) := by
  rw [holds_bind,holds_ofOption,and_comm]
  refine and_congr_right fun _ => forall₂_congr fun r _ => ?_
  rw [holds_bind,holds_reject]

theorem holds_agreed {r : β} {error : ε} {differs : β → Prop} [DecidablePred differs] {next : β → Program Op Ans ε α}
    (agrees : ¬differs r) (goes : (next r).holds spec Q E s) :
    (do
      let r ← ofOption (some r) error
      reject (differs r) error
      next r : Program Op Ans ε α).holds spec Q E s := by
  refine holds_checked.mpr ⟨nofun,fun _ there => ?_⟩
  cases there
  exact ⟨fun other => absurd other agrees,fun _ => goes⟩

/-- An effect that asks no more where more is allowed to follow. -/
def Spec.Monotone (spec : Spec Op Ans ε σ) : Prop :=
  ∀ op (P P' : Except ε (Ans op) → σ → Prop) s, (∀ answer s, P answer s → P' answer s) → spec op P s → spec op P' s

theorem holds_mono (mono : Spec.Monotone spec) (p : Program Op Ans ε α) (good : p.holds spec Q E s)
    (returns : ∀ value s, Q value s → Q' value s) (throws : ∀ error s, E error s → E' error s) :
    p.holds spec Q' E' s := by
  induction p generalizing s with
  | pure value => exact returns _ _ good
  | throw error => exact throws _ _ good
  | perform op next ih =>
    apply mono op _ _ s _ good
    intro answer s good
    exact ih answer good

theorem holds_then (mono : Spec.Monotone spec) {P : β → σ → Prop} {p : Program Op Ans ε β} {f : β → Program Op Ans ε α}
    (first : p.holds spec P E s) (rest : ∀ value s, P value s → (f value).holds spec Q E s) :
    (p >>= f).holds spec Q E s := by
  rw [holds_bind]
  exact holds_mono mono p first rest fun _ _ thrown => thrown

/-- The program that performs an effect is what the effect asks. -/
def within (body : (op : Op) → Program Fine FineAns ε (Ans op)) (spec : Spec Fine FineAns ε σ) : Spec Op Ans ε σ :=
  fun op P s => (body op).holds spec (fun value => P (.ok value)) (fun error => P (.error error)) s

theorem holds_inline (body : (op : Op) → Program Fine FineAns ε (Ans op)) (fine : Spec Fine FineAns ε σ)
    (p : Program Op Ans ε α) : (p.inline body).holds fine Q E s ↔ p.holds (within body fine) Q E s := by
  induction p generalizing s with
  | pure value => exact Iff.rfl
  | throw error => exact Iff.rfl
  | perform op next ih =>
    rw [inline,holds_attempt]
    simp only [ih]
    exact Iff.rfl

theorem within_mono {body : (op : Op) → Program Fine FineAns ε (Ans op)} {fine : Spec Fine FineAns ε σ}
    (mono : Spec.Monotone fine) : Spec.Monotone (within body fine) := by
  intro op P P' s weaker good
  exact holds_mono mono (body op) good (fun value => weaker (.ok value)) fun error => weaker (.error error)

end Rules

section Lives
variable (handle : χ → (op : Op) → σ → Except ε (Ans op) × σ)

/-- As far as the choices reach: what is left of the program, and the state. -/
def exec : Program Op Ans ε α → List χ → σ → Program Op Ans ε α × σ
  | .perform op next, choice :: choices, s => exec (next (handle choice op s).1) choices (handle choice op s).2
  | p, _, s => (p,s)

variable (fits : (op : Op) → σ → χ → Prop)

/-- Every effect is answered by a choice that fits the state it is performed in. -/
def Fitting : Program Op Ans ε α → List χ → σ → Prop
  | .perform op next, choice :: choices, s =>
    fits op s choice ∧ Fitting (next (handle choice op s).1) choices (handle choice op s).2
  | _, _, _ => True

instance decidableFitting [∀ op s choice, Decidable (fits op s choice)] :
    (p : Program Op Ans ε α) → (choices : List χ) → (s : σ) → Decidable (p.Fitting handle fits choices s)
  | .perform op next, choice :: choices, s =>
    have := decidableFitting (next (handle choice op s).1) choices (handle choice op s).2
    inferInstanceAs (Decidable (fits op s choice ∧ _))
  | .perform _ _, [], _ => .isTrue trivial
  | .pure _, _, _ => .isTrue trivial
  | .throw _, _, _ => .isTrue trivial

/-- An effect keeps `I` where a crash may fall, and is answered by a choice that fits. -/
def effect (I : σ → Prop) : Spec Op Ans ε σ :=
  fun op P s => I s ∧ ∀ choice, fits op s choice → P (handle choice op s).1 (handle choice op s).2

variable {handle fits} {I : σ → Prop} {Q : α → σ → Prop} {E : ε → σ → Prop}

theorem effect_mono : Spec.Monotone (effect handle fits I : Spec Op Ans ε σ) := by
  intro op P P' s weaker good
  exact ⟨good.1,fun choice fitting => weaker _ _ (good.2 choice fitting)⟩

theorem exec_holds (p : Program Op Ans ε α) (choices : List χ) {s : σ} (good : p.holds (effect handle fits I) Q E s)
    (fitting : p.Fitting handle fits choices s) :
    match p.exec handle choices s with
    | (.pure value,s) => Q value s
    | (.throw error,s) => E error s
    | (.perform _ _,s) => I s := by
  induction p generalizing choices s with
  | pure value => exact good
  | throw error => exact good
  | perform op next ih =>
    cases choices with
    | nil => exact good.1
    | cons choice choices => exact ih _ choices (good.2 choice fitting.1) fitting.2

/-- A program whose effects only read leaves the state alone, wherever it stops. -/
theorem exec_reads {reads : Op → Prop} (alone : ∀ choice op s, reads op → (handle choice op s).2 = s)
    (p : Program Op Ans ε α) {h : History Op Ans ε} (only : p.wp (fun _ op => reads op) (fun _ _ => True) (fun _ _ => True) h)
    (choices : List χ) (s : σ) : (p.exec handle choices s).2 = s := by
  induction p generalizing choices s h with
  | pure value => rfl
  | throw error => rfl
  | perform op next ih =>
    cases choices with
    | nil => rfl
    | cons choice choices => exact (ih _ (only.2 _) choices _).trans (alone choice op s only.1)

variable (handle fits) (restart : σ → σ) (calm : σ → Prop) (p : Program Op Ans ε α)

def life (s : σ) (choices : List χ) : σ :=
  match p.exec handle choices s with
  | (.perform _ _,s) => restart s
  | (_,s) => s

def Calm (s : σ) (choices : List χ) : Prop :=
  p.Fitting handle fits choices s ∧
    match p.exec handle choices s with
    | (.perform _ _,s) => calm s
    | _ => True

def lives (s : σ) (all : List (List χ)) : σ := all.foldl (p.life handle restart) s

def AllCalm : σ → List (List χ) → Prop
  | _, [] => True
  | s, choices :: all => p.Calm handle fits calm s choices ∧ AllCalm (p.life handle restart s choices) all

variable {handle fits restart calm p}

/-- What the program keeps and a calm crash keeps, every sequence of lives keeps. -/
theorem lives_keep {J : σ → Prop} (runs : ∀ s, J s → p.holds (effect handle fits I) (fun _ => J) (fun _ => J) s)
    (crashes : ∀ s, I s → calm s → J (restart s)) {all : List (List χ)} {s : σ} (holds : J s)
    (allCalm : p.AllCalm handle fits restart calm s all) : J (p.lives handle restart s all) := by
  induction all generalizing s with
  | nil => exact holds
  | cons choices all ih =>
    obtain ⟨⟨fitting,falls⟩,rest⟩ := allCalm
    apply ih _ rest
    have ended := exec_holds p choices (runs s holds) fitting
    unfold life
    generalize p.exec handle choices s = result at ended falls ⊢
    obtain ⟨program,after⟩ := result
    cases program with
    | pure value => exact ended
    | throw error => exact ended
    | perform op next => exact crashes after ended falls

end Lives

end RatifyOs.Async.Program
