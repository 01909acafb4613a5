import RatifyOs.Async.System

/-! Cooperative scheduling: a call keeps the state to itself until its next await. What each
call relies on while it waits, and what it guarantees by the time it waits again. -/
namespace RatifyOs.Async

variable {Op : Type} {Ans : Op → Type} {ε α β σ κ χ : Type}

/-- The calls between two awaits. Threads keep their number for ever. -/
structure Stage (Op : Type) (Ans : Op → Type) (ε σ : Type) where
  state : σ
  threads : ℕ → Option (Thread Op Ans ε)
  count : ℕ

/-- A call is started, or the effect it awaits is answered; either way it runs on, each
effect by its own choice of the environment. -/
inductive Turn (κ χ : Type) where
  | start (call : κ) (choices : ℕ → χ)
  | resume (thread : ℕ) (choices : ℕ → χ)

namespace System
variable (s : System Op Ans ε σ κ χ) (awaits : Op → Bool)

/-- A call runs as far as its next await. -/
def drain (choices : ℕ → χ) : Program Op Ans ε Unit → ℕ → History Op Ans ε → σ → Thread Op Ans ε × σ
  | .perform op next, n, h, state =>
    if awaits op then (⟨.perform op next,h⟩,state)
    else
      let result := s.handle (choices n) op state
      drain choices (next result.1) (n + 1) (⟨op,result.1⟩ :: h) result.2
  | .pure value, _, h, state => (⟨.pure value,h⟩,state)
  | .throw error, _, h, state => (⟨.throw error,h⟩,state)

def turn (c : Stage Op Ans ε σ) : Turn κ χ → Stage Op Ans ε σ
  | .start call choices =>
    let rested := s.drain awaits choices (s.program call) 0 [] c.state
    { state := rested.2, threads := Function.update c.threads c.count (some rested.1), count := c.count + 1 }
  | .resume i choices =>
    match c.threads i with
    | some ⟨.perform op next,h⟩ =>
      let result := s.handle (choices 0) op c.state
      let rested := s.drain awaits choices (next result.1) 1 (⟨op,result.1⟩ :: h) result.2
      { c with state := rested.2, threads := Function.update c.threads i (some rested.1) }
    | _ => c

/-- Where the calls stand after the turns of a run. -/
def stage (c : Stage Op Ans ε σ) (run : List (Turn κ χ)) : Stage Op Ans ε σ := run.foldl (s.turn awaits) c

/-- Every turn of a run is as `P` has it, at the stage where it is taken. -/
def Takes (P : Stage Op Ans ε σ → Turn κ χ → Prop) : Stage Op Ans ε σ → List (Turn κ χ) → Prop
  | _, [] => True
  | c, turn :: run => P c turn ∧ Takes P (s.turn awaits c turn) run

variable {s awaits}

theorem takes_append {P : Stage Op Ans ε σ → Turn κ χ → Prop} {c : Stage Op Ans ε σ} {before after : List (Turn κ χ)} :
    s.Takes awaits P c (before ++ after) ↔ s.Takes awaits P c before ∧ s.Takes awaits P (s.stage awaits c before) after := by
  induction before generalizing c with
  | nil => simp [Takes,stage]
  | cons turn before ih => simp only [List.cons_append,Takes,ih,and_assoc,stage,List.foldl_cons]

theorem takes_of_forall {P : Stage Op Ans ε σ → Turn κ χ → Prop} {run : List (Turn κ χ)}
    (always : ∀ turn ∈ run, ∀ c, P c turn) (c : Stage Op Ans ε σ) : s.Takes awaits P c run := by
  induction run generalizing c with
  | nil => trivial
  | cons turn run ih =>
    exact ⟨always turn List.mem_cons_self c,ih (fun other inside => always other (List.mem_cons_of_mem _ inside)) _⟩

/-- What every turn keeps, a run keeps, and what every turn relates, a run relates. -/
theorem stage_induction {P : Stage Op Ans ε σ → Turn κ χ → Prop} {I : Stage Op Ans ε σ → Prop}
    {R : Stage Op Ans ε σ → Stage Op Ans ε σ → Prop} (refl : ∀ c, R c c)
    (trans : ∀ {a b c}, R a b → R b c → R a c)
    (step : ∀ {c turn}, I c → P c turn → I (s.turn awaits c turn) ∧ R c (s.turn awaits c turn))
    {c : Stage Op Ans ε σ} {run : List (Turn κ χ)} (holds : I c) (taken : s.Takes awaits P c run) :
    I (s.stage awaits c run) ∧ R c (s.stage awaits c run) := by
  induction run generalizing c with
  | nil => exact ⟨holds,refl c⟩
  | cons turn run ih =>
    obtain ⟨first,rest⟩ := taken
    obtain ⟨holds,related⟩ := step holds first
    obtain ⟨last,onward⟩ := ih holds rest
    exact ⟨last,trans related onward⟩

theorem drain_grows (choices : ℕ → χ) (p : Program Op Ans ε Unit) (n : ℕ) (h : History Op Ans ε) (state : σ) :
    h <:+ (s.drain awaits choices p n h state).1.history := by
  induction p generalizing n h state with
  | pure value => exact List.suffix_refl h
  | throw error => exact List.suffix_refl h
  | perform op next ih =>
    unfold drain
    split
    · exact List.suffix_refl h
    · exact (List.suffix_cons _ _).trans (ih _ _ _ _)

end System

def Stage.initial (state : σ) : Stage Op Ans ε σ := ⟨state,fun _ => none,0⟩

/-- What holds of the shared state at every await, by what the waiting call has done: `rests`
is what it may rely on when it goes on, `good` what it has done since it went on. -/
structure Contract (Op : Type) (Ans : Op → Type) (ε σ χ : Type) where
  handle : χ → (op : Op) → σ → Except ε (Ans op) × σ
  awaits : Op → Bool
  fits : History Op Ans ε → Op → σ → χ → Prop
  rests : History Op Ans ε → σ → Prop
  good : History Op Ans ε × σ → History Op Ans ε × σ → Prop

namespace Program
variable (k : Contract Op Ans ε σ χ)

/-- From the origin of its turn to its end, a program keeps the contract at every await, and
ends in `Q` where it returns and in `E` where it throws. -/
def keeps : Program Op Ans ε α → (α → History Op Ans ε × σ → History Op Ans ε × σ → Prop) →
    (ε → History Op Ans ε × σ → History Op Ans ε × σ → Prop) → History Op Ans ε × σ → History Op Ans ε → σ → Prop
  | .pure value, Q, _, origin, h, state => Q value origin (h,state)
  | .throw error, _, E, origin, h, state => E error origin (h,state)
  | .perform op next, Q, E, origin, h, state =>
    if k.awaits op then
      k.good origin (h,state) ∧ ∀ later, k.rests h later → ∀ choice, k.fits h op later choice →
        (next (k.handle choice op later).1).keeps Q E (h,later) (⟨op,(k.handle choice op later).1⟩ :: h)
          (k.handle choice op later).2
    else ∀ choice, k.fits h op state choice →
      (next (k.handle choice op state).1).keeps Q E origin (⟨op,(k.handle choice op state).1⟩ :: h)
        (k.handle choice op state).2

section Rules
variable {k} {Q Q' : α → History Op Ans ε × σ → History Op Ans ε × σ → Prop}
  {E E' : ε → History Op Ans ε × σ → History Op Ans ε × σ → Prop} {origin : History Op Ans ε × σ}
  {h : History Op Ans ε} {state : σ}

@[simp] theorem keeps_pure (value : α) :
    (Pure.pure value : Program Op Ans ε α).keeps k Q E origin h state ↔ Q value origin (h,state) := Iff.rfl

@[simp] theorem keeps_throw (error : ε) :
    (MonadExcept.throw error : Program Op Ans ε α).keeps k Q E origin h state ↔ E error origin (h,state) := Iff.rfl

@[simp] theorem keeps_ret (value : α) :
    (Program.pure value : Program Op Ans ε α).keeps k Q E origin h state ↔ Q value origin (h,state) := Iff.rfl

@[simp] theorem keeps_fail (error : ε) :
    (Program.throw error : Program Op Ans ε α).keeps k Q E origin h state ↔ E error origin (h,state) := Iff.rfl

theorem keeps_perform (op : Op) (next : Except ε (Ans op) → Program Op Ans ε α) :
    (perform op next).keeps k Q E origin h state ↔
      if k.awaits op then
        k.good origin (h,state) ∧ ∀ later, k.rests h later → ∀ choice, k.fits h op later choice →
          (next (k.handle choice op later).1).keeps k Q E (h,later) (⟨op,(k.handle choice op later).1⟩ :: h)
            (k.handle choice op later).2
      else ∀ choice, k.fits h op state choice →
        (next (k.handle choice op state).1).keeps k Q E origin (⟨op,(k.handle choice op state).1⟩ :: h)
          (k.handle choice op state).2 := Iff.rfl

@[simp] theorem keeps_bind (p : Program Op Ans ε β) (f : β → Program Op Ans ε α) :
    (p >>= f).keeps k Q E origin h state ↔
      p.keeps k (fun value origin now => (f value).keeps k Q E origin now.1 now.2) E origin h state := by
  change (p.bind f).keeps k Q E origin h state ↔ _
  induction p generalizing origin h state with
  | pure value => exact Iff.rfl
  | throw error => exact Iff.rfl
  | perform op next ih =>
    change (perform op fun answer => (next answer).bind f).keeps k Q E origin h state ↔ _
    simp only [keeps_perform,ih]

@[simp] theorem keeps_tryCatch (p : Program Op Ans ε α) (handler : ε → Program Op Ans ε α) :
    (MonadExcept.tryCatch p handler).keeps k Q E origin h state ↔
      p.keeps k Q (fun error origin now => (handler error).keeps k Q E origin now.1 now.2) origin h state := by
  change (p.tryCatch handler).keeps k Q E origin h state ↔ _
  induction p generalizing origin h state with
  | pure value => exact Iff.rfl
  | throw error => exact Iff.rfl
  | perform op next ih =>
    change (perform op fun answer => (next answer).tryCatch handler).keeps k Q E origin h state ↔ _
    simp only [keeps_perform,ih]

@[simp] theorem keeps_attempt (p : Program Op Ans ε β) (handler : ε → Program Op Ans ε α)
    (rest : β → Program Op Ans ε α) :
    (p.attempt handler rest).keeps k Q E origin h state ↔
      p.keeps k (fun value origin now => (rest value).keeps k Q E origin now.1 now.2)
        (fun error origin now => (handler error).keeps k Q E origin now.1 now.2) origin h state := by
  induction p generalizing origin h state with
  | pure value => exact Iff.rfl
  | throw error => exact Iff.rfl
  | perform op next ih =>
    change (perform op fun answer => (next answer).attempt handler rest).keeps k Q E origin h state ↔ _
    simp only [keeps_perform,ih]

theorem keeps_mono (p : Program Op Ans ε α) (kept : p.keeps k Q E origin h state)
    (returns : ∀ value origin now, Q value origin now → Q' value origin now)
    (throws : ∀ error origin now, E error origin now → E' error origin now) : p.keeps k Q' E' origin h state := by
  induction p generalizing origin h state with
  | pure value => exact returns _ _ _ kept
  | throw error => exact throws _ _ _ kept
  | perform op next ih =>
    rw [keeps_perform] at kept ⊢
    split at kept
    · rename_i waits
      rw [if_pos waits]
      exact ⟨kept.1,fun later rests choice fits => ih _ (kept.2 later rests choice fits)⟩
    · rename_i runs
      rw [if_neg runs]
      exact fun choice fits => ih _ (kept choice fits)

@[simp] theorem keeps_reject (c : Prop) [Decidable c] (error : ε)
    {Q : Unit → History Op Ans ε × σ → History Op Ans ε × σ → Prop} :
    (reject c error : Program Op Ans ε Unit).keeps k Q E origin h state ↔
      (c → E error origin (h,state)) ∧ (¬c → Q () origin (h,state)) := by
  unfold reject
  split <;> simp_all

@[simp] theorem keeps_ofExcept (value : Except ε α) :
    (ofExcept value : Program Op Ans ε α).keeps k Q E origin h state ↔
      (∀ v, value = .ok v → Q v origin (h,state)) ∧ ∀ error, value = .error error → E error origin (h,state) := by
  cases value <;> simp [ofExcept]

theorem keeps_onlyIf (c : Prop) [Decidable c] (p : Program Op Ans ε α)
    {Q : Unit → History Op Ans ε × σ → History Op Ans ε × σ → Prop}
    (kept : p.keeps k (fun _ => Q ()) E origin h state) (idle : Q () origin (h,state)) :
    (onlyIf c p).keeps k Q E origin h state := by
  unfold onlyIf
  split
  · exact (keeps_bind p fun _ => .pure ()).mpr kept
  · exact idle

theorem keeps_then {P : β → History Op Ans ε × σ → History Op Ans ε × σ → Prop} {p : Program Op Ans ε β}
    {f : β → Program Op Ans ε α} (first : p.keeps k P E origin h state)
    (rest : ∀ value origin h state, P value origin (h,state) → (f value).keeps k Q E origin h state) :
    (p >>= f).keeps k Q E origin h state := by
  rw [keeps_bind]
  exact keeps_mono p first (fun value origin now => rest value origin now.1 now.2) fun _ _ _ => id

theorem keeps_call {op : Op} (runs : k.awaits op = false)
    {Q : Ans op → History Op Ans ε × σ → History Op Ans ε × σ → Prop}
    (rest : ∀ choice, k.fits h op state choice →
      match (k.handle choice op state).1 with
      | .ok value => Q value origin (⟨op,.ok value⟩ :: h,(k.handle choice op state).2)
      | .error error => E error origin (⟨op,.error error⟩ :: h,(k.handle choice op state).2)) :
    (call op : Program Op Ans ε (Ans op)).keeps k Q E origin h state := by
  unfold call
  rw [keeps_perform,if_neg (by simp [runs])]
  intro choice fits
  have result := rest choice fits
  generalize (k.handle choice op state).1 = answer at result ⊢
  cases answer <;> exact result

/-- At an await the contract is kept, and the program goes on from whatever state it is
then in. -/
theorem keeps_await {op : Op} (waits : k.awaits op = true)
    {Q : Ans op → History Op Ans ε × σ → History Op Ans ε × σ → Prop} (good : k.good origin (h,state))
    (rest : ∀ later, k.rests h later → ∀ choice, k.fits h op later choice →
      match (k.handle choice op later).1 with
      | .ok value => Q value (h,later) (⟨op,.ok value⟩ :: h,(k.handle choice op later).2)
      | .error error => E error (h,later) (⟨op,.error error⟩ :: h,(k.handle choice op later).2)) :
    (call op : Program Op Ans ε (Ans op)).keeps k Q E origin h state := by
  unfold call
  rw [keeps_perform,if_pos waits]
  refine ⟨good,?_⟩
  intro later rests choice fits
  have result := rest later rests choice fits
  generalize (k.handle choice op later).1 = answer at result ⊢
  cases answer <;> exact result

end Rules

/-- A program that waits, and will keep the contract when it goes on. -/
def Ready (Q : α → History Op Ans ε × σ → History Op Ans ε × σ → Prop)
    (E : ε → History Op Ans ε × σ → History Op Ans ε × σ → Prop) (h : History Op Ans ε) : Program Op Ans ε α → Prop
  | .perform op next => ∀ later, k.rests h later → ∀ choice, k.fits h op later choice →
      (next (k.handle choice op later).1).keeps k Q E (h,later) (⟨op,(k.handle choice op later).1⟩ :: h)
        (k.handle choice op later).2
  | _ => True

end Program

/-- A call that has run as far as its next await has kept the contract and is ready to go
on, or it has ended. -/
theorem System.drain_keeps {s : System Op Ans ε σ κ χ} {k : Contract Op Ans ε σ χ} (same : k.handle = s.handle)
    {choices : ℕ → χ} (fits : ∀ n op h state, k.awaits op = false → k.fits h op state (choices n))
    {Q : Unit → History Op Ans ε × σ → History Op Ans ε × σ → Prop}
    {E : ε → History Op Ans ε × σ → History Op Ans ε × σ → Prop} (p : Program Op Ans ε Unit) (n : ℕ)
    {origin : History Op Ans ε × σ} {h : History Op Ans ε} {state : σ} (kept : p.keeps k Q E origin h state) :
    (match (s.drain k.awaits choices p n h state).1.program with
      | .pure value => Q value origin ((s.drain k.awaits choices p n h state).1.history,(s.drain k.awaits choices p n h state).2)
      | .throw error => E error origin ((s.drain k.awaits choices p n h state).1.history,(s.drain k.awaits choices p n h state).2)
      | .perform op _ => k.awaits op = true ∧
        k.good origin ((s.drain k.awaits choices p n h state).1.history,(s.drain k.awaits choices p n h state).2)) ∧
      (s.drain k.awaits choices p n h state).1.program.Ready k Q E (s.drain k.awaits choices p n h state).1.history := by
  induction p generalizing n h state with
  | pure value => exact ⟨kept,trivial⟩
  | throw error => exact ⟨kept,trivial⟩
  | perform op next ih =>
    unfold System.drain
    rw [Program.keeps_perform] at kept
    by_cases waits : k.awaits op
    · rw [if_pos waits] at kept ⊢
      exact ⟨⟨waits,kept.1⟩,kept.2⟩
    · rw [if_neg waits] at kept ⊢
      rw [same] at kept
      exact ih _ (n + 1) (kept (choices n) (fits n op h state (by simpa using waits)))

end RatifyOs.Async
