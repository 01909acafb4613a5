import Mathlib.Data.List.Forall2
import Mathlib.Data.Nat.Notation
import Mathlib.Order.Lattice

/-! A list gone through one element after another, with a state, by a function that may fail. -/
namespace RatifyOs.Data.Through
variable {α α' β γ σ σ' : Type}

def through (f : α → σ → Option (β × σ)) : List α → σ → Option (List β × σ)
  | [], s => some ([],s)
  | a :: items, s => do
    let (b,s) ← f a s
    let (rest,s) ← through f items s
    return (b :: rest,s)

theorem through_cons_eq_some {f : α → σ → Option (β × σ)} {a : α} {items : List α} {s : σ} {out : List β × σ} :
    through f (a :: items) s = some out ↔
      ∃ b middle rest after, f a s = some (b,middle) ∧ through f items middle = some (rest,after) ∧ out = (b :: rest,after) := by
  simp only [through,Option.bind_eq_bind,Option.bind_eq_some_iff,Option.pure_def,Option.some.injEq,Prod.exists]
  constructor
  · rintro ⟨b,middle,first,rest,after,others,rfl⟩
    exact ⟨b,middle,rest,after,first,others,rfl⟩
  · rintro ⟨b,middle,rest,after,first,others,rfl⟩
    exact ⟨b,middle,first,rest,after,others,rfl⟩

/-- The same result, and states that belong to each other. -/
def Alike (R : σ → σ' → Prop) : Option (β × σ) → Option (β × σ') → Prop :=
  Option.Rel fun x y => x.1 = y.1 ∧ R x.2 y.2

theorem Alike.bind {R : σ → σ' → Prop} {x : Option (β × σ)} {y : Option (β × σ')} {next : β × σ → Option (γ × σ)}
    {next' : β × σ' → Option (γ × σ')} (first : Alike R x y) (later : ∀ b s s', R s s' → Alike R (next (b,s)) (next' (b,s'))) :
    Alike R (x >>= next) (y >>= next') := by
  cases first with
  | none => exact .none
  | @some x y both =>
    obtain ⟨b,s⟩ := x
    obtain ⟨b',s'⟩ := y
    obtain ⟨rfl,states⟩ := both
    exact later b s s' states

/-- Two lists gone through alike, element by element. -/
theorem through_alike {R : σ → σ' → Prop} {f : α → σ → Option (β × σ)} {g : α' → σ' → Option (β × σ')} {items : List α}
    {items' : List α'} (each : List.Forall₂ (fun a a' => ∀ s s', R s s' → Alike R (f a s) (g a' s')) items items')
    {s : σ} {s' : σ'} (start : R s s') : Alike R (through f items s) (through g items' s') := by
  induction each generalizing s s' with
  | nil => exact .some ⟨rfl,start⟩
  | @cons a a' items items' first others ih =>
    refine (first s s' start).bind fun b s s' middle => ?_
    exact (ih middle).bind fun rest s s' after => .some ⟨rfl,after⟩

/-- What succeeds goes on to succeed. -/
theorem through_mono {f g : α → σ → Option (β × σ)} {items : List α}
    (more : ∀ a ∈ items, ∀ s x, f a s = some x → g a s = some x) {s : σ} {out : List β × σ}
    (done : through f items s = some out) : through g items s = some out := by
  induction items generalizing s out with
  | nil => exact done
  | cons a items ih =>
    obtain ⟨b,middle,rest,after,first,others,rfl⟩ := through_cons_eq_some.mp done
    obtain ⟨here,later⟩ := List.forall_mem_cons.mp more
    exact through_cons_eq_some.mpr ⟨b,middle,rest,after,here _ _ first,ih later others,rfl⟩

/-- With enough fuel for each element in each state that may come, there is enough for all of them. -/
theorem through_total {f : ℕ → α → σ → Option (β × σ)} {grows : σ → σ → Prop} (refl : ∀ s, grows s s)
    (trans : ∀ a b c, grows a b → grows b c → grows a c)
    (mono : ∀ m n a s x, m ≤ n → f m a s = some x → f n a s = some x) {start : σ} {items : List α}
    (each : ∀ a ∈ items, ∀ s, grows start s → ∃ n b after, f n a s = some (b,after) ∧ grows s after) {s : σ} (here : grows start s) :
    ∃ n out after, through (f n) items s = some (out,after) ∧ grows s after := by
  induction items generalizing s with
  | nil => exact ⟨0,[],s,rfl,refl s⟩
  | cons a items ih =>
    obtain ⟨first,later⟩ := List.forall_mem_cons.mp each
    obtain ⟨m,b,middle,done,grown⟩ := first s here
    obtain ⟨n,rest,after,others,grown'⟩ := ih later (trans _ _ _ here grown)
    refine ⟨max m n,b :: rest,after,through_cons_eq_some.mpr ⟨b,middle,rest,after,?_,?_,rfl⟩,trans _ _ _ grown grown'⟩
    · exact mono _ _ _ _ _ (le_max_left m n) done
    · exact through_mono (fun a _ s x => mono _ _ a s x (le_max_right m n)) others

section Map
variable {f : α → Option β} {g : α' → Option β}

theorem mapM_congr {items : List α} {items' : List α'} (each : List.Forall₂ (fun a a' => f a = g a') items items') :
    items.mapM f = items'.mapM g := by
  induction each with
  | nil => rfl
  | cons first others ih => rw [List.mapM_cons,List.mapM_cons,first,ih]

/-- From some fuel on, each element has its result; then so has the list. -/
theorem mapM_eventually {f : ℕ → α → Option β} {items : List α} (each : ∀ a ∈ items, ∃ b n, ∀ m, n ≤ m → f m a = some b) :
    ∃ out n, ∀ m, n ≤ m → items.mapM (f m) = some out := by
  induction items with
  | nil => exact ⟨[],0,fun m _ => rfl⟩
  | cons a items ih =>
    obtain ⟨first,later⟩ := List.forall_mem_cons.mp each
    obtain ⟨b,n,done⟩ := first
    obtain ⟨rest,n',others⟩ := ih later
    refine ⟨b :: rest,max n n',fun m enough => ?_⟩
    rw [List.mapM_cons,done m ((le_max_left n n').trans enough),others m ((le_max_right n n').trans enough)]
    rfl

end Map

end RatifyOs.Data.Through
