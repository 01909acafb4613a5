import Mathlib.Data.List.Forall2

/-! Checks that throw, as a synchronous function writes them, and what it means that
all of them passed. -/
namespace RatifyOs.Data

/-- A string that is there and not empty, as `if (s)` asks. -/
def present (s : Option String) : Option String := s.filter (· ≠ "")

@[simp] theorem present_eq_some {s : Option String} {v : String} :
    present s = some v ↔ s = some v ∧ v ≠ "" := by
  simp [present,Option.filter_eq_some_iff]

namespace Result

variable {ε α β : Type}

/-- `if (c) throw e` -/
def reject (c : Prop) [Decidable c] (error : ε) : Except ε Unit :=
  if c then .error error else .ok ()

/-- The value of an optional, or the given error where it is absent. -/
def required (value : Option α) (error : ε) : Except ε α :=
  match value with
  | some value => .ok value
  | none => .error error

@[simp] theorem bind_eq_ok {x : Except ε α} {f : α → Except ε β} {b : β} :
    x >>= f = .ok b ↔ ∃ a, x = .ok a ∧ f a = .ok b := by
  cases x <;> simp [bind,Except.bind]

@[simp] theorem pure_eq_ok {a b : α} : (pure a : Except ε α) = .ok b ↔ a = b := by
  simp [pure,Except.pure]

@[simp] theorem throw_eq_ok {error : ε} {b : α} : (throw error : Except ε α) = .ok b ↔ False := by
  simp [throw,throwThe,MonadExceptOf.throw]

@[simp] theorem reject_eq_ok {c : Prop} [Decidable c] {error : ε} {u : Unit} :
    reject c error = .ok u ↔ ¬c := by
  unfold reject
  split <;> simp_all

@[simp] theorem required_eq_ok {value : Option α} {error : ε} {a : α} :
    required value error = .ok a ↔ value = some a := by
  cases value <;> simp [required]

theorem isOk_iff {x : Except ε α} : x.isOk = true ↔ ∃ a, x = .ok a := by
  cases x with
  | error error => exact ⟨nofun,nofun⟩
  | ok a => exact ⟨fun _ => ⟨a,rfl⟩,fun _ => rfl⟩

theorem forM_eq_ok {f : α → Except ε Unit} {items : List α} : items.forM f = .ok () ↔ ∀ a ∈ items, f a = .ok () := by
  induction items with
  | nil => exact ⟨nofun,fun _ => rfl⟩
  | cons a items ih =>
    rw [List.forall_mem_cons,← ih]
    refine bind_eq_ok.trans ⟨?_,fun both => ⟨(),both⟩⟩
    rintro ⟨_,both⟩
    exact both

theorem mapM_eq_ok {f : α → Except ε β} {items : List α} {out : List β} :
    items.mapM f = .ok out ↔ List.Forall₂ (fun a b => f a = .ok b) items out := by
  induction items generalizing out with
  | nil => rw [List.mapM_nil,pure_eq_ok,List.forall₂_nil_left_iff,eq_comm]
  | cons a items ih =>
    simp only [List.mapM_cons,bind_eq_ok,pure_eq_ok,ih,List.forall₂_cons_left_iff]
    constructor
    · rintro ⟨b,first,rest,others,rfl⟩
      exact ⟨b,rest,first,others,rfl⟩
    · rintro ⟨b,rest,first,others,rfl⟩
      exact ⟨b,first,rest,others,rfl⟩

theorem exists_mapM_eq_ok (f : α → Except ε β) (items : List α) : (∃ out, items.mapM f = .ok out) ↔ ∀ a ∈ items, ∃ b, f a = .ok b := by
  simp only [mapM_eq_ok]
  induction items with
  | nil => simp
  | cons a items ih =>
    rw [List.forall_mem_cons,← ih]
    constructor
    · rintro ⟨_,first | ⟨first,others⟩⟩
      exact ⟨⟨_,first⟩,_,others⟩
    · rintro ⟨⟨b,first⟩,out,others⟩
      exact ⟨b :: out,.cons first others⟩

theorem mem_of_mapM {f : α → Except ε β} {items : List α} {out : List β} (done : items.mapM f = .ok out) :
    ∀ b ∈ out, ∃ a ∈ items, f a = .ok b := by
  have made := mapM_eq_ok.mp done
  clear done
  induction made with
  | nil => nofun
  | cons first others ih =>
    refine List.forall_mem_cons.mpr ⟨⟨_,.head _,first⟩,fun b inside => ?_⟩
    obtain ⟨a,there,same⟩ := ih b inside
    exact ⟨a,.tail _ there,same⟩

/-- What a map over a list throws, one of the elements has thrown. -/
theorem error_of_mapM {f : α → Except ε β} {items : List α} {error : ε} (thrown : items.mapM f = .error error) :
    ∃ a ∈ items, f a = .error error := by
  induction items with
  | nil => cases thrown
  | cons a items ih =>
    rw [List.mapM_cons] at thrown
    cases first : f a with
    | error other =>
      rw [first] at thrown
      cases thrown
      exact ⟨a,.head _,first⟩
    | ok b =>
      rw [first] at thrown
      cases rest : items.mapM f with
      | error other =>
        rw [rest] at thrown
        cases thrown
        obtain ⟨a',inside,same⟩ := ih rest
        exact ⟨a',.tail _ inside,same⟩
      | ok bs =>
        rw [rest] at thrown
        cases thrown

/-- What the lists hold that the elements are mapped to. -/
theorem mem_flatten_mapM {f : α → Except ε (List β)} {b : β} {holds : α → Prop}
    (each : ∀ a out, f a = .ok out → (b ∈ out ↔ holds a)) {items : List α} {outs : List (List β)}
    (done : items.mapM f = .ok outs) : b ∈ outs.flatten ↔ ∃ a ∈ items, holds a := by
  have made := mapM_eq_ok.mp done
  clear done
  induction made with
  | nil => simp
  | cons first others ih =>
    rw [List.flatten_cons,List.mem_append,List.exists_mem_cons_iff]
    exact or_congr (each _ _ first) ih

end Result

end RatifyOs.Data
