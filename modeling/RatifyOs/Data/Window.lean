import Mathlib.Algebra.BigOperators.Group.List.Basic
import Mathlib.Algebra.Order.BigOperators.Group.List
import Mathlib.Algebra.Ring.Int.Defs
import Mathlib.Data.Int.Notation

/-! Rolling limits. Rows are admitted one after the other, each when it and the earlier
rows within its reach stay under a cap; a window in which all rows reach each other then
stays under the cap, whatever the time it is looked at. -/
namespace RatifyOs.Data.Window

variable {ρ : Type} (amount : ρ → ℤ)

def total (p : ρ → Bool) (rows : List ρ) : ℤ := ((rows.filter p).map amount).sum

@[simp] theorem total_nil (p : ρ → Bool) : total amount p [] = 0 := rfl

theorem total_cons (p : ρ → Bool) (x : ρ) (rows : List ρ) :
    total amount p (x :: rows) = (if p x then amount x else 0) + total amount p rows := by
  cases holds : p x <;> simp [total,holds]

theorem total_reverse (p : ρ → Bool) (rows : List ρ) : total amount p rows.reverse = total amount p rows := by
  unfold total
  rw [List.filter_reverse,List.map_reverse,List.sum_reverse]

theorem total_mono {p q : ρ → Bool} {rows : List ρ} (nonneg : ∀ y ∈ rows, q y → 0 ≤ amount y)
    (implies : ∀ y ∈ rows, p y → q y) : total amount p rows ≤ total amount q rows := by
  induction rows with
  | nil => simp
  | cons x rows ih =>
    have rest := ih (fun y inside => nonneg y (List.mem_cons_of_mem _ inside))
      (fun y inside => implies y (List.mem_cons_of_mem _ inside))
    have here := implies x List.mem_cons_self
    have positive := nonneg x List.mem_cons_self
    rw [total_cons,total_cons]
    by_cases counted : q x
    · have more := positive counted
      by_cases also : p x
      · simp only [counted,also,if_true]
        omega
      · simp only [counted,also,if_true]
        simp only [Bool.false_eq_true,if_false]
        omega
    · have out : ¬p x := fun also => counted (here also)
      simp only [counted,out]
      simp only [Bool.false_eq_true,if_false]
      omega

/-- Each row, newest first, was admitted under the cap with the older rows in its reach. -/
def Admitted (cap : ℤ) (counted : ρ → Bool) (reach : ρ → ρ → Bool) : List ρ → Prop
  | [] => True
  | x :: older => (counted x → total amount (fun y => counted y && reach x y) older + amount x ≤ cap) ∧
      Admitted cap counted reach older

variable {amount} {cap : ℤ} {counted : ρ → Bool} {reach : ρ → ρ → Bool}

theorem Admitted.within {rows : List ρ} (admitted : Admitted amount cap counted reach rows) (room : 0 ≤ cap)
    (nonneg : ∀ y ∈ rows, counted y → 0 ≤ amount y) {window : ρ → Bool}
    (reaches : rows.Pairwise fun x y => counted x → counted y → window x → window y → reach x y) :
    total amount (fun y => counted y && window y) rows ≤ cap := by
  induction rows with
  | nil => simpa using room
  | cons x older ih =>
    obtain ⟨near,apart⟩ := List.pairwise_cons.mp reaches
    have rest := ih admitted.2 (fun y inside => nonneg y (List.mem_cons_of_mem _ inside)) apart
    rw [total_cons]
    by_cases inside : counted x && window x
    · simp only [inside,if_true]
      rw [Bool.and_eq_true] at inside
      have fits := admitted.1 inside.1
      have fewer : total amount (fun y => counted y && window y) older ≤
          total amount (fun y => counted y && reach x y) older := by
        apply total_mono
        · intro y member holds
          exact nonneg y (List.mem_cons_of_mem _ member) (Bool.and_eq_true _ _ ▸ holds).1
        · intro y member holds
          rw [Bool.and_eq_true] at holds ⊢
          exact ⟨holds.1,near y member inside.1 holds.1 inside.2 holds.2⟩
      omega
    · simp only [inside]
      simpa using rest

theorem Admitted.map {rows : List ρ} (admitted : Admitted amount cap counted reach rows) {f : ρ → ρ}
    {reach' : ρ → ρ → Bool} (same : ∀ y, amount (f y) = amount y) (fewer : ∀ y, counted (f y) → counted y)
    (nonneg : ∀ y ∈ rows, counted y → 0 ≤ amount y)
    (shorter : rows.Pairwise fun x y => counted (f x) → counted (f y) → reach' (f x) (f y) → reach x y) :
    Admitted amount cap counted reach' (rows.map f) := by
  induction rows with
  | nil => trivial
  | cons x older ih =>
    obtain ⟨near,apart⟩ := List.pairwise_cons.mp shorter
    have kept := fun y inside => nonneg y (List.mem_cons_of_mem x inside)
    refine ⟨fun counts => ?_,ih admitted.2 kept apart⟩
    have fits := admitted.1 (fewer x counts)
    have mapped : ∀ p : ρ → Bool, total amount p (older.map f) = total amount (p ∘ f) older := by
      intro p
      unfold total
      rw [List.filter_map,List.map_map]
      congr 2
      funext y
      exact same y
    rw [mapped,same]
    have less : total amount ((fun y => counted y && reach' (f x) y) ∘ f) older ≤
        total amount (fun y => counted y && reach x y) older := by
      apply total_mono
      · intro y inside holds
        exact kept y inside (Bool.and_eq_true _ _ ▸ holds).1
      · intro y inside holds
        simp only [Function.comp_apply,Bool.and_eq_true] at holds ⊢
        exact ⟨fewer y holds.1,near y inside counts holds.1 holds.2⟩
    omega

theorem total_sublist {p : ρ → Bool} {fewer rows : List ρ} (sublist : fewer.Sublist rows)
    (nonneg : ∀ y ∈ rows, p y → 0 ≤ amount y) : total amount p fewer ≤ total amount p rows := by
  induction sublist with
  | slnil => simp
  | @cons l rows x sub ih =>
    have rest := ih fun y inside => nonneg y (List.mem_cons_of_mem _ inside)
    have here := nonneg x List.mem_cons_self
    rw [total_cons]
    by_cases holds : p x
    · have more := here holds
      simp only [holds,if_true]
      omega
    · simp only [holds]
      simpa using rest
  | @cons_cons l rows x sub ih =>
    have rest := ih fun y inside => nonneg y (List.mem_cons_of_mem _ inside)
    rw [total_cons,total_cons]
    omega

theorem Admitted.sublist {fewer rows : List ρ} (admitted : Admitted amount cap counted reach rows)
    (sub : fewer.Sublist rows) (nonneg : ∀ y ∈ rows, counted y → 0 ≤ amount y) :
    Admitted amount cap counted reach fewer := by
  induction sub with
  | slnil => trivial
  | cons x sub ih => exact ih admitted.2 fun y inside => nonneg y (List.mem_cons_of_mem _ inside)
  | @cons_cons l rows x sub ih =>
    have kept := fun y inside => nonneg y (List.mem_cons_of_mem x inside)
    refine ⟨fun counts => ?_,ih admitted.2 kept⟩
    have fits := admitted.1 counts
    have less := total_sublist (p := fun y => counted y && reach x y) sub fun y inside holds =>
      kept y inside (Bool.and_eq_true _ _ ▸ holds).1
    omega

end RatifyOs.Data.Window
