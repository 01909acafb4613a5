import Mathlib.Data.List.Forall2
import Mathlib.Data.List.Sort

/-! Lists of keys with something under each, brought into the order of the keys. -/
namespace RatifyOs.Data.Keyed
variable {κ α β : Type} [LinearOrder κ]

def sort (fields : List (κ × α)) : List (κ × α) := fields.insertionSort fun a b => a.1 ≤ b.1

theorem sort_perm (fields : List (κ × α)) : (sort fields).Perm fields := List.perm_insertionSort _ fields

theorem sort_pairwise (fields : List (κ × α)) : (sort fields).Pairwise fun a b => a.1 ≤ b.1 := by
  have total : Std.Total fun a b : κ × α => a.1 ≤ b.1 := ⟨fun a b => le_total a.1 b.1⟩
  have trans : IsTrans (κ × α) fun a b => a.1 ≤ b.1 := ⟨fun a b c => le_trans⟩
  exact List.pairwise_insertionSort _ fields

theorem sort_sort (fields : List (κ × α)) : sort (sort fields) = sort fields :=
  List.Pairwise.insertionSort_eq (sort_pairwise fields)

theorem keys_sort (fields : List (κ × α)) : ((sort fields).map (·.1)).Perm (fields.map (·.1)) :=
  (sort_perm fields).map _

theorem insert_forall₂ {R : κ × α → κ × β → Prop} (keys : ∀ a b, R a b → a.1 = b.1) {a : κ × α} {b : κ × β}
    (first : R a b) {as : List (κ × α)} {bs : List (κ × β)} (others : List.Forall₂ R as bs) :
    List.Forall₂ R (as.orderedInsert (fun a b => a.1 ≤ b.1) a) (bs.orderedInsert (fun a b => a.1 ≤ b.1) b) := by
  induction others with
  | nil => exact .cons first .nil
  | @cons a' b' as bs second others ih =>
    simp only [List.orderedInsert,keys a b first,keys a' b' second]
    split
    · exact .cons first (.cons second others)
    · exact .cons second ih

/-- What holds between two lists key by key holds between them in order. -/
theorem sort_forall₂ {R : κ × α → κ × β → Prop} (keys : ∀ a b, R a b → a.1 = b.1) {as : List (κ × α)}
    {bs : List (κ × β)} (items : List.Forall₂ R as bs) : List.Forall₂ R (sort as) (sort bs) := by
  induction items with
  | nil => exact .nil
  | cons first others ih => exact insert_forall₂ keys first ih

/-- With no key twice, only one order is left. -/
theorem sort_eq_of_perm {fields fields' : List (κ × α)} (perm : fields.Perm fields')
    (distinct : (fields.map (·.1)).Nodup) : sort fields = sort fields' := by
  have swapped : (sort fields).Perm (sort fields') := ((sort_perm fields).trans perm).trans (sort_perm fields').symm
  apply swapped.eq_of_pairwise _ (sort_pairwise fields) (sort_pairwise fields')
  intro a b there there' le le'
  have inside := (sort_perm fields).mem_iff.mp there
  have inside' := perm.mem_iff.mpr ((sort_perm fields').mem_iff.mp there')
  exact List.inj_on_of_nodup_map distinct inside inside' (le_antisymm le le')

section Distinct
variable {κ α : Type} {fields fields' : List (κ × α)}

/-- The same fields under the same keys are in the same places. -/
theorem eq_of_perm (keys : fields.map (·.1) = fields'.map (·.1)) (perm : fields.Perm fields')
    (distinct : (fields.map (·.1)).Nodup) : fields = fields' := by
  induction fields generalizing fields' with
  | nil => exact (List.nil_perm.mp perm).symm
  | cons field fields ih =>
    cases fields' with
    | nil => exact absurd keys (List.cons_ne_nil _ _)
    | cons field' fields' =>
      rw [List.map_cons,List.map_cons,List.cons.injEq] at keys
      have inside : field' ∈ field :: fields := perm.mem_iff.mpr List.mem_cons_self
      obtain rfl := List.inj_on_of_nodup_map distinct List.mem_cons_self inside keys.1
      rw [List.map_cons,List.nodup_cons] at distinct
      rw [ih keys.2 perm.cons_inv distinct.2]

theorem lookup_of_mem [BEq κ] [LawfulBEq κ] (distinct : (fields.map (·.1)).Nodup) {key : κ} {a : α}
    (inside : (key,a) ∈ fields) : fields.lookup key = some a := by
  induction fields with
  | nil => cases inside
  | cons field fields ih =>
    obtain ⟨key',b⟩ := field
    rw [List.map_cons,List.nodup_cons] at distinct
    rw [List.lookup_cons]
    rcases List.mem_cons.mp inside with same | later
    · cases same
      simp
    · have other : key ≠ key' := by
        rintro rfl
        exact distinct.1 (List.mem_map_of_mem (f := (·.1)) later)
      rw [beq_eq_false_iff_ne.mpr other]
      exact ih distinct.2 later

end Distinct

end RatifyOs.Data.Keyed
