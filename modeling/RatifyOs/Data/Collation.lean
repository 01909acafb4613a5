import Mathlib.Data.List.Sort
import Mathlib.Data.String.Basic

/-! Sorting by a comparison, and the comparison of texts in a locale. -/
namespace RatifyOs.Data

section Sorting
variable {α : Type} {r : α → α → Prop} [DecidableRel r] {l : List α}

/-- Only the elements have to be in order with each other. -/
theorem pairwise_insertionSort_of (total : ∀ a ∈ l, ∀ b ∈ l, r a b ∨ r b a)
    (trans : ∀ a ∈ l, ∀ b ∈ l, ∀ c ∈ l, r a b → r b c → r a c) : (l.insertionSort r).Pairwise r := by
  let s (a b : { a // a ∈ l }) : Prop := r a.val b.val
  have : DecidableRel s := fun a b => inferInstanceAs (Decidable (r a.val b.val))
  have : Std.Total s := ⟨fun a b => total _ a.property _ b.property⟩
  have : IsTrans _ s := ⟨fun a b c => trans _ a.property _ b.property _ c.property⟩
  have mapped : (l.attach.insertionSort s).map Subtype.val = l.insertionSort r := by
    rw [List.map_insertionSort (s := r) s Subtype.val _ fun _ _ _ _ => Iff.rfl,List.attach_map_subtype_val]
  rw [← mapped,List.pairwise_map]
  exact List.pairwise_insertionSort s _

theorem insertionSort_eq_of_perm {l' : List α} (perm : l.Perm l') (total : ∀ a ∈ l, ∀ b ∈ l, r a b ∨ r b a)
    (trans : ∀ a ∈ l, ∀ b ∈ l, ∀ c ∈ l, r a b → r b c → r a c)
    (anti : ∀ a ∈ l, ∀ b ∈ l, r a b → r b a → a = b) : l.insertionSort r = l'.insertionSort r := by
  have left : ∀ a ∈ l.insertionSort r, a ∈ l := fun a => (List.mem_insertionSort r).mp
  have right : ∀ a ∈ l'.insertionSort r, a ∈ l := fun a inside => perm.mem_iff.mpr ((List.mem_insertionSort r).mp inside)
  refine List.Perm.eq_of_pairwise (fun a b first second => anti a (left a first) b (right b second))
    (pairwise_insertionSort_of total trans) (pairwise_insertionSort_of ?_ ?_)
    ((List.perm_insertionSort r l).trans (perm.trans (List.perm_insertionSort r l').symm))
  · exact fun a first b second => total a (perm.mem_iff.mpr first) b (perm.mem_iff.mpr second)
  · exact fun a first b second c third =>
      trans a (perm.mem_iff.mpr first) b (perm.mem_iff.mpr second) c (perm.mem_iff.mpr third)

end Sorting

/-- `localeCompare`: an order of texts that may not tell all of them apart. -/
structure Collation where
  compare : String → String → ℤ
  anti : ∀ a b, 0 < compare a b ↔ compare b a < 0
  trans : ∀ a b c, compare a b ≤ 0 → compare b c ≤ 0 → compare a c ≤ 0

namespace Collation

theorem total (collation : Collation) (a b : String) : collation.compare a b ≤ 0 ∨ collation.compare b a ≤ 0 := by
  by_cases le : collation.compare a b ≤ 0
  · exact .inl le
  · exact .inr ((collation.anti a b).mp (not_le.mp le)).le

theorem eq_zero {collation : Collation} {a b : String} (le : collation.compare a b ≤ 0) (ge : collation.compare b a ≤ 0) :
    collation.compare a b = 0 := by
  apply le.antisymm
  rw [← not_lt]
  intro less
  exact absurd ((collation.anti b a).mpr less) (not_lt.mpr ge)

/-- The order of the texts by their characters. -/
def characters : Collation where
  compare a b := if a < b then -1 else if b < a then 1 else 0
  anti a b := by
    rcases lt_trichotomy a b with less | rfl | more
    · simp [less,less.not_gt]
    · simp
    · simp [more,more.not_gt]
  trans a b c := by
    have le : ∀ a b : String, (if a < b then -1 else if b < a then (1 : ℤ) else 0) ≤ 0 ↔ a ≤ b := by
      intro a b
      rcases lt_trichotomy a b with less | rfl | more
      · simp [less,less.le]
      · simp
      · simp [more,more.not_gt]
    simp only [le]
    exact le_trans

end Collation

end RatifyOs.Data
