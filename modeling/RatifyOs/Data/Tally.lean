import RatifyOs.Data.Table
import Mathlib.Algebra.BigOperators.Group.List.Basic

/-! Amounts gathered in a map: an entry is made on the first amount of its key and grows
with every later one, so that a missing entry and a sum of zero say the same. -/
namespace RatifyOs.Data

variable {κ ρ M : Type} [DecidableEq κ] [AddCommMonoid M]

/-- How an entry of a tally is read and grown; growing keeps its key. -/
structure Tallied (key : ρ → κ) (M : Type) [AddCommMonoid M] where
  amount : ρ → M
  grow : ρ → M → ρ
  key_grow : ∀ r m, key (grow r m) = key r
  amount_grow : ∀ r m, amount (grow r m) = amount r + m

namespace Tallied

variable {key : ρ → κ} (τ : Tallied key M)

/-- What the entries of one key sum to; there is at most one. -/
def total (t : Table key) (k : κ) : M := ((t.rows.filter fun r => key r = k).map τ.amount).sum

def add (t : Table key) (r : ρ) : Table key :=
  match t.find? (key r) with
  | some prior => t.put (τ.grow prior (τ.amount r))
  | none => (t.insert? r).getD t

theorem total_eq_find? (t : Table key) (k : κ) : τ.total t k = ((t.find? k).map τ.amount).getD 0 := by
  obtain ⟨rows,distinct⟩ := t
  simp only [total,Table.find?]
  induction rows with
  | nil => rfl
  | cons r rows ih =>
    rw [List.map_cons,List.nodup_cons] at distinct
    by_cases here : key r = k
    · have others : rows.filter (fun r => key r = k) = [] := by
        rw [List.filter_eq_nil_iff]
        intro other inside
        rw [decide_eq_true_eq,← here]
        exact fun same => distinct.1 (List.mem_map.mpr ⟨other,inside,same⟩)
      simp [here,others]
    · simp [here,ih distinct.2]

@[simp] theorem total_empty (k : κ) : τ.total .empty k = 0 := rfl

theorem total_add (t : Table key) (r : ρ) (k : κ) :
    τ.total (τ.add t r) k = τ.total t k + if key r = k then τ.amount r else 0 := by
  unfold add
  split
  · rename_i prior found
    have named : key (τ.grow prior (τ.amount r)) = key r := by
      rw [τ.key_grow,Table.key_of_find? found]
    rw [total_eq_find?,total_eq_find?]
    by_cases here : key r = k
    · subst here
      rw [← named,Table.find?_put_self (named ▸ found),named,found]
      simp [τ.amount_grow]
    · rw [Table.find?_put_of_ne (named ▸ here)]
      simp [here]
  · rename_i absent
    obtain ⟨u,inserted⟩ := Table.insert?_of_absent absent
    rw [inserted,Option.getD_some,total_eq_find?,total_eq_find?,Table.find?_insert? inserted]
    by_cases here : key r = k
    · subst here
      simp [absent]
    · simp [here]

/-- An amount leaves an entry of its key behind, and the entries there were. -/
theorem isSome_add (t : Table key) (r : ρ) (k : κ) :
    ((τ.add t r).find? k).isSome = true ↔ key r = k ∨ (t.find? k).isSome = true := by
  unfold add
  split
  · rename_i prior found
    rw [Table.find?_put,τ.key_grow,Table.key_of_find? found]
    by_cases here : key r = k
    · simp [← here,found]
    · simp [here]
  · rename_i absent
    obtain ⟨u,inserted⟩ := Table.insert?_of_absent absent
    rw [inserted,Option.getD_some,Table.find?_insert? inserted]
    by_cases here : key r = k <;> simp [here]

/-- An entry of the grown tally is an old one, the new one, or an old one that grew. -/
theorem mem_add {t : Table key} {r x : ρ} (inside : x ∈ (τ.add t r).rows) :
    x ∈ t.rows ∨ x = r ∨ ∃ prior ∈ t.rows, x = τ.grow prior (τ.amount r) := by
  unfold add at inside
  split at inside
  · rename_i prior found
    rcases Table.mem_put inside with rfl | ⟨old,_⟩
    · exact .inr (.inr ⟨prior,Table.mem_of_find? found,rfl⟩)
    · exact .inl old
  · cases made : t.insert? r with
    | none =>
      rw [made] at inside
      exact .inl inside
    | some u =>
      rw [made,Option.getD_some,(Table.insert?_eq_some_iff.mp made).2,List.mem_append,
        List.mem_singleton] at inside
      exact inside.imp_right .inl

end Tallied

end RatifyOs.Data
