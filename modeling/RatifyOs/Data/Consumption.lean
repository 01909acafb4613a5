import Mathlib.Data.Nat.Notation
import Mathlib.Data.List.Nodup

/-! A consumer of a log that only grows: it keeps one offset, and what it has not taken up
to that offset must have been given up for good. -/
namespace RatifyOs.Data.Consumption

variable {ρ : Type} (cursor : ρ → ℕ)

/-- The wanted part of the log up to the offset was handled, in order, or is dead. -/
structure Covered (log : List ρ) (wanted : ρ → Prop) (offset : ℕ) (handled : List ℕ) (dead : ℕ → Prop) : Prop where
  done : ∀ x ∈ log, cursor x ≤ offset → wanted x → cursor x ∈ handled ∨ dead (cursor x)
  increasing : handled.Pairwise (· < ·)
  past : ∀ k ∈ handled, k ≤ offset

/-- Nothing wanted lies between the offset and `k`. -/
def Clear (log : List ρ) (wanted : ρ → Prop) (offset k : ℕ) : Prop :=
  ∀ y ∈ log, offset < cursor y → cursor y ≤ k → wanted y → cursor y = k

/-- The rows after the offset. -/
def pending (log : List ρ) (offset : ℕ) : List ρ := log.filter fun x => offset < cursor x

variable {cursor} {log : List ρ} {wanted : ρ → Prop} {offset k : ℕ} {handled : List ℕ} {dead dead' : ℕ → Prop}

theorem covered_zero (positive : ∀ x ∈ log, 0 < cursor x) : Covered cursor log wanted 0 [] dead := by
  refine ⟨?_,.nil,by simp⟩
  intro x inside reached _
  have := positive x inside
  omega

namespace Covered

theorem append {x : ρ} (covered : Covered cursor log wanted offset handled dead) (after : offset < cursor x) :
    Covered cursor (log ++ [x]) wanted offset handled dead := by
  refine ⟨?_,covered.increasing,covered.past⟩
  simp only [List.forall_mem_append,List.forall_mem_singleton]
  exact ⟨covered.done,fun reached => by omega⟩

theorem mono (covered : Covered cursor log wanted offset handled dead) (grows : ∀ j ≤ offset, dead j → dead' j) :
    Covered cursor log wanted offset handled dead' := by
  refine ⟨?_,covered.increasing,covered.past⟩
  intro x inside reached wants
  exact (covered.done x inside reached wants).imp_right (grows _ reached)

theorem handle (covered : Covered cursor log wanted offset handled dead) (next : offset < k)
    (clear : Clear cursor log wanted offset k) : Covered cursor log wanted k (handled ++ [k]) dead := by
  refine ⟨?_,?_,?_⟩
  · intro x inside reached wants
    by_cases old : cursor x ≤ offset
    · obtain was | gone := covered.done x inside old wants
      · exact .inl (List.mem_append_left _ was)
      · exact .inr gone
    · rw [clear x inside (by omega) reached wants]
      simp
  · rw [List.pairwise_append]
    refine ⟨covered.increasing,List.pairwise_singleton _ _,?_⟩
    intro j was i now
    have := covered.past j was
    rw [List.mem_singleton.mp now]
    omega
  · simp only [List.forall_mem_append,List.forall_mem_singleton]
    refine ⟨fun j was => ?_,Nat.le_refl k⟩
    have := covered.past j was
    omega

theorem pass (covered : Covered cursor log wanted offset handled dead) (next : offset < k)
    (clear : Clear cursor log wanted offset k) (given : ∀ x ∈ log, cursor x = k → wanted x → dead k) :
    Covered cursor log wanted k handled dead := by
  refine ⟨?_,covered.increasing,?_⟩
  · intro x inside reached wants
    by_cases old : cursor x ≤ offset
    · exact covered.done x inside old wants
    · have here := clear x inside (by omega) reached wants
      rw [here]
      exact .inr (given x inside here wants)
  · intro j was
    have := covered.past j was
    omega

end Covered

section Order
variable {x : ρ} {rest : List ρ}

theorem mem_of_front (front : x :: rest <+: pending cursor log offset) : offset < cursor x ∧ x ∈ log := by
  obtain ⟨tail,split⟩ := front
  have member : x ∈ pending cursor log offset := by rw [← split]; simp
  obtain ⟨inside,after⟩ := List.mem_filter.mp member
  exact ⟨by simpa using after,inside⟩

variable (ordered : log.Pairwise fun a b => cursor a < cursor b)
include ordered

theorem eq_of_cursor {y : ρ} (inside : x ∈ log) (inside' : y ∈ log) (same : cursor x = cursor y) : x = y := by
  have distinct : (log.map cursor).Nodup :=
    List.pairwise_map.mpr (ordered.imp fun before => Nat.ne_of_lt before)
  exact List.inj_on_of_nodup_map distinct inside inside' same

theorem clear_of_front (front : x :: rest <+: pending cursor log offset) : Clear cursor log wanted offset (cursor x) := by
  obtain ⟨tail,split⟩ := front
  intro y inside' after' upto _
  have listed : y ∈ pending cursor log offset := List.mem_filter.mpr ⟨inside',by simpa using after'⟩
  have sorted : (pending cursor log offset).Pairwise fun a b => cursor a < cursor b := ordered.filter _
  rw [← split,List.cons_append] at listed sorted
  obtain ⟨first,_⟩ := List.pairwise_cons.mp sorted
  obtain rfl | later := List.mem_cons.mp listed
  · rfl
  · have := first y later
    omega

theorem prefix_after (front : x :: rest <+: pending cursor log offset) :
    rest <+: pending cursor log (cursor x) := by
  obtain ⟨tail,split⟩ := front
  have sorted : (pending cursor log offset).Pairwise fun a b => cursor a < cursor b := ordered.filter _
  have after := (mem_of_front ⟨tail,split⟩).1
  have narrower : pending cursor log (cursor x) = (pending cursor log offset).filter fun y => cursor x < cursor y := by
    unfold pending
    rw [List.filter_filter]
    apply List.filter_congr
    intro y _
    rw [Bool.eq_iff_iff]
    simp only [decide_eq_true_eq,Bool.and_eq_true]
    omega
  rw [← split,List.cons_append] at sorted
  obtain ⟨first,_⟩ := List.pairwise_cons.mp sorted
  refine ⟨tail,?_⟩
  rw [narrower,← split,List.cons_append,List.filter_cons_of_neg (by simp),List.filter_eq_self.mpr]
  intro y inside
  simpa using first y inside

end Order

end RatifyOs.Data.Consumption
