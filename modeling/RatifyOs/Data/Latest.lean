import Mathlib.Data.List.Sort
import Mathlib.Data.List.TakeWhile
import Mathlib.Data.List.DropRight
import RatifyOs.Data.Double

/-! Rows from the newest to the oldest: by their time, and of one time the last inserted first. -/
namespace RatifyOs.Data.Newest

variable {α : Type} (time : α → ℤ)

/-- `ORDER BY time DESC, rowid DESC` -/
def ranked (rows : List α) : List α := rows.reverse.insertionSort fun a b => time b ≤ time a

variable {time}

theorem mem_ranked {rows : List α} {r : α} : r ∈ ranked time rows ↔ r ∈ rows := by
  rw [ranked,List.mem_insertionSort,List.mem_reverse]

theorem pairwise_ranked (rows : List α) : (ranked time rows).Pairwise fun a b => time b ≤ time a := by
  let r (a b : α) : Prop := time b ≤ time a
  have : Std.Total r := ⟨fun a b => le_total (time b) (time a)⟩
  have : IsTrans α r := ⟨fun _ _ _ first second => second.trans first⟩
  exact List.pairwise_insertionSort r _

/-- A row that is inserted comes after the rows of a later time. -/
theorem ranked_concat (rows : List α) (r : α) : ∃ later rest, ranked time (rows ++ [r]) = later ++ r :: rest ∧
    (∀ a ∈ later, time r < time a) ∧ (∀ a ∈ rest, time a ≤ time r) ∧ ranked time rows = later ++ rest := by
  refine ⟨(ranked time rows).takeWhile fun b => ¬time b ≤ time r,
    (ranked time rows).dropWhile fun b => ¬time b ≤ time r,?_,?_,?_,List.takeWhile_append_dropWhile.symm⟩
  · rw [ranked,List.reverse_append,List.reverse_singleton,List.singleton_append,List.insertionSort_cons,
      List.orderedInsert_eq_take_drop]
    rfl
  · intro a inside
    have held := List.mem_takeWhile_imp inside
    rwa [decide_eq_true_eq,not_le] at held
  · have ordered : (ranked time rows).Pairwise fun a b => time b ≤ time a := pairwise_ranked rows
    have sorted := ordered.sublist (List.dropWhile_sublist fun b => ¬time b ≤ time r)
    cases found : (ranked time rows).dropWhile fun b => ¬time b ≤ time r with
    | nil => simp
    | cons b rest =>
      have head : time b ≤ time r := by
        have stops := List.head?_dropWhile_not (fun b => decide (¬time b ≤ time r)) (ranked time rows)
        rw [found] at stops
        simpa using stops
      rw [found,List.pairwise_cons] at sorted
      intro a inside
      rcases List.mem_cons.mp inside with rfl | after
      · exact head
      · exact (sorted.1 a after).trans head

/-- Which of the rows inserted last is beyond the newest ones. -/
theorem mem_drop_ranked {rows : List α} {r : α} (fresh : r ∉ rows) (keep : ℕ) :
    r ∈ (ranked time (rows ++ [r])).drop keep ↔ keep ≤ (rows.filter fun a => time r < time a).length := by
  obtain ⟨later,rest,split_,above,below,(whole : ranked time rows = later ++ rest)⟩ := ranked_concat rows r
  have absent : r ∉ later ++ rest := whole ▸ fun inside => fresh (mem_ranked.mp inside)
  have count : (rows.filter fun a => time r < time a).length = later.length := by
    have perm : (ranked time rows).Perm rows := (List.perm_insertionSort _ _).trans rows.reverse_perm
    rw [← (perm.filter _).length_eq,whole,List.filter_append,List.filter_eq_self.mpr fun a inside => decide_eq_true (above a inside),
      List.filter_eq_nil_iff.mpr fun a inside => by simpa using below a inside,List.append_nil]
  rw [count,split_]
  constructor
  · intro inside
    by_contra beyond
    rw [not_le] at beyond
    rw [List.drop_append,List.drop_of_length_le beyond.le,List.nil_append] at inside
    obtain ⟨n,more⟩ := Nat.exists_eq_add_of_lt beyond
    rw [show keep - later.length = n + 1 by omega,List.drop_succ_cons] at inside
    exact absent (List.mem_append_right _ (List.mem_of_mem_drop inside))
  · intro within
    rw [List.drop_append_of_le_length within]
    exact List.mem_append_right _ (.head _)

end RatifyOs.Data.Newest

/-! Buffers that keep the latest of what they are given: dropping from the front after every
arrival leaves what dropping once from the whole history would. -/
namespace RatifyOs.Data

/-- `while (xs.length > max) xs.shift()` -/
def shiftTo {α : Type} (max : Double) : List α → List α
  | [] => []
  | x :: xs => if max < .finite ((x :: xs).length : ℕ) then shiftTo max xs else x :: xs

/-- How many a bound leaves room for; `none` is no bound. -/
def capacity : Double → Option ℕ
  | .finite q => some ⌊q⌋₊
  | .infinite true => some 0
  | _ => none

def latest {α : Type} : Option ℕ → List α → List α
  | none, xs => xs
  | some n, xs => xs.rtake n

namespace Latest
variable {α : Type}

theorem latest_some (n : ℕ) (xs : List α) : latest (some n) xs = xs.drop (xs.length - n) := rfl

theorem latest_nil (c : Option ℕ) : latest c ([] : List α) = [] := by
  cases c with
  | none => rfl
  | some n => exact List.drop_nil

theorem lt_iff {max : Double} {n : ℕ} (positive : 0 < n) : max < .finite n ↔ ∃ c ∈ capacity max, c < n := by
  cases max with
  | finite q => simp [capacity,Nat.floor_lt' positive.ne']
  | infinite negative =>
    change negative = true ↔ _
    cases negative <;> simp [capacity,positive]
  | nan =>
    change false = true ↔ _
    simp [capacity]

theorem latest_of_length_le {n : ℕ} {xs : List α} (short : xs.length ≤ n) : latest (some n) xs = xs := by
  rw [latest_some,Nat.sub_eq_zero_of_le short,List.drop_zero]

theorem latest_cons_of_lt {c : ℕ} {x : α} {xs : List α} (beyond : c < (x :: xs).length) :
    latest (some c) (x :: xs) = latest (some c) xs := by
  have more : (x :: xs).length - c = xs.length - c + 1 := by
    rw [List.length_cons] at beyond ⊢
    omega
  rw [latest_some,latest_some,more,List.drop_succ_cons]

theorem shiftTo_eq (max : Double) (xs : List α) : shiftTo max xs = latest (capacity max) xs := by
  induction xs with
  | nil => rw [shiftTo,latest_nil]
  | cons x xs ih =>
    have bound : max < .finite ((x :: xs).length : ℕ) ↔ _ := lt_iff (Nat.succ_pos xs.length)
    cases found : capacity max with
    | none =>
      rw [found] at bound
      have room : ¬max < .finite ((x :: xs).length : ℕ) := fun beyond =>
        let ⟨_,inside,_⟩ := bound.mp beyond
        Option.not_mem_none _ inside
      rw [shiftTo,if_neg room,latest]
    | some c =>
      rw [found] at bound
      by_cases beyond : c < (x :: xs).length
      · rw [shiftTo,if_pos (bound.mpr ⟨c,rfl,beyond⟩),ih,found,latest_cons_of_lt beyond]
      · have room : ¬max < .finite ((x :: xs).length : ℕ) := by
          intro less
          obtain ⟨d,inside,less⟩ := bound.mp less
          rw [Option.mem_some_iff] at inside
          exact beyond (inside ▸ less)
        rw [shiftTo,if_neg room,latest_of_length_le (not_lt.mp beyond)]

/-- What was dropped before would be dropped again. -/
theorem latest_concat (c : Option ℕ) (xs : List α) (x : α) : latest c (latest c xs ++ [x]) = latest c (xs ++ [x]) := by
  cases c with
  | none => rfl
  | some n =>
    by_cases short : xs.length ≤ n
    · rw [latest_of_length_le short]
    · obtain ⟨kept,same⟩ : ∃ kept, kept = xs.drop (xs.length - n) := ⟨_,rfl⟩
      have split : xs ++ [x] = xs.take (xs.length - n) ++ (kept ++ [x]) := by
        rw [same,← List.append_assoc,List.take_append_drop]
      have length : (kept ++ [x]).length = n + 1 := by
        rw [same,List.length_append,List.length_drop,List.length_singleton]
        omega
      have more : (xs.take (xs.length - n)).length + (n + 1) - n = (xs.take (xs.length - n)).length + 1 := by omega
      rw [split,latest_some n xs,← same,latest_some,latest_some,@List.length_append _ (xs.take _),length,more,
        ← List.drop_drop,List.drop_left,Nat.add_sub_cancel_left]

theorem latest_suffix (c : Option ℕ) (xs : List α) : latest c xs <:+ xs := by
  cases c with
  | none => exact List.suffix_rfl
  | some n => exact List.drop_suffix _ xs

theorem length_latest_le {c : ℕ} (xs : List α) : (latest (some c) xs).length ≤ c := by
  rw [latest_some,List.length_drop]
  omega

end Latest

end RatifyOs.Data
