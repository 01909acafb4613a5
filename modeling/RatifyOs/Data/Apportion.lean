import Mathlib.Algebra.BigOperators.Group.List.Basic
import Mathlib.Algebra.Order.BigOperators.Group.List
import Mathlib.Algebra.Order.Ring.Int
import Mathlib.Data.List.Perm.Basic
import Mathlib.Data.List.TakeDrop
import Mathlib.Tactic.Linarith
import Mathlib.Tactic.Ring

/-! Apportionment by largest remainder: every share is rounded down, and what is left over goes out
one unit at a time, to the largest remainders first. -/
namespace RatifyOs.Data.Apportion

/-- Whether the first remainder, with its place, is served before the second. -/
def before (a b : ℤ × ℕ) : Bool := b.1 < a.1 ∨ b.1 = a.1 ∧ a.2 ≤ b.2

/-- One unit to each place of the list, until everything is assigned. -/
def handOut (total : ℤ) : List (ℤ × ℕ) → ℤ → List ℤ → List ℤ
  | [], _, out => out
  | (_,i) :: rest, assigned, out =>
    if assigned < total then handOut total rest (assigned + 1) (out.modify i (· + 1)) else out

section
variable (total : ℤ) (weights : List ℤ)

def shares : List ℤ := weights.map fun w => total * w / weights.sum

def remainders : List (ℤ × ℕ) := (weights.map fun w => total * w % weights.sum).zipIdx

def apportion : List ℤ :=
  handOut total ((remainders total weights).mergeSort before) (shares total weights).sum (shares total weights)

/-- The result is exact: the shares are the quotients rounded down, or one more where the remainder
is among the largest. -/
structure Exact (out : List ℤ) : Prop where
  length : out.length = weights.length
  nonneg : ∀ x ∈ out, 0 ≤ x
  sum : out.sum = total
  each : ∀ (i : ℕ) (w x : ℤ), weights[i]? = some w → out[i]? = some x →
    x = total * w / weights.sum ∨ x = total * w / weights.sum + 1
  zero : ∀ (i : ℕ) (x : ℤ), weights[i]? = some 0 → out[i]? = some x → x = 0
  largest : ∀ (i j : ℕ) (v w : ℤ), weights[i]? = some v → weights[j]? = some w →
    out[i]? = some (total * v / weights.sum + 1) → out[j]? = some (total * w / weights.sum) →
      total * w % weights.sum < total * v % weights.sum ∨ total * w % weights.sum = total * v % weights.sum ∧ i < j

end

section HandOut
variable {total : ℤ}

theorem handOut_length (rest : List (ℤ × ℕ)) (assigned : ℤ) (out : List ℤ) :
    (handOut total rest assigned out).length = out.length := by
  induction rest generalizing assigned out with
  | nil => rfl
  | cons entry rest ih =>
    rw [handOut]
    split
    · rw [ih,List.length_modify]
    · rfl

theorem sum_modify (out : List ℤ) {i : ℕ} (inside : i < out.length) : (out.modify i (· + 1)).sum = out.sum + 1 := by
  induction out generalizing i with
  | nil => cases inside
  | cons x out ih =>
    cases i with
    | zero =>
      rw [List.modify_zero_cons,List.sum_cons,List.sum_cons]
      ring
    | succ i =>
      rw [List.modify_succ_cons,List.sum_cons,List.sum_cons,ih (Nat.succ_lt_succ_iff.mp inside)]
      ring

/-- Enough places for what is left over take all of it. -/
theorem sum_handOut {rest : List (ℤ × ℕ)} {assigned : ℤ} {out : List ℤ} (inside : ∀ entry ∈ rest, entry.2 < out.length)
    (start : out.sum = assigned) (under : assigned ≤ total) (enough : total - assigned ≤ rest.length) :
    (handOut total rest assigned out).sum = total := by
  induction rest generalizing assigned out with
  | nil =>
    rw [List.length_nil] at enough
    rw [handOut,start]
    omega
  | cons entry rest ih =>
    rw [handOut]
    split
    · rename_i more
      rw [List.length_cons] at enough
      apply ih
      · intro entry' there
        rw [List.length_modify]
        exact inside entry' (List.mem_cons_of_mem _ there)
      · rw [sum_modify _ (inside entry List.mem_cons_self),start]
      · omega
      · push_cast at enough
        omega
    · omega

/-- A place gets its unit when it comes before everything is assigned. -/
theorem getElem?_handOut {rest : List (ℤ × ℕ)} (apart : (rest.map Prod.snd).Nodup) (assigned : ℤ) (out : List ℤ) (j : ℕ) :
    (handOut total rest assigned out)[j]? =
      out[j]?.map fun x => if j ∈ (rest.map Prod.snd).take (total - assigned).toNat then x + 1 else x := by
  induction rest generalizing assigned out with
  | nil => simp [handOut]
  | cons entry rest ih =>
    rw [List.map_cons,List.nodup_cons] at apart
    rw [handOut]
    split
    · rename_i more
      have count : (total - assigned).toNat = (total - (assigned + 1)).toNat + 1 := by omega
      rw [ih apart.2,count,List.map_cons,List.take_succ_cons,List.getElem?_modify,Option.map_eq_map,
        Option.map_map]
      congr 1
      funext x
      by_cases here : entry.2 = j
      · have absent : j ∉ (rest.map Prod.snd).take (total - (assigned + 1)).toNat := by
          rw [← here]
          exact fun there => apart.1 (List.mem_of_mem_take there)
        simp [here,absent]
      · simp [here,Ne.symm here]
    · rename_i done
      have none_ : (total - assigned).toNat = 0 := by omega
      simp [none_]

end HandOut

section Sums
variable {total : ℤ} {weights : List ℤ}

theorem sum_shares (divisor : ℤ) (weights : List ℤ) :
    divisor * (weights.map fun w => total * w / divisor).sum + (weights.map fun w => total * w % divisor).sum =
      total * weights.sum := by
  induction weights with
  | nil => simp
  | cons w weights ih =>
    rw [List.map_cons,List.map_cons,List.sum_cons,List.sum_cons,List.sum_cons]
    have split_ := Int.mul_ediv_add_emod (total * w) divisor
    linarith

theorem remainders_fst : (remainders total weights).map Prod.fst = weights.map fun w => total * w % weights.sum :=
  List.zipIdx_map_fst _ _

theorem sum_remainders (total : ℤ) (weights : List ℤ) : ((remainders total weights).map Prod.fst).sum =
    (total - (shares total weights).sum) * weights.sum := by
  have all := @sum_shares total weights.sum weights
  rw [remainders_fst,shares]
  linarith

theorem remainder_bounds (positive : 0 < weights.sum) {entry : ℤ × ℕ} (there : entry ∈ remainders total weights) :
    0 ≤ entry.1 ∧ entry.1 ≤ weights.sum - 1 := by
  have value := List.mem_map_of_mem (f := Prod.fst) there
  rw [remainders_fst,List.mem_map] at value
  obtain ⟨w,_,same⟩ := value
  rw [← same]
  exact ⟨Int.emod_nonneg _ positive.ne',Int.le_sub_one_of_lt (Int.emod_lt_of_pos _ positive)⟩

end Sums

section Largest

theorem before_trans (a b c : ℤ × ℕ) (first : before a b = true) (second : before b c = true) : before a c = true := by
  simp only [before,decide_eq_true_eq] at *
  omega

theorem before_total (a b : ℤ × ℕ) : (before a b || before b a) = true := by
  simp only [before,Bool.or_eq_true,decide_eq_true_eq]
  omega

theorem sum_le_of_zero_mem {c : ℤ} {values : List ℤ} (bounded : ∀ v ∈ values, v ≤ c) (zero : (0 : ℤ) ∈ values) :
    values.sum ≤ (values.length - 1) * c := by
  obtain ⟨left,right,rfl⟩ := List.append_of_mem zero
  have most (part : List ℤ) (inside : part ⊆ left ++ 0 :: right) : part.sum ≤ part.length * c := by
    have each := List.sum_le_card_nsmul part c fun v there => bounded v (inside there)
    rwa [nsmul_eq_mul] at each
  have low := most left (List.subset_append_left _ _)
  have high := most right (List.subset_append_of_subset_right _ (List.subset_cons_self _ _))
  rw [List.sum_append,List.sum_cons,List.length_append,List.length_cons]
  push_cast
  linarith

variable {total : ℤ} {weights : List ℤ}

def served (total : ℤ) (weights : List ℤ) : List (ℤ × ℕ) := (remainders total weights).mergeSort before

def leftover (total : ℤ) (weights : List ℤ) : ℤ := total - (shares total weights).sum

theorem served_perm : (served total weights).Perm (remainders total weights) := List.mergeSort_perm _ _

theorem served_pairwise : (served total weights).Pairwise fun a b => before a b = true :=
  List.pairwise_mergeSort before_trans before_total _

theorem served_nodup : ((served total weights).map Prod.snd).Nodup := by
  refine (served_perm.map Prod.snd).nodup_iff.mpr ?_
  rw [remainders,List.zipIdx_map_snd]
  exact List.nodup_range'

theorem mem_served {r : ℤ} {i : ℕ} : (r,i) ∈ served total weights ↔ ∃ w, weights[i]? = some w ∧ r = total * w % weights.sum := by
  rw [served_perm.mem_iff,remainders,List.mk_mem_zipIdx_iff_getElem?,List.getElem?_map,Option.map_eq_some_iff]
  simp only [eq_comm]

theorem sum_served (total : ℤ) (weights : List ℤ) :
    ((served total weights).map Prod.fst).sum = leftover total weights * weights.sum := by
  rw [(served_perm.map Prod.fst).sum_eq,sum_remainders,leftover]

theorem served_bounds (positive : 0 < weights.sum) {entry : ℤ × ℕ} (there : entry ∈ served total weights) :
    0 ≤ entry.1 ∧ entry.1 ≤ weights.sum - 1 := remainder_bounds positive (served_perm.mem_iff.mp there)

theorem leftover_nonneg (positive : 0 < weights.sum) : 0 ≤ leftover total weights := by
  have sum : 0 ≤ ((served total weights).map Prod.fst).sum := by
    apply List.sum_nonneg
    simp only [List.forall_mem_map]
    exact fun entry there => (served_bounds positive there).1
  rw [sum_served] at sum
  exact nonneg_of_mul_nonneg_left sum positive

/-- What is left over is served before it is all gone, and only to remainders that are not nothing. -/
theorem served_first (positive : 0 < weights.sum) :
    ∀ entry ∈ (served total weights).take (leftover total weights).toNat, 0 < entry.1 := by
  intro entry there
  have least := @leftover_nonneg total weights positive
  by_contra nothing
  have zero : entry.1 = 0 := le_antisymm (not_lt.mp nothing) (served_bounds positive (List.mem_of_mem_take there)).1
  have sum := sum_served total weights
  have sorted := @served_pairwise total weights
  rw [← List.take_append_drop (leftover total weights).toNat (served total weights)] at sum sorted
  rw [List.pairwise_append] at sorted
  rw [List.map_append,List.sum_append] at sum
  -- behind an empty remainder there are only empty ones
  have behind : (((served total weights).drop (leftover total weights).toNat).map Prod.fst).sum ≤ 0 := by
    refine (List.sum_le_card_nsmul _ 0 ?_).trans_eq (nsmul_zero _)
    simp only [List.forall_mem_map]
    intro other later
    have order := sorted.2.2 entry there other later
    simp only [before,decide_eq_true_eq] at order
    omega
  have front := @sum_le_of_zero_mem (weights.sum - 1)
    (((served total weights).take (leftover total weights).toNat).map Prod.fst)
    (by simpa only [List.forall_mem_map] using fun other early => (served_bounds positive (List.mem_of_mem_take early)).2)
    (List.mem_map.mpr ⟨entry,there,zero⟩)
  have count : ((((served total weights).take (leftover total weights).toNat).map Prod.fst).length : ℤ) ≤ leftover total weights := by
    rw [List.length_map,List.length_take]
    omega
  have some_ : 1 ≤ leftover total weights := by
    have length := List.length_pos_of_mem there
    rw [List.length_take] at length
    omega
  have scaled := mul_le_mul_of_nonneg_right (sub_le_sub_right count 1) (show 0 ≤ weights.sum - 1 by omega)
  linarith

theorem leftover_le (positive : 0 < weights.sum) : leftover total weights ≤ (served total weights).length := by
  have most := List.sum_le_card_nsmul ((served total weights).map Prod.fst) (weights.sum - 1)
    (by simpa only [List.forall_mem_map] using fun entry there => (served_bounds positive there).2)
  rw [sum_served,List.length_map,nsmul_eq_mul] at most
  by_contra more
  have product := mul_le_mul_of_nonneg_right (show ((served total weights).length : ℤ) + 1 ≤ leftover total weights by omega) positive.le
  linarith

/-- The place is among those that get a unit of what is left over. -/
def Topped (total : ℤ) (weights : List ℤ) (i : ℕ) : Prop :=
  i ∈ ((served total weights).map Prod.snd).take (leftover total weights).toNat

theorem topped_iff {i : ℕ} : Topped total weights i ↔ ∃ r, (r,i) ∈ (served total weights).take (leftover total weights).toNat := by
  rw [Topped,← List.map_take,List.mem_map]
  constructor
  · rintro ⟨⟨r,_⟩,there,rfl⟩
    exact ⟨r,there⟩
  · rintro ⟨r,there⟩
    exact ⟨(r,i),there,rfl⟩

/-- A place that gets a unit has a remainder, and one that gets none comes behind it. -/
theorem topped_order {i j : ℕ} {v w : ℤ} (top : Topped total weights i) (rest : ¬Topped total weights j)
    (value : weights[i]? = some v) (value' : weights[j]? = some w) :
    total * w % weights.sum < total * v % weights.sum ∨ total * w % weights.sum = total * v % weights.sum ∧ i < j := by
  obtain ⟨r,early⟩ := topped_iff.mp top
  obtain ⟨v',same,rfl⟩ := mem_served.mp (List.mem_of_mem_take early)
  rw [value,Option.some.injEq] at same
  subst same
  have listed : (total * w % weights.sum,j) ∈ served total weights := mem_served.mpr ⟨w,value',rfl⟩
  have sorted := @served_pairwise total weights
  rw [← List.take_append_drop (leftover total weights).toNat (served total weights)] at listed sorted
  rw [List.pairwise_append] at sorted
  rcases List.mem_append.mp listed with inside | late
  · exact absurd (topped_iff.mpr ⟨_,inside⟩) rest
  · have order := sorted.2.2 _ early _ late
    have apart : i ≠ j := fun same => rest (same ▸ top)
    simp only [before,decide_eq_true_eq] at order
    omega

open Classical in
theorem getElem?_apportion (j : ℕ) : (apportion total weights)[j]? =
    weights[j]?.map fun w => if Topped total weights j then total * w / weights.sum + 1 else total * w / weights.sum := by
  have known := @getElem?_handOut total _ (@served_nodup total weights)
    (shares total weights).sum (shares total weights) j
  rw [shares,List.getElem?_map,Option.map_map] at known
  rw [apportion]
  refine known.trans (congrArg (weights[j]?.map ·) (funext fun w => ?_))
  exact if_congr Iff.rfl rfl rfl

theorem apportion_exact (positive : 0 < weights.sum) (nonneg : ∀ w ∈ weights, 0 ≤ w) (least : 0 ≤ total) :
    Exact total weights (apportion total weights) := by
  classical
  have at_ {i : ℕ} {w x : ℤ} (value : weights[i]? = some w) (there : (apportion total weights)[i]? = some x) :
      x = if Topped total weights i then total * w / weights.sum + 1 else total * w / weights.sum := by
    rw [getElem?_apportion,value,Option.map_some,Option.some.injEq] at there
    rw [← there]
  have each {i : ℕ} {w x : ℤ} (value : weights[i]? = some w) (there : (apportion total weights)[i]? = some x) :
      x = total * w / weights.sum ∨ x = total * w / weights.sum + 1 := by
    rw [at_ value there]
    split
    · exact .inr rfl
    · exact .inl rfl
  have length : (apportion total weights).length = weights.length := by
    rw [apportion,handOut_length,shares,List.length_map]
  refine ⟨length,?_,?_,fun i w x => each,?_,?_⟩
  · intro x inside
    obtain ⟨i,there⟩ := List.mem_iff_getElem?.mp inside
    have short : i < weights.length := by
      rw [← length]
      exact (List.getElem?_eq_some_iff.mp there).1
    have share : 0 ≤ total * weights[i] / weights.sum :=
      Int.ediv_nonneg (mul_nonneg least (nonneg _ (List.getElem_mem short))) positive.le
    rcases each (List.getElem?_eq_getElem short) there with rfl | rfl
    · exact share
    · omega
  · apply sum_handOut
    · rintro ⟨r,i⟩ there
      obtain ⟨w,value,_⟩ := mem_served.mp there
      rw [shares,List.length_map]
      exact (List.getElem?_eq_some_iff.mp value).1
    · rfl
    · exact sub_nonneg.mp (leftover_nonneg positive)
    · exact leftover_le positive
  · intro i x value there
    rw [at_ value there,if_neg]
    · rw [mul_zero,Int.zero_ediv]
    · intro top
      obtain ⟨r,early⟩ := topped_iff.mp top
      have some_ := served_first positive _ early
      obtain ⟨w,same,rfl⟩ := mem_served.mp (List.mem_of_mem_take early)
      rw [value,Option.some.injEq] at same
      rw [← same,mul_zero,Int.zero_emod] at some_
      exact absurd some_ (lt_irrefl 0)
  · intro i j v w value value' above at_floor
    have top : Topped total weights i := by
      by_contra rest
      have same := at_ value above
      rw [if_neg rest] at same
      omega
    have rest : ¬Topped total weights j := by
      intro top'
      have same := at_ value' at_floor
      rw [if_pos top'] at same
      omega
    exact topped_order top rest value value'

end Largest

end RatifyOs.Data.Apportion
