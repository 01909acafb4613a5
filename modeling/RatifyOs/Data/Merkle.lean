import Mathlib.Data.Set.Function

/-! Hash trees whose odd levels repeat their last node. -/
namespace RatifyOs.Data.Merkle

variable {α : Type}

/-- The nodes of a level, two by two. -/
def pairs : List α → List (α × α)
  | [] => []
  | [a] => [(a,a)]
  | a :: b :: rest => (a,b) :: pairs rest

@[simp] theorem length_pairs (level : List α) : (pairs level).length = (level.length + 1) / 2 := by
  induction level using pairs.induct with
  | case1 => simp [pairs]
  | case2 a => simp [pairs]
  | case3 a b rest ih =>
    rw [pairs,List.length_cons,ih,List.length_cons,List.length_cons]
    omega

/-- Only the length tells a repeated node from two equal ones. -/
theorem pairs_inj {first second : List α} (length : first.length = second.length)
    (same : pairs first = pairs second) : first = second := by
  induction first using pairs.induct generalizing second with
  | case1 => exact (List.length_eq_zero_iff.mp length.symm).symm
  | case2 a =>
    obtain ⟨b,rfl⟩ := List.length_eq_one_iff.mp length.symm
    rw [pairs,pairs,List.cons.injEq,Prod.mk.injEq] at same
    rw [same.1.1]
  | case3 a b rest ih =>
    match second,length,same with
    | c :: d :: others,length,same =>
      rw [pairs,pairs,List.cons.injEq,Prod.mk.injEq] at same
      rw [same.1.1,same.1.2,ih (by simpa using length) same.2]

theorem pairs_forall {P : α → Prop} {level : List α} (all : ∀ a ∈ level, P a) : ∀ p ∈ pairs level, P p.1 ∧ P p.2 := by
  induction level using pairs.induct with
  | case1 => simp [pairs]
  | case2 a => simpa [pairs] using all
  | case3 a b rest ih =>
    rw [List.forall_mem_cons,List.forall_mem_cons] at all
    rw [pairs,List.forall_mem_cons]
    exact ⟨⟨all.1,all.2.1⟩,ih all.2.2⟩

variable (node : α → α → α)

def above (level : List α) : List α := (pairs level).map fun p => node p.1 p.2

theorem above_shorter {level : List α} (more : 1 < level.length) : (above node level).length < level.length := by
  rw [above,List.length_map,length_pairs]
  omega

def root (level : List α) : Option α :=
  if 1 < level.length then root (above node level) else level.head?
termination_by level.length
decreasing_by exact above_shorter node ‹_›

/-- The pairs that building the tree joins, on all its levels. -/
def joined (level : List α) : List (α × α) :=
  if 1 < level.length then pairs level ++ joined (above node level) else []
termination_by level.length
decreasing_by exact above_shorter node ‹_›

variable {node}

theorem root_tall {level : List α} (more : 1 < level.length) : root node level = root node (above node level) := by
  rw [root,if_pos more]

theorem joined_tall {level : List α} (more : 1 < level.length) :
    joined node level = pairs level ++ joined node (above node level) := by
  rw [joined,if_pos more]

theorem root_isSome {level : List α} (some_ : level ≠ []) : (root node level).isSome := by
  induction level using root.induct node with
  | case1 level more ih =>
    rw [root_tall more]
    apply ih
    apply List.ne_nil_of_length_pos
    rw [above,List.length_map,length_pairs]
    omega
  | case2 level few =>
    rw [root,if_neg few]
    simpa using some_

/-- What holds of the leaves and of every joint holds of all the nodes. -/
theorem joined_forall {P : α → Prop} (joint : ∀ a b, P (node a b)) {level : List α} (leaves : ∀ a ∈ level, P a) :
    ∀ p ∈ joined node level, P p.1 ∧ P p.2 := by
  induction level using root.induct node with
  | case1 level more ih =>
    rw [joined_tall more]
    intro p inside
    rcases List.mem_append.mp inside with here | higher
    · exact pairs_forall leaves p here
    · refine ih (fun a member => ?_) p higher
      obtain ⟨q,-,rfl⟩ := List.mem_map.mp member
      exact joint q.1 q.2
  | case2 level few =>
    rw [joined,if_neg few]
    simp

theorem map_injOn {β : Type} {f : α → β} {s : Set α} (injective : Set.InjOn f s) {first second : List α}
    (left : ∀ x ∈ first, x ∈ s) (right : ∀ x ∈ second, x ∈ s) (same : first.map f = second.map f) :
    first = second := by
  induction first generalizing second with
  | nil => exact (List.map_eq_nil_iff.mp same.symm).symm
  | cons x xs ih =>
    cases second with
    | nil => cases same
    | cons y ys =>
      rw [List.map_cons,List.map_cons,List.cons.injEq] at same
      rw [List.forall_mem_cons] at left right
      rw [injective left.1 right.1 same.1,ih left.2 right.2 same.2]

/-- Lists of one length with one root are equal, or two of the pairs joined for them collide. -/
theorem root_inj {first second : List α} (length : first.length = second.length)
    (injective : Set.InjOn (fun p : α × α => node p.1 p.2) {p | p ∈ joined node first ∨ p ∈ joined node second})
    (same : root node first = root node second) : first = second := by
  induction first using root.induct node generalizing second with
  | case1 first more ih =>
    have more_ : 1 < second.length := length ▸ more
    rw [root_tall more,root_tall more_] at same
    rw [joined_tall more,joined_tall more_] at injective
    have levels : above node first = above node second := by
      refine ih ?_ (injective.mono ?_) same
      · simp [above,length]
      · intro p inside
        exact inside.imp (List.mem_append_right _) (List.mem_append_right _)
    apply pairs_inj length
    exact map_injOn injective (fun p inside => .inl (List.mem_append_left _ inside))
      (fun p inside => .inr (List.mem_append_left _ inside)) levels
  | case2 first few =>
    have few_ : ¬1 < second.length := length ▸ few
    rw [root,if_neg few,root,if_neg few_] at same
    apply List.ext_getElem? fun i => ?_
    rcases i with _ | i
    · rwa [← List.head?_eq_getElem?,← List.head?_eq_getElem?]
    · rw [List.getElem?_eq_none (by omega),List.getElem?_eq_none (by omega)]

end RatifyOs.Data.Merkle
