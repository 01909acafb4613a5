import Mathlib.Data.List.Basic

/-! The pieces of a stream that a separator ends, and what is left after the last one. -/
namespace RatifyOs.Data.Lines

variable {α : Type} [DecidableEq α] (sep : α)

def cut : List α → List (List α) × List α
  | [] => ([],[])
  | x :: xs =>
    if x = sep then ([] :: (cut xs).1,(cut xs).2)
    else match (cut xs).1 with
      | [] => ([],x :: (cut xs).2)
      | piece :: pieces => ((x :: piece) :: pieces,(cut xs).2)

section Cut

@[simp] theorem cut_nil : cut sep [] = ([],[]) := rfl

theorem cut_cons (x : α) (xs : List α) : cut sep (x :: xs) =
    if x = sep then ([] :: (cut sep xs).1,(cut sep xs).2)
    else match (cut sep xs).1 with
      | [] => ([],x :: (cut sep xs).2)
      | piece :: pieces => ((x :: piece) :: pieces,(cut sep xs).2) := rfl

theorem cut_sep (xs : List α) : cut sep (sep :: xs) = ([] :: (cut sep xs).1,(cut sep xs).2) := by
  rw [cut_cons,if_pos rfl]

theorem rest_free (xs : List α) : sep ∉ (cut sep xs).2 := by
  induction xs with
  | nil => simp
  | cons x xs ih =>
    rw [cut_cons]
    split_ifs with here
    · exact ih
    · cases (cut sep xs).1 with
      | nil => exact List.not_mem_cons_of_ne_of_not_mem (Ne.symm here) ih
      | cons piece pieces => exact ih

theorem cut_other {x : α} (other : x ≠ sep) (xs : List α) : cut sep (x :: xs) =
    match (cut sep xs).1 with
    | [] => ([],x :: (cut sep xs).2)
    | piece :: pieces => ((x :: piece) :: pieces,(cut sep xs).2) := by
  rw [cut_cons,if_neg other]

/-- What was left is taken up again with what follows. -/
theorem cut_append (xs ys : List α) : cut sep (xs ++ ys) =
    ((cut sep xs).1 ++ (cut sep ((cut sep xs).2 ++ ys)).1,(cut sep ((cut sep xs).2 ++ ys)).2) := by
  induction xs with
  | nil => simp
  | cons x xs ih =>
    rw [List.cons_append]
    by_cases here : x = sep
    · rw [here,cut_sep,ih,cut_sep]
      rfl
    · rw [cut_other sep here,ih,cut_other sep here]
      cases (cut sep xs).1 with
      | nil =>
        dsimp only [List.nil_append,List.cons_append]
        rw [cut_other sep here]
      | cons piece pieces => rfl

theorem cut_free {xs : List α} (free : sep ∉ xs) : cut sep xs = ([],xs) := by
  induction xs with
  | nil => rfl
  | cons x xs ih =>
    rw [List.mem_cons,not_or] at free
    rw [cut_cons,if_neg (Ne.symm free.1),ih free.2]

theorem cut_piece {piece : List α} (free : sep ∉ piece) (xs : List α) :
    cut sep (piece ++ sep :: xs) = (piece :: (cut sep xs).1,(cut sep xs).2) := by
  induction piece with
  | nil => exact cut_sep sep xs
  | cons x piece ih =>
    rw [List.mem_cons,not_or] at free
    rw [List.cons_append,cut_cons,if_neg (Ne.symm free.1),ih free.2]

theorem pieces_eq_nil_iff (xs : List α) : (cut sep xs).1 = [] ↔ sep ∉ xs := by
  constructor
  · intro none_ inside
    obtain ⟨before,after,rfl,free⟩ := List.eq_append_cons_of_mem inside
    rw [cut_piece sep free] at none_
    cases none_
  · intro free
    rw [cut_free sep free]

theorem pieces_le (xs : List α) : (cut sep xs).1.length ≤ xs.length := by
  induction xs with
  | nil => exact Nat.le_refl _
  | cons x xs ih =>
    by_cases here : x = sep
    · rw [here,cut_sep]
      exact Nat.succ_le_succ ih
    · rw [cut_other sep here]
      cases pieces : (cut sep xs).1 with
      | nil => exact Nat.zero_le _
      | cons piece rest =>
        rw [pieces] at ih
        exact Nat.le_trans ih (Nat.le_succ _)

theorem split_first {xs : List α} {i : ℕ} (first : xs.idxOf? sep = some i) :
    xs = xs.take i ++ sep :: xs.drop (i + 1) ∧ sep ∉ xs.take i ∧ (xs.take i).length = i := by
  obtain ⟨inside,here,before⟩ := List.idxOf?_eq_some_iff.mp first
  refine ⟨?_,fun there => ?_,by rw [List.length_take,Nat.min_eq_left (Nat.le_of_lt inside)]⟩
  · rw [← here,← List.drop_eq_getElem_cons inside,List.take_append_drop]
  · obtain ⟨j,short,same⟩ := List.mem_iff_getElem.mp there
    rw [List.getElem_take] at same
    rw [List.length_take] at short
    exact before j (by omega) same

/-- The bytes that begin a stream begin its first piece, or what is left when there is none. -/
theorem cut_begins {xs : List α} (free : sep ∉ xs) (ys : List α) :
    (∃ more pieces, (cut sep (xs ++ ys)).1 = (xs ++ more) :: pieces) ∨
      (cut sep (xs ++ ys)).1 = [] ∧ ∃ more, (cut sep (xs ++ ys)).2 = xs ++ more := by
  induction xs with
  | nil =>
    cases pieces : (cut sep ys).1 with
    | nil => exact .inr ⟨by simpa using pieces,(cut sep ys).2,by simp⟩
    | cons piece pieces' => exact .inl ⟨piece,pieces',by simpa using pieces⟩
  | cons x xs ih =>
    rw [List.mem_cons,not_or] at free
    rw [List.cons_append,cut_cons,if_neg (Ne.symm free.1)]
    obtain ⟨more,pieces,first⟩ | ⟨none_,more,rest⟩ := ih free.2
    · rw [first]
      exact .inl ⟨more,pieces,rfl⟩
    · rw [none_]
      exact .inr ⟨rfl,more,congrArg (List.cons x) rest⟩

end Cut

end RatifyOs.Data.Lines

/-! Texts made of parts with a mark before each. -/
namespace RatifyOs.Data.Delimited
variable {α : Type} {mark : α}

def delimited (mark : α) (parts : List (List α)) : List α := parts.flatMap (mark :: ·)

/-- What comes before the first mark, and what comes from there on. -/
theorem append_inj {x y : List α} {xs ys : List (List α)} (first : mark ∉ x) (second : mark ∉ y)
    (same : x ++ delimited mark xs = y ++ delimited mark ys) : x = y ∧ delimited mark xs = delimited mark ys := by
  induction x generalizing y with
  | nil =>
    cases y with
    | nil => exact ⟨rfl,same⟩
    | cons b y =>
      cases xs with
      | nil => cases same
      | cons part xs => exact absurd (List.head_eq_of_cons_eq same ▸ .head _) second
  | cons a x ih =>
    cases y with
    | nil =>
      cases ys with
      | nil => cases same
      | cons part ys => exact absurd (List.head_eq_of_cons_eq same ▸ .head _) first
    | cons b y =>
      obtain ⟨head,tail⟩ := List.cons_eq_cons.mp same
      obtain ⟨parts,rest⟩ := ih (fun inside => first (.tail _ inside)) (fun inside => second (.tail _ inside)) tail
      exact ⟨by rw [head,parts],rest⟩

/-- Parts without the mark can be told apart again. -/
theorem delimited_inj {xs ys : List (List α)} (first : ∀ x ∈ xs, mark ∉ x) (second : ∀ y ∈ ys, mark ∉ y)
    (same : delimited mark xs = delimited mark ys) : xs = ys := by
  induction xs generalizing ys with
  | nil =>
    cases ys with
    | nil => rfl
    | cons y ys => cases same
  | cons x xs ih =>
    cases ys with
    | nil => cases same
    | cons y ys =>
      have rest := (List.cons_eq_cons.mp same).2
      obtain ⟨head,tail⟩ := append_inj (first x (.head _)) (second y (.head _)) rest
      rw [head,ih (fun part inside => first part (.tail _ inside)) (fun part inside => second part (.tail _ inside)) tail]

/-- `parts.join(mark)` -/
def join (mark : α) (parts : List (List α)) : List α := (delimited mark parts).tail

theorem join_inj {xs ys : List (List α)} (some_ : xs ≠ []) (others : ys ≠ []) (first : ∀ x ∈ xs, mark ∉ x)
    (second : ∀ y ∈ ys, mark ∉ y) (same : join mark xs = join mark ys) : xs = ys := by
  apply delimited_inj first second
  cases xs with
  | nil => exact absurd rfl some_
  | cons x xs =>
    cases ys with
    | nil => exact absurd rfl others
    | cons y ys => exact congrArg (mark :: ·) same

theorem of_mem_join {a : α} {parts : List (List α)} (inside : a ∈ join mark parts) : a = mark ∨ ∃ part ∈ parts, a ∈ part := by
  obtain ⟨part,among,here⟩ := List.mem_flatMap.mp (List.mem_of_mem_tail inside)
  rcases List.mem_cons.mp here with same | here
  · exact .inl same
  · exact .inr ⟨part,among,here⟩

theorem map_join {β : Type} (f : α → β) (parts : List (List α)) :
    (join mark parts).map f = join (f mark) (parts.map (List.map f)) := by
  cases parts with
  | nil => rfl
  | cons part parts => simp [join,delimited,List.map_flatMap,List.flatMap_map]

end RatifyOs.Data.Delimited
