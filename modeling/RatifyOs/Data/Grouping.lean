import Mathlib.Data.List.Induction
import Mathlib.Data.List.Nodup
import Mathlib.Data.List.Perm.Basic

/-! Items collected under a key, the groups in the order of their first items. -/
namespace RatifyOs.Data

variable {α κ : Type}

/-- What has come under one key, which is never nothing. -/
structure Group (κ α : Type) where
  key : κ
  first : α
  rest : List α

namespace Group

def items (g : Group κ α) : List α := g.first :: g.rest

def push (g : Group κ α) (a : α) : Group κ α := { g with rest := g.rest ++ [a] }

@[simp] theorem items_push (g : Group κ α) (a : α) : (g.push a).items = g.items ++ [a] := rfl

variable [DecidableEq κ] (key : α → κ)

/-- `groups.set(key(a),[...(groups.get(key(a)) ?? []),a])` -/
def add (a : α) : List (Group κ α) → List (Group κ α)
  | [] => [⟨key a,a,[]⟩]
  | g :: groups => if g.key = key a then g.push a :: groups else g :: add a groups

theorem add_nil (a : α) : add key a [] = [⟨key a,a,[]⟩] := rfl

theorem add_cons (a : α) (g : Group κ α) (groups : List (Group κ α)) :
    add key a (g :: groups) = if g.key = key a then g.push a :: groups else g :: add key a groups := rfl

def collect (xs : List α) : List (Group κ α) := xs.foldl (fun groups a => add key a groups) []

@[simp] theorem collect_nil : collect key [] = [] := rfl

@[simp] theorem collect_append (xs : List α) (a : α) : collect key (xs ++ [a]) = add key a (collect key xs) := by
  simp [collect]

theorem mem_keys_add {a : α} {k : κ} {groups : List (Group κ α)} :
    k ∈ (add key a groups).map Group.key ↔ k ∈ groups.map Group.key ∨ k = key a := by
  induction groups with
  | nil => simp [add_nil]
  | cons g groups ih =>
    by_cases same : g.key = key a
    · rw [add_cons,if_pos same,List.map_cons,List.map_cons,show (g.push a).key = key a from same,same]
      simp only [List.mem_cons]
      tauto
    · rw [add_cons,if_neg same,List.map_cons,List.map_cons,List.mem_cons,List.mem_cons,ih,or_assoc]

theorem nodup_keys (xs : List α) : ((collect key xs).map Group.key).Nodup := by
  have kept : ∀ (a : α) (groups : List (Group κ α)), (groups.map Group.key).Nodup →
      ((add key a groups).map Group.key).Nodup := by
    intro a groups distinct
    induction groups with
    | nil => simp [add_nil]
    | cons g groups ih =>
      obtain ⟨fresh,rest⟩ := List.nodup_cons.mp distinct
      by_cases same : g.key = key a
      · rw [add_cons,if_pos same]
        exact distinct
      · rw [add_cons,if_neg same]
        refine List.nodup_cons.mpr ⟨fun inside => ?_,ih rest⟩
        exact ((mem_keys_add key).mp inside).elim fresh same
  induction xs using List.reverseRecOn with
  | nil => exact List.nodup_nil
  | append_singleton xs a ih =>
    rw [collect_append]
    exact kept a _ ih

/-- Each item is in one group, as often as it was there. -/
theorem items_perm (xs : List α) : ((collect key xs).flatMap items).Perm xs := by
  have added : ∀ (a : α) (groups : List (Group κ α)),
      ((add key a groups).flatMap items).Perm (groups.flatMap items ++ [a]) := by
    intro a groups
    induction groups with
    | nil => exact .refl _
    | cons g groups ih =>
      by_cases same : g.key = key a
      · rw [add_cons,if_pos same,List.flatMap_cons,List.flatMap_cons,items_push,List.append_assoc,List.append_assoc]
        exact List.perm_append_comm.append_left g.items
      · rw [add_cons,if_neg same,List.flatMap_cons,List.flatMap_cons,List.append_assoc]
        exact ih.append_left g.items
  induction xs using List.reverseRecOn with
  | nil => exact .refl _
  | append_singleton xs a ih =>
    rw [collect_append]
    exact (added a _).trans (ih.append_right [a])

theorem keyed (xs : List α) : ∀ g ∈ collect key xs, ∀ a ∈ g.items, key a = g.key := by
  have kept : ∀ (a : α) (groups : List (Group κ α)), (∀ g ∈ groups, ∀ b ∈ g.items, key b = g.key) →
      ∀ g ∈ add key a groups, ∀ b ∈ g.items, key b = g.key := by
    intro a groups keyed
    induction groups with
    | nil => simp [add_nil,items]
    | cons g groups ih =>
      obtain ⟨first,rest⟩ := List.forall_mem_cons.mp keyed
      by_cases same : g.key = key a
      · rw [add_cons,if_pos same,List.forall_mem_cons]
        refine ⟨fun b member => ?_,rest⟩
        rw [items_push] at member
        rcases List.mem_append.mp member with old | new
        · exact first b old
        · rw [List.mem_singleton.mp new]
          exact same.symm
      · rw [add_cons,if_neg same,List.forall_mem_cons]
        exact ⟨first,ih rest⟩
  induction xs using List.reverseRecOn with
  | nil => simp
  | append_singleton xs a ih =>
    rw [collect_append]
    exact kept a _ ih

/-- Two items are in one group exactly when they have one key. -/
theorem together_iff {xs : List α} {a b : α} (first : a ∈ xs) (second : b ∈ xs) :
    (∃ g ∈ collect key xs, a ∈ g.items ∧ b ∈ g.items) ↔ key a = key b := by
  constructor
  · rintro ⟨g,inside,here,there⟩
    rw [keyed key xs g inside a here,keyed key xs g inside b there]
  · intro same
    obtain ⟨g,inside,here⟩ := List.mem_flatMap.mp ((items_perm key xs).mem_iff.mpr first)
    obtain ⟨h,inside',there⟩ := List.mem_flatMap.mp ((items_perm key xs).mem_iff.mpr second)
    have one : g.key = h.key := by
      rw [← keyed key xs g inside a here,← keyed key xs h inside' b there,same]
    cases List.inj_on_of_nodup_map (nodup_keys key xs) inside inside' one
    exact ⟨g,inside,here,there⟩

/-- No item is in two groups. -/
theorem pairwise_disjoint (xs : List α) : (collect key xs).Pairwise fun g h => ∀ a ∈ g.items, a ∉ h.items := by
  have apart := List.pairwise_map.mp (nodup_keys key xs)
  refine apart.imp_of_mem ?_
  intro g h inside inside' different a here there
  exact different ((keyed key xs g inside a here).symm.trans (keyed key xs h inside' a there))

end Group

end RatifyOs.Data
