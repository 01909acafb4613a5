import Mathlib.Data.List.Pairwise
import RatifyOs.Execution.Canonical

/-! Values that differ in the order of keys only: a copy whose keys are sorted, in any order
that tells them apart, is the same for both. -/
namespace RatifyOs.Execution
open Data Data.Json

/-- The same value, but for the order of keys. -/
def Alike (v w : Json) : Prop := ordered v = ordered w

section Known
variable (keys : List String)

mutual

/-- No object has a key twice, or one outside the list. -/
def Known : Json → Prop
  | .arr items => KnownItems items
  | .obj fields => (fields.map (·.1)).Nodup ∧ (∀ key ∈ fields.map (·.1), key ∈ keys) ∧ KnownFields fields
  | _ => True

def KnownItems : List Json → Prop
  | [] => True
  | v :: items => Known v ∧ KnownItems items

def KnownFields : List (String × Json) → Prop
  | [] => True
  | (_,v) :: fields => Known v ∧ KnownFields fields

end

variable {keys}

theorem knownItems_iff {items : List Json} : KnownItems keys items ↔ ∀ v ∈ items, Known keys v := by
  induction items with
  | nil => simp [KnownItems]
  | cons v items ih => simp [KnownItems,ih]

theorem knownFields_iff {fields : List (String × Json)} : KnownFields keys fields ↔ ∀ f ∈ fields, Known keys f.2 := by
  induction fields with
  | nil => simp [KnownFields]
  | cons f fields ih =>
    obtain ⟨key,v⟩ := f
    simp [KnownFields,ih]

private theorem knownFields_perm {fields fields' : List (String × Json)} (perm : fields.Perm fields') :
    KnownFields keys fields ↔ KnownFields keys fields' := by
  simp only [knownFields_iff,perm.mem_iff]

private theorem sorted_keys (fields : List (String × Json)) :
    ((sortKeys (orderedFields fields)).map (·.1)).Perm (fields.map (·.1)) := by
  have perm := (sortKeys_perm (orderedFields fields)).map (·.1)
  rwa [orderedFields_keys] at perm

mutual

theorem known_ordered : ∀ v, Known keys (ordered v) ↔ Known keys v
  | .null => Iff.rfl
  | .bool _ => Iff.rfl
  | .num _ => Iff.rfl
  | .str _ => Iff.rfl
  | .arr items => knownItems_ordered items
  | .obj fields => by
    have perm := sorted_keys fields
    have nested := (knownFields_perm (sortKeys_perm (orderedFields fields))).trans (knownFields_ordered fields)
    exact and_congr perm.nodup_iff (and_congr (by simp only [perm.mem_iff]) nested)

private theorem knownItems_ordered : ∀ items, KnownItems keys (orderedItems items) ↔ KnownItems keys items
  | [] => Iff.rfl
  | v :: items => and_congr (known_ordered v) (knownItems_ordered items)

private theorem knownFields_ordered : ∀ fields, KnownFields keys (orderedFields fields) ↔ KnownFields keys fields
  | [] => Iff.rfl
  | (_,v) :: fields => and_congr (known_ordered v) (knownFields_ordered fields)

end

mutual

theorem distinct_of_known : ∀ v, Known keys v → Distinct v
  | .null, _ => trivial
  | .bool _, _ => trivial
  | .num _, _ => trivial
  | .str _, _ => trivial
  | .arr items, known => distinctItems_of_known items known
  | .obj fields, known => ⟨known.1,distinctFields_of_known fields known.2.2⟩

private theorem distinctItems_of_known : ∀ items, KnownItems keys items → DistinctItems items
  | [], _ => trivial
  | v :: items, known => ⟨distinct_of_known v known.1,distinctItems_of_known items known.2⟩

private theorem distinctFields_of_known : ∀ fields, KnownFields keys fields → DistinctFields fields
  | [], _ => trivial
  | (_,v) :: fields, known => ⟨distinct_of_known v known.1,distinctFields_of_known fields known.2⟩

end

theorem Alike.known {v w : Json} (alike : Alike v w) (known : Known keys w) : Known keys v := by
  rw [← known_ordered,alike]
  exact (known_ordered w).mpr known

end Known

/-- The order of the locale is one, and tells these keys apart. -/
structure Orders (localeCompare : String → String → ℤ) (keys : List String) : Prop where
  total : ∀ a b, localeCompare a b ≤ 0 ∨ localeCompare b a ≤ 0
  trans : ∀ a b c, localeCompare a b ≤ 0 → localeCompare b c ≤ 0 → localeCompare a c ≤ 0
  apart : ∀ a ∈ keys, ∀ b ∈ keys, localeCompare a b ≤ 0 → localeCompare b a ≤ 0 → a = b

section Sorted
variable {localeCompare : String → String → ℤ} {keys : List String} (orders : Orders localeCompare keys)

private theorem normalizeFields_eq (fields : List (String × Json)) :
    normalizeFields localeCompare fields = fields.map fun f => (f.1,normalize localeCompare f.2) := by
  induction fields with
  | nil => rfl
  | cons f fields ih =>
    obtain ⟨key,v⟩ := f
    simp [normalizeFields,ih]

include orders in
private theorem localeSort_perm {fields fields' : List (String × Json)} (perm : fields.Perm fields')
    (distinct : (fields.map (·.1)).Nodup) (known : ∀ key ∈ fields.map (·.1), key ∈ keys) :
    localeSort localeCompare fields = localeSort localeCompare fields' := by
  let le (a b : String × Json) : Prop := localeCompare a.1 b.1 ≤ 0
  have : Std.Total le := ⟨fun a b => orders.total a.1 b.1⟩
  have : IsTrans (String × Json) le := ⟨fun a b c => orders.trans a.1 b.1 c.1⟩
  have sorted (fields : List (String × Json)) : (localeSort localeCompare fields).Pairwise le :=
    List.pairwise_insertionSort le fields
  have sort_perm (fields : List (String × Json)) : (localeSort localeCompare fields).Perm fields :=
    List.perm_insertionSort le fields
  refine List.Perm.eq_of_pairwise ?_ (sorted fields) (sorted fields')
    ((sort_perm fields).trans (perm.trans (sort_perm fields').symm))
  intro a b first second up down
  have inside : a ∈ fields := (sort_perm fields).mem_iff.mp first
  have inside' : b ∈ fields := perm.mem_iff.mpr ((sort_perm fields').mem_iff.mp second)
  have same := orders.apart a.1 (known a.1 (List.mem_map_of_mem inside)) b.1 (known b.1 (List.mem_map_of_mem inside')) up down
  exact List.inj_on_of_nodup_map distinct inside inside' same

variable (localeCompare keys) in
mutual

theorem normalize_ordered (orders : Orders localeCompare keys) :
    ∀ v, Known keys v → normalize localeCompare (ordered v) = normalize localeCompare v
  | .null, _ => rfl
  | .bool _, _ => rfl
  | .num _, _ => rfl
  | .str _, _ => rfl
  | .arr items, known => congrArg Json.arr (normalizeItems_ordered orders items known)
  | .obj fields, known => by
    have nested := normalizeFields_ordered orders fields known.2.2
    have perm := (sortKeys_perm (orderedFields fields)).map fun f => (f.1,normalize localeCompare f.2)
    rw [← normalizeFields_eq,← normalizeFields_eq,nested] at perm
    have same : (normalizeFields localeCompare fields).map (·.1) = fields.map (·.1) := by
      simp [normalizeFields_eq]
    have sorted := localeSort_perm orders perm.symm (by rw [same]; exact known.1) (by rw [same]; exact known.2.1)
    exact congrArg Json.obj sorted.symm

private theorem normalizeItems_ordered (orders : Orders localeCompare keys) : ∀ items, KnownItems keys items →
    normalizeItems localeCompare (orderedItems items) = normalizeItems localeCompare items
  | [], _ => rfl
  | v :: items, known => congrArg₂ List.cons (normalize_ordered orders v known.1)
      (normalizeItems_ordered orders items known.2)

private theorem normalizeFields_ordered (orders : Orders localeCompare keys) : ∀ fields, KnownFields keys fields →
    normalizeFields localeCompare (orderedFields fields) = normalizeFields localeCompare fields
  | [], _ => rfl
  | (key,v) :: fields, known => congrArg₂ List.cons (congrArg (Prod.mk key) (normalize_ordered orders v known.1))
      (normalizeFields_ordered orders fields known.2)

end

theorem normalize_alike (orders : Orders localeCompare keys) {v w : Json} (alike : Alike v w) (known : Known keys w) :
    normalize localeCompare v = normalize localeCompare w := by
  rw [← normalize_ordered localeCompare keys orders v (alike.known known),alike,
    normalize_ordered localeCompare keys orders w known]

theorem property_alike {v w : Json} (alike : Alike v w) (known : Known keys w) (key : String) :
    (property key v).map ordered = (property key w).map ordered := by
  cases w with
  | obj fields' =>
    cases v with
    | obj fields =>
      have sorted : sortKeys (orderedFields fields) = sortKeys (orderedFields fields') := Json.obj.inj alike
      have perm : (orderedFields fields).Perm (orderedFields fields') :=
        (sortKeys_perm _).symm.trans (sorted ▸ sortKeys_perm _)
      have distinct : ((orderedFields fields).map (·.1)).Nodup := by
        rw [(perm.map (·.1)).nodup_iff,orderedFields_keys]
        exact known.1
      change (fields.lookup key).map ordered = (fields'.lookup key).map ordered
      rw [← lookup_orderedFields,← lookup_orderedFields,lookup_perm perm distinct]
    | _ => cases alike
  | _ => cases v <;> first | rfl | cases alike

private theorem known_property {v x : Json} {key : String} (known : Known keys v) (found : property key v = some x) :
    Known keys x := by
  cases v with
  | obj fields =>
    have member : (key,x) ∈ fields := by
      clear known
      change fields.lookup key = some x at found
      induction fields with
      | nil => cases found
      | cons f fields ih =>
        obtain ⟨name,v⟩ := f
        rw [List.lookup_cons] at found
        split at found
        · rename_i same
          cases found
          rw [eq_of_beq same]
          exact List.mem_cons_self
        · exact List.mem_cons_of_mem _ (ih found)
    exact knownFields_iff.mp known.2.2 _ member
  | _ => cases found

theorem has_of_alike {v w y : Json} (alike : Alike v w) (known : Known keys w) {key : String}
    (found : property key w = some y) : ∃ x, property key v = some x ∧ Alike x y := by
  have same := property_alike alike known key
  rw [found] at same
  exact Option.map_eq_some_iff.mp same

theorem property_normalize (orders : Orders localeCompare keys) {v w : Json} (alike : Alike v w)
    (known : Known keys w) (key : String) :
    (property key v).map (normalize localeCompare) =
      (property key w).map (normalize localeCompare) := by
  cases found : property key w with
  | none =>
    have same := property_alike alike known key
    rw [found,Option.map_none,Option.map_eq_none_iff] at same
    rw [same]
  | some y =>
    obtain ⟨x,there,nested⟩ := has_of_alike alike known found
    rw [there]
    exact congrArg some (normalize_alike orders nested (known_property known found))

end Sorted

end RatifyOs.Execution
