import Mathlib.Data.List.Pairwise
import RatifyOs.Data.Double
import RatifyOs.Execution.Canonical

/-! `stableStringify` of a value a model or a tool gave: the same text for values that
differ in the order of keys, unless the locale does not tell two of their keys apart. -/
namespace RatifyOs.Agent
open Data Execution

inductive Value where
  | undefined
  | null
  | bool (value : Bool)
  | num (value : Double)
  | str (value : String)
  | arr (items : List Value)
  | obj (fields : List (String × Value))

/-- The order of the locale, and the text of a number. -/
structure Locale where
  localeCompare : String → String → ℤ
  numeral : Double → Text
  total : ∀ a b, localeCompare a b ≤ 0 ∨ localeCompare b a ≤ 0
  trans : ∀ a b c, localeCompare a b ≤ 0 → localeCompare b c ≤ 0 → localeCompare a c ≤ 0

/-- The locale does not tell the two keys apart. -/
def Locale.Ties (l : Locale) (a b : String) : Prop := l.localeCompare a b ≤ 0 ∧ l.localeCompare b a ≤ 0

section Stringify
variable (l : Locale)

mutual

def stableStringify : Value → Text
  | .undefined => "undefined".toList
  | .null => "null".toList
  | .bool true => "true".toList
  | .bool false => "false".toList
  | .num n => l.numeral n
  | .str s => Json.quote s
  | .arr items => '[' :: (Json.joined (stableItems items) ++ [']'])
  | .obj fields => '{' :: (Json.joined ((localeSort l.localeCompare (stableFields fields)).map Json.member) ++ ['}'])

def stableItems : List Value → List Text
  | [] => []
  | v :: items => stableStringify v :: stableItems items

def stableFields : List (String × Value) → List (String × Text)
  | [] => []
  | (key,v) :: fields => (key,stableStringify v) :: stableFields fields

end

mutual

/-- No object has two keys that the locale does not tell apart. -/
def Apart : Value → Prop
  | .arr items => ApartItems items
  | .obj fields => ((fields.map (·.1)).Pairwise fun a b => ¬l.Ties a b) ∧ ApartFields fields
  | _ => True

def ApartItems : List Value → Prop
  | [] => True
  | v :: items => Apart v ∧ ApartItems items

def ApartFields : List (String × Value) → Prop
  | [] => True
  | (_,v) :: fields => Apart v ∧ ApartFields fields

end

end Stringify

mutual

/-- The value with the keys of all its objects in one order. -/
def ordered : Value → Value
  | .arr items => .arr (orderedItems items)
  | .obj fields => .obj (sortKeys (orderedFields fields))
  | v => v

def orderedItems : List Value → List Value
  | [] => []
  | v :: items => ordered v :: orderedItems items

def orderedFields : List (String × Value) → List (String × Value)
  | [] => []
  | (key,v) :: fields => (key,ordered v) :: orderedFields fields

end

/-- The same value, but for the order of keys. -/
def Alike (v w : Value) : Prop := ordered v = ordered w

section Sorted
variable (l : Locale)

private theorem apartFields_iff {fields : List (String × Value)} : ApartFields l fields ↔ ∀ f ∈ fields, Apart l f.2 := by
  induction fields with
  | nil => simp [ApartFields]
  | cons f fields ih =>
    obtain ⟨key,v⟩ := f
    simp [ApartFields,ih]

private theorem orderedFields_keys (fields : List (String × Value)) : (orderedFields fields).map (·.1) = fields.map (·.1) := by
  induction fields with
  | nil => rfl
  | cons f fields ih =>
    obtain ⟨key,v⟩ := f
    simp [orderedFields,ih]

private theorem stableFields_eq (fields : List (String × Value)) :
    stableFields l fields = fields.map fun f => (f.1,stableStringify l f.2) := by
  induction fields with
  | nil => rfl
  | cons f fields ih =>
    obtain ⟨key,v⟩ := f
    simp [stableFields,ih]

private theorem sorted_keys (fields : List (String × Value)) :
    ((sortKeys (orderedFields fields)).map (·.1)).Perm (fields.map (·.1)) := by
  have perm := (sortKeys_perm (orderedFields fields)).map (·.1)
  rwa [orderedFields_keys] at perm

mutual

theorem apart_ordered : ∀ v, Apart l (ordered v) ↔ Apart l v
  | .undefined => Iff.rfl
  | .null => Iff.rfl
  | .bool _ => Iff.rfl
  | .num _ => Iff.rfl
  | .str _ => Iff.rfl
  | .arr items => apartItems_ordered items
  | .obj fields => by
    refine and_congr ((sorted_keys fields).pairwise_iff fun apart ties => apart ⟨ties.2,ties.1⟩) ?_
    rw [apartFields_iff,← apartFields_ordered fields,apartFields_iff]
    simp only [(sortKeys_perm (orderedFields fields)).mem_iff]

private theorem apartItems_ordered : ∀ items, ApartItems l (orderedItems items) ↔ ApartItems l items
  | [] => Iff.rfl
  | v :: items => and_congr (apart_ordered v) (apartItems_ordered items)

private theorem apartFields_ordered : ∀ fields, ApartFields l (orderedFields fields) ↔ ApartFields l fields
  | [] => Iff.rfl
  | (_,v) :: fields => and_congr (apart_ordered v) (apartFields_ordered fields)

end

private theorem localeSort_perm {fields fields' : List (String × Text)} (perm : fields.Perm fields')
    (apart : (fields.map (·.1)).Pairwise fun a b => ¬l.Ties a b) :
    localeSort l.localeCompare fields = localeSort l.localeCompare fields' := by
  let le (a b : String × Text) : Prop := l.localeCompare a.1 b.1 ≤ 0
  have : Std.Total le := ⟨fun a b => l.total a.1 b.1⟩
  have : IsTrans (String × Text) le := ⟨fun a b c => l.trans a.1 b.1 c.1⟩
  have sorted (fields : List (String × Text)) : (localeSort l.localeCompare fields).Pairwise le :=
    List.pairwise_insertionSort le fields
  have sort_perm (fields : List (String × Text)) : (localeSort l.localeCompare fields).Perm fields :=
    List.perm_insertionSort le fields
  refine List.Perm.eq_of_pairwise ?_ (sorted fields) (sorted fields')
    ((sort_perm fields).trans (perm.trans (sort_perm fields').symm))
  intro a b first second up down
  have inside : a ∈ fields := (sort_perm fields).mem_iff.mp first
  have inside' : b ∈ fields := perm.mem_iff.mpr ((sort_perm fields').mem_iff.mp second)
  by_contra other
  have pairs := List.pairwise_map.mp apart
  have : Std.Symm fun x y : String × Text => ¬l.Ties x.1 y.1 := ⟨fun _ _ apart ties => apart ⟨ties.2,ties.1⟩⟩
  exact pairs.forall inside inside' other ⟨up,down⟩

mutual

private theorem stable_ordered : ∀ v, Apart l v → stableStringify l (ordered v) = stableStringify l v
  | .undefined, _ => by simp only [ordered]
  | .null, _ => by simp only [ordered]
  | .bool _, _ => by simp only [ordered]
  | .num _, _ => by simp only [ordered]
  | .str _, _ => by simp only [ordered]
  | .arr items, apart => congrArg (fun texts => '[' :: (Json.joined texts ++ [']'])) (stableItems_ordered items apart)
  | .obj fields, apart => by
    have nested := stableFields_ordered fields apart.2
    have perm := (sortKeys_perm (orderedFields fields)).map fun f => (f.1,stableStringify l f.2)
    rw [← stableFields_eq,← stableFields_eq,nested] at perm
    have same : (stableFields l fields).map (·.1) = fields.map (·.1) := by
      simp [stableFields_eq]
    have sorted := localeSort_perm l perm.symm (by rw [same]; exact apart.1)
    exact congrArg (fun texts => '{' :: (Json.joined (texts.map Json.member) ++ ['}'])) sorted.symm

private theorem stableItems_ordered : ∀ items, ApartItems l items → stableItems l (orderedItems items) = stableItems l items
  | [], _ => rfl
  | v :: items, apart => congrArg₂ List.cons (stable_ordered v apart.1) (stableItems_ordered items apart.2)

private theorem stableFields_ordered : ∀ fields, ApartFields l fields → stableFields l (orderedFields fields) = stableFields l fields
  | [], _ => rfl
  | (key,v) :: fields, apart => congrArg₂ List.cons (congrArg (Prod.mk key) (stable_ordered v apart.1))
      (stableFields_ordered fields apart.2)

end

theorem stableStringify_alike {v w : Value} (alike : Alike v w) (apart : Apart l w) :
    stableStringify l v = stableStringify l w := by
  have apart' : Apart l v := by
    rw [← apart_ordered,alike]
    exact (apart_ordered l w).mpr apart
  rw [← stable_ordered l v apart',alike,stable_ordered l w apart]

end Sorted

end RatifyOs.Agent
