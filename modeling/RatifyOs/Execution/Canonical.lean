import Mathlib.Data.List.Lex
import Mathlib.Data.List.Sort
import RatifyOs.Data.JsonParse

/-! `canonicalSerialize`: one text for all the objects that differ only in the order of
their keys, and no text for two others. -/
namespace RatifyOs.Execution
open Data Data.Json

/-- In the order of `Array.prototype.sort`. -/
def sortKeys {α : Type} (fields : List (String × α)) : List (String × α) :=
  fields.insertionSort fun a b => codeUnits a.1 ≤ codeUnits b.1

mutual

def canonicalSerialize : Json → Text
  | .null => ['n','u','l','l']
  | .bool true => ['t','r','u','e']
  | .bool false => ['f','a','l','s','e']
  | .num n => number n
  | .str s => quote s
  | .arr items => '[' :: (joined (serializeItems items) ++ [']'])
  | .obj fields => '{' :: (joined ((sortKeys (serializeFields fields)).map member) ++ ['}'])

def serializeItems : List Json → List Text
  | [] => []
  | v :: items => canonicalSerialize v :: serializeItems items

def serializeFields : List (String × Json) → List (String × Text)
  | [] => []
  | (key,v) :: fields => (key,canonicalSerialize v) :: serializeFields fields

end

mutual

/-- The value with the keys of all its objects in order. -/
def ordered : Json → Json
  | .arr items => .arr (orderedItems items)
  | .obj fields => .obj (sortKeys (orderedFields fields))
  | v => v

def orderedItems : List Json → List Json
  | [] => []
  | v :: items => ordered v :: orderedItems items

def orderedFields : List (String × Json) → List (String × Json)
  | [] => []
  | (key,v) :: fields => (key,ordered v) :: orderedFields fields

end

mutual

/-- No object has a key twice. -/
def Distinct : Json → Prop
  | .arr items => DistinctItems items
  | .obj fields => (fields.map (·.1)).Nodup ∧ DistinctFields fields
  | _ => True

def DistinctItems : List Json → Prop
  | [] => True
  | v :: items => Distinct v ∧ DistinctItems items

def DistinctFields : List (String × Json) → Prop
  | [] => True
  | (_,v) :: fields => Distinct v ∧ DistinctFields fields

end

theorem sortKeys_perm {α : Type} (fields : List (String × α)) : (sortKeys fields).Perm fields :=
  List.perm_insertionSort _ fields

private theorem insert_forall₂ {α β : Type} {R : String × α → String × β → Prop} (keys : ∀ a b, R a b → a.1 = b.1)
    {a : String × α} {b : String × β} (first : R a b) {as : List (String × α)} {bs : List (String × β)}
    (others : List.Forall₂ R as bs) :
    List.Forall₂ R (as.orderedInsert (fun a b => codeUnits a.1 ≤ codeUnits b.1) a)
      (bs.orderedInsert (fun a b => codeUnits a.1 ≤ codeUnits b.1) b) := by
  induction others with
  | nil => exact .cons first .nil
  | @cons a' b' as bs second others ih =>
    simp only [List.orderedInsert,keys a b first,keys a' b' second]
    split
    · exact .cons first (.cons second others)
    · exact .cons second ih

private theorem sortKeys_forall₂ {α β : Type} {R : String × α → String × β → Prop} (keys : ∀ a b, R a b → a.1 = b.1)
    {as : List (String × α)} {bs : List (String × β)} (items : List.Forall₂ R as bs) :
    List.Forall₂ R (sortKeys as) (sortKeys bs) := by
  induction items with
  | nil => exact .nil
  | cons first others ih => exact insert_forall₂ keys first ih

theorem orderedFields_keys (fields : List (String × Json)) :
    (orderedFields fields).map (·.1) = fields.map (·.1) := by
  induction fields with
  | nil => rfl
  | cons field fields ih =>
    obtain ⟨key,v⟩ := field
    simp [orderedFields,ih]

mutual

private theorem serialize_reads : ∀ v, Distinct v → Reads (canonicalSerialize v) (ordered v)
  | .null, _ => reads_null
  | .bool true, _ => reads_true
  | .bool false, _ => reads_false
  | .num n, _ => reads_number n
  | .str s, _ => reads_quote s
  | .arr items, distinct => reads_array (items_reads items distinct)
  | .obj fields, distinct => by
    apply reads_object
    · exact sortKeys_forall₂ (fun _ _ related => related.1) (fields_reads fields distinct.2)
    · have keys := (sortKeys_perm (orderedFields fields)).map (·.1)
      rw [orderedFields_keys] at keys
      exact keys.nodup_iff.mpr distinct.1

private theorem items_reads : ∀ items, DistinctItems items →
    List.Forall₂ Reads (serializeItems items) (orderedItems items)
  | [], _ => .nil
  | v :: items, distinct => .cons (serialize_reads v distinct.1) (items_reads items distinct.2)

private theorem fields_reads : ∀ fields, DistinctFields fields →
    List.Forall₂ (fun entry field => entry.1 = field.1 ∧ Reads entry.2 field.2) (serializeFields fields)
      (orderedFields fields)
  | [], _ => .nil
  | (_,v) :: fields, distinct => .cons ⟨rfl,serialize_reads v distinct.1⟩ (fields_reads fields distinct.2)

end

theorem parse_canonicalSerialize {v : Json} (distinct : Distinct v) : parse (canonicalSerialize v) = some (ordered v) :=
  parse_of_reads (serialize_reads v distinct)

theorem lookup_perm {fields fields' : List (String × Json)} (perm : fields.Perm fields')
    (distinct : (fields.map (·.1)).Nodup) (key : String) : fields.lookup key = fields'.lookup key := by
  induction perm with
  | nil => rfl
  | cons f _ ih =>
    simp only [List.map_cons,List.nodup_cons] at distinct
    rw [List.lookup_cons,List.lookup_cons,ih distinct.2]
  | swap f g fields =>
    simp only [List.map_cons,List.nodup_cons,List.mem_cons,not_or] at distinct
    obtain ⟨a,x⟩ := f
    obtain ⟨b,y⟩ := g
    have other : b ≠ a := distinct.1.1
    simp only [List.lookup_cons]
    by_cases first : key = a
    · have second : key ≠ b := fun same => other (same.symm.trans first)
      rw [beq_eq_false_iff_ne.mpr second]
    · rw [beq_eq_false_iff_ne.mpr first]
  | trans first _ ih ih' =>
    exact (ih distinct).trans (ih' ((first.map (·.1)).nodup_iff.mp distinct))

theorem lookup_orderedFields (fields : List (String × Json)) (key : String) :
    (orderedFields fields).lookup key = (fields.lookup key).map ordered := by
  induction fields with
  | nil => rfl
  | cons f fields ih =>
    obtain ⟨name,v⟩ := f
    simp only [orderedFields,List.lookup_cons,ih]
    split <;> rfl

/-- A key is read the same once the keys are in order. -/
theorem lookup_ordered {fields : List (String × Json)} (distinct : (fields.map (·.1)).Nodup) (key : String) :
    (sortKeys (orderedFields fields)).lookup key = (fields.lookup key).map ordered := by
  rw [lookup_perm (sortKeys_perm _),lookup_orderedFields]
  rw [((sortKeys_perm (orderedFields fields)).map (·.1)).nodup_iff,orderedFields_keys]
  exact distinct

theorem sortKeys_sortKeys {α : Type} (fields : List (String × α)) : sortKeys (sortKeys fields) = sortKeys fields := by
  have total : Std.Total fun a b : String × α => codeUnits a.1 ≤ codeUnits b.1 := ⟨fun a b => le_total _ _⟩
  have trans : IsTrans (String × α) fun a b => codeUnits a.1 ≤ codeUnits b.1 := ⟨fun a b c => le_trans⟩
  exact List.Pairwise.insertionSort_eq (List.pairwise_insertionSort _ fields)

theorem serializeFields_eq (fields : List (String × Json)) :
    serializeFields fields = fields.map fun field => (field.1,canonicalSerialize field.2) := by
  induction fields with
  | nil => rfl
  | cons field fields ih =>
    obtain ⟨key,v⟩ := field
    rw [serializeFields,ih]
    rfl

theorem serializeFields_sortKeys (fields : List (String × Json)) :
    serializeFields (sortKeys fields) = sortKeys (serializeFields fields) := by
  rw [serializeFields_eq,serializeFields_eq]
  exact List.map_insertionSort _ _ _ _ fun _ _ _ _ => Iff.rfl

mutual

/-- The text does not depend on the order of the keys. -/
theorem serialize_ordered : ∀ v, canonicalSerialize (ordered v) = canonicalSerialize v
  | .null => rfl
  | .bool _ => rfl
  | .num _ => rfl
  | .str _ => rfl
  | .arr items => by rw [ordered,canonicalSerialize,canonicalSerialize,serializeItems_ordered items]
  | .obj fields => by
    rw [ordered,canonicalSerialize,canonicalSerialize,serializeFields_sortKeys,serializeFields_ordered fields,sortKeys_sortKeys]

theorem serializeItems_ordered : ∀ items, serializeItems (orderedItems items) = serializeItems items
  | [] => rfl
  | v :: items => by rw [orderedItems,serializeItems,serializeItems,serialize_ordered v,serializeItems_ordered items]

theorem serializeFields_ordered : ∀ fields, serializeFields (orderedFields fields) = serializeFields fields
  | [] => rfl
  | (key,v) :: fields => by
    rw [orderedFields,serializeFields,serializeFields,serialize_ordered v,serializeFields_ordered fields]

end

theorem ordered_of_serialize_eq {v w : Json} (distinct : Distinct v) (distinct' : Distinct w)
    (same : canonicalSerialize v = canonicalSerialize w) : ordered v = ordered w := by
  have parsed := parse_canonicalSerialize distinct
  rw [same,parse_canonicalSerialize distinct'] at parsed
  exact (Option.some.inj parsed).symm

/-! `JSON.stringify`, and the copy of a value with its keys in the order of the locale that
both sides of the custody boundary write. -/

mutual

def stringify : Json → Text
  | .null => ['n','u','l','l']
  | .bool true => ['t','r','u','e']
  | .bool false => ['f','a','l','s','e']
  | .num n => number n
  | .str s => quote s
  | .arr items => '[' :: (joined (stringifyItems items) ++ [']'])
  | .obj fields => '{' :: (joined ((stringifyFields fields).map member) ++ ['}'])

def stringifyItems : List Json → List Text
  | [] => []
  | v :: items => stringify v :: stringifyItems items

def stringifyFields : List (String × Json) → List (String × Text)
  | [] => []
  | (key,v) :: fields => (key,stringify v) :: stringifyFields fields

end

section Normalize
variable (localeCompare : String → String → ℤ)

def localeSort {α : Type} (fields : List (String × α)) : List (String × α) :=
  fields.insertionSort fun a b => localeCompare a.1 b.1 ≤ 0

mutual

def normalize : Json → Json
  | .arr items => .arr (normalizeItems items)
  | .obj fields => .obj (localeSort localeCompare (normalizeFields fields))
  | v => v

def normalizeItems : List Json → List Json
  | [] => []
  | v :: items => normalize v :: normalizeItems items

def normalizeFields : List (String × Json) → List (String × Json)
  | [] => []
  | (key,v) :: fields => (key,normalize v) :: normalizeFields fields

end

end Normalize

/-- A property of a value; only an object has any. -/
def property (key : String) : Json → Option Json
  | .obj fields => fields.lookup key
  | _ => none

def textOf : Json → Option String
  | .str value => some value
  | _ => none

def numberOf : Json → Option ℤ
  | .num value => some value
  | _ => none

/-- `Number.isSafeInteger` -/
def SafeInteger (n : ℤ) : Prop := n.natAbs ≤ 9007199254740991

instance (n : ℤ) : Decidable (SafeInteger n) := inferInstanceAs (Decidable (_ ≤ _))

def safeInteger (v : Json) : Option ℤ := (numberOf v).filter fun n => SafeInteger n

mutual

private theorem stringify_reads : ∀ v, Distinct v → Reads (stringify v) v
  | .null, _ => reads_null
  | .bool true, _ => reads_true
  | .bool false, _ => reads_false
  | .num n, _ => reads_number n
  | .str s, _ => reads_quote s
  | .arr items, distinct => reads_array (stringifyItems_reads items distinct)
  | .obj fields, distinct => reads_object (stringifyFields_reads fields distinct.2) distinct.1

private theorem stringifyItems_reads : ∀ items, DistinctItems items → List.Forall₂ Reads (stringifyItems items) items
  | [], _ => .nil
  | v :: items, distinct => .cons (stringify_reads v distinct.1) (stringifyItems_reads items distinct.2)

private theorem stringifyFields_reads : ∀ fields, DistinctFields fields →
    List.Forall₂ (fun entry field => entry.1 = field.1 ∧ Reads entry.2 field.2) (stringifyFields fields) fields
  | [], _ => .nil
  | (_,v) :: fields, distinct => .cons ⟨rfl,stringify_reads v distinct.1⟩ (stringifyFields_reads fields distinct.2)

end

theorem parse_stringify {v : Json} (distinct : Distinct v) : parse (stringify v) = some v :=
  parse_of_reads (stringify_reads v distinct)

end RatifyOs.Execution
