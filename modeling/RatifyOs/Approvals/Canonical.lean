import RatifyOs.Data.JsValue
import RatifyOs.Data.Keyed
import RatifyOs.Data.Result

/-! `canonicalSerialize` of any tree of JavaScript values: a text for each JSON value, the same for
two only when they are the same but for the order of their keys. -/
namespace RatifyOs.Approvals
open Data Data.JsValue
open Data.Json (joined)

section Serialize

mutual

def canonicalSerialize : JsValue → Except String Text
  | .null => return ['n','u','l','l']
  | .bool true => return ['t','r','u','e']
  | .bool false => return ['f','a','l','s','e']
  | .num (.finite q) => return numberText q
  | .num _ => throw "Transaction is not serializable"
  | .str s => return s.quote
  | .arr items => do
    let texts ← serializeItems items
    return '[' :: (joined texts ++ [']'])
  | .obj fields => do
    let entries ← serializeFields fields
    return '{' :: (joined ((Keyed.sort entries).map member) ++ ['}'])
  | .other => throw "Transaction is not serializable"

def serializeItems : List JsValue → Except String (List Text)
  | [] => return []
  | v :: items => do
    let text ← canonicalSerialize v
    let texts ← serializeItems items
    return text :: texts

def serializeFields : List (Utf16 × JsValue) → Except String (List (Utf16 × Text))
  | [] => return []
  | (key,v) :: fields => do
    let text ← canonicalSerialize v
    let entries ← serializeFields fields
    return (key,text) :: entries

end

mutual

/-- The value with the keys of all its objects in order. -/
def ordered : JsValue → JsValue
  | .arr items => .arr (orderedItems items)
  | .obj fields => .obj (Keyed.sort (orderedFields fields))
  | v => v

def orderedItems : List JsValue → List JsValue
  | [] => []
  | v :: items => ordered v :: orderedItems items

def orderedFields : List (Utf16 × JsValue) → List (Utf16 × JsValue)
  | [] => []
  | (key,v) :: fields => (key,ordered v) :: orderedFields fields

end

end Serialize

section Ordered

theorem orderedFields_eq (fields : List (Utf16 × JsValue)) :
    orderedFields fields = fields.map fun field => (field.1,ordered field.2) := by
  induction fields with
  | nil => rfl
  | cons field fields ih =>
    obtain ⟨key,v⟩ := field
    rw [orderedFields,ih]
    rfl

theorem orderedFields_keys (fields : List (Utf16 × JsValue)) : (orderedFields fields).map (·.1) = fields.map (·.1) := by
  rw [orderedFields_eq,List.map_map]
  rfl

theorem serializeFields_eq_ok {fields : List (Utf16 × JsValue)} {entries : List (Utf16 × Text)} :
    serializeFields fields = .ok entries ↔
      List.Forall₂ (fun field entry => field.1 = entry.1 ∧ canonicalSerialize field.2 = .ok entry.2) fields entries := by
  induction fields generalizing entries with
  | nil => rw [serializeFields,Result.pure_eq_ok,List.forall₂_nil_left_iff,eq_comm]
  | cons field fields ih =>
    obtain ⟨key,v⟩ := field
    simp only [serializeFields,Result.bind_eq_ok,Result.pure_eq_ok,ih]
    constructor
    · rintro ⟨text,written,entries,others,rfl⟩
      exact .cons ⟨rfl,written⟩ others
    · intro both
      cases both with
      | @cons _ entry _ entries first others =>
        obtain ⟨key,text⟩ := entry
        obtain ⟨rfl,written⟩ := first
        exact ⟨text,written,entries,others,rfl⟩

end Ordered

section RoundTrip

mutual

/-- Any text that is written is read as the value with its keys in order. -/
theorem serialize_reads : ∀ (v : JsValue) {text : Text}, v.WellFormed → canonicalSerialize v = .ok text →
    Reads text (ordered v)
  | .null, _, _, rfl => reads_null
  | .bool true, _, _, rfl => reads_true
  | .bool false, _, _, rfl => reads_false
  | .num (.finite q), _, double, rfl => reads_number (double q rfl)
  | .num (.infinite _), _, _, written => nomatch written
  | .num .nan, _, _, written => nomatch written
  | .str s, _, _, rfl => reads_quote s
  | .arr items, _, wellFormed, written => by
    rw [canonicalSerialize,Result.bind_eq_ok] at written
    obtain ⟨texts,each,same⟩ := written
    cases same
    exact reads_array (items_reads items wellFormed each)
  | .obj fields, _, wellFormed, written => by
    rw [canonicalSerialize,Result.bind_eq_ok] at written
    obtain ⟨entries,each,same⟩ := written
    cases same
    apply reads_object
    · exact Keyed.sort_forall₂ (fun _ _ related => related.1) (fields_reads fields wellFormed.2 each)
    · apply (Keyed.keys_sort _).nodup_iff.mpr
      rw [orderedFields_keys]
      exact wellFormed.1
  | .other, _, _, written => nomatch written

theorem items_reads : ∀ (items : List JsValue) {texts : List Text}, WellFormedItems items →
    serializeItems items = .ok texts → List.Forall₂ Reads texts (orderedItems items)
  | [], _, _, rfl => .nil
  | v :: items, _, wellFormed, written => by
    simp only [serializeItems,Result.bind_eq_ok] at written
    obtain ⟨text,first,texts,others,same⟩ := written
    cases same
    exact .cons (serialize_reads v wellFormed.1 first) (items_reads items wellFormed.2 others)

theorem fields_reads : ∀ (fields : List (Utf16 × JsValue)) {entries : List (Utf16 × Text)}, WellFormedFields fields →
    serializeFields fields = .ok entries → List.Forall₂ Entry entries (orderedFields fields)
  | [], _, _, rfl => .nil
  | (key,v) :: fields, _, wellFormed, written => by
    simp only [serializeFields,Result.bind_eq_ok] at written
    obtain ⟨text,first,entries,others,same⟩ := written
    cases same
    exact .cons ⟨rfl,serialize_reads v wellFormed.1 first⟩ (fields_reads fields wellFormed.2 others)

end

mutual

/-- The text does not depend on the order of the keys. -/
theorem serialize_ordered : ∀ (v : JsValue) {text : Text}, canonicalSerialize v = .ok text →
    canonicalSerialize (ordered v) = .ok text
  | .null, _, written => written
  | .bool _, _, written => written
  | .num _, _, written => written
  | .str _, _, written => written
  | .arr items, _, written => by
    rw [canonicalSerialize,Result.bind_eq_ok] at written
    obtain ⟨texts,each,same⟩ := written
    rw [ordered,canonicalSerialize,Result.bind_eq_ok]
    exact ⟨texts,items_ordered items each,same⟩
  | .obj fields, _, written => by
    rw [canonicalSerialize,Result.bind_eq_ok] at written
    obtain ⟨entries,each,same⟩ := written
    have sorted := Keyed.sort_forall₂ (fun _ _ related => related.1)
      (serializeFields_eq_ok.mp (fields_ordered fields each))
    rw [ordered,canonicalSerialize,Result.bind_eq_ok]
    refine ⟨Keyed.sort entries,serializeFields_eq_ok.mpr sorted,?_⟩
    rw [Keyed.sort_sort]
    exact same
  | .other, _, written => written

theorem items_ordered : ∀ (items : List JsValue) {texts : List Text}, serializeItems items = .ok texts →
    serializeItems (orderedItems items) = .ok texts
  | [], _, written => written
  | v :: items, _, written => by
    simp only [serializeItems,Result.bind_eq_ok] at written
    obtain ⟨text,first,texts,others,same⟩ := written
    simp only [orderedItems,serializeItems,Result.bind_eq_ok]
    exact ⟨text,serialize_ordered v first,texts,items_ordered items others,same⟩

theorem fields_ordered : ∀ (fields : List (Utf16 × JsValue)) {entries : List (Utf16 × Text)},
    serializeFields fields = .ok entries → serializeFields (orderedFields fields) = .ok entries
  | [], _, written => written
  | (key,v) :: fields, _, written => by
    simp only [serializeFields,Result.bind_eq_ok] at written
    obtain ⟨text,first,entries,others,same⟩ := written
    simp only [orderedFields,serializeFields,Result.bind_eq_ok]
    exact ⟨text,serialize_ordered v first,entries,fields_ordered fields others,same⟩

end

mutual

theorem serialize_writable : ∀ v : JsValue, v.Writable → ∃ text, canonicalSerialize v = .ok text
  | .null, _ => ⟨_,rfl⟩
  | .bool true, _ => ⟨_,rfl⟩
  | .bool false, _ => ⟨_,rfl⟩
  | .num (.finite _), _ => ⟨_,rfl⟩
  | .str _, _ => ⟨_,rfl⟩
  | .arr items, writable => by
    obtain ⟨texts,each⟩ := items_writable items writable
    rw [canonicalSerialize,each]
    exact ⟨_,rfl⟩
  | .obj fields, writable => by
    obtain ⟨entries,each⟩ := fields_writable fields writable
    rw [canonicalSerialize,each]
    exact ⟨_,rfl⟩

theorem items_writable : ∀ items : List JsValue, WritableItems items → ∃ texts, serializeItems items = .ok texts
  | [], _ => ⟨[],rfl⟩
  | v :: items, writable => by
    obtain ⟨text,first⟩ := serialize_writable v writable.1
    obtain ⟨texts,others⟩ := items_writable items writable.2
    rw [serializeItems,first,others]
    exact ⟨text :: texts,rfl⟩

theorem fields_writable : ∀ fields : List (Utf16 × JsValue), WritableFields fields →
    ∃ entries, serializeFields fields = .ok entries
  | [], _ => ⟨[],rfl⟩
  | (key,v) :: fields, writable => by
    obtain ⟨text,first⟩ := serialize_writable v writable.1
    obtain ⟨entries,others⟩ := fields_writable fields writable.2
    rw [serializeFields,first,others]
    exact ⟨(key,text) :: entries,rfl⟩

end

theorem parse_serialize {v : JsValue} {text : Text} (wellFormed : v.WellFormed) (written : canonicalSerialize v = .ok text) :
    parse text = some (ordered v) := (serialize_reads v wellFormed written).parse

end RoundTrip

section Same

mutual

theorem ordered_of_same : ∀ {v w : JsValue}, v.Same w → v.WellFormed → ordered v = ordered w
  | _, _, .refl _, _ => rfl
  | _, _, .arr others, wellFormed => by rw [ordered,ordered,items_of_same others wellFormed]
  | _, _, @JsValue.Same.obj fields _ _ others order, wellFormed => by
    have same := fields_of_same others wellFormed.2
    have keys : ((orderedFields fields).map (·.1)).Nodup := by
      rw [orderedFields_keys]
      exact wellFormed.1
    rw [ordered,ordered,same]
    apply congrArg JsValue.obj
    apply Keyed.sort_eq_of_perm
    · rw [orderedFields_eq,orderedFields_eq]
      exact order.map _
    · rwa [← same]

theorem items_of_same : ∀ {items items' : List JsValue}, SameItems items items' → WellFormedItems items →
    orderedItems items = orderedItems items'
  | _, _, .nil, _ => rfl
  | _, _, .cons first others, wellFormed => by
    rw [orderedItems,orderedItems,ordered_of_same first wellFormed.1,items_of_same others wellFormed.2]

theorem fields_of_same : ∀ {fields fields' : List (Utf16 × JsValue)}, SameFields fields fields' →
    WellFormedFields fields → orderedFields fields = orderedFields fields'
  | _, _, .nil, _ => rfl
  | _, _, .cons first others, wellFormed => by
    rw [orderedFields,orderedFields,ordered_of_same first wellFormed.1,fields_of_same others wellFormed.2]

end

mutual

theorem same_of_ordered : ∀ v w : JsValue, ordered v = ordered w → v.Same w
  | .arr items, w, same => by
    cases w with
    | arr items' =>
      rw [ordered,ordered,JsValue.arr.injEq] at same
      exact .arr (same_items items items' same)
    | _ => cases same
  | .obj fields, w, same => by
    cases w with
    | obj fields' =>
      rw [ordered,ordered,JsValue.obj.injEq] at same
      have perm := (Keyed.sort_perm (orderedFields fields)).symm
      rw [same] at perm
      have each : List.Forall₂ (fun entry field => entry = (field.1,ordered field.2)) (orderedFields fields') fields' := by
        rw [orderedFields_eq,List.forall₂_map_left_iff]
        exact List.forall₂_same.mpr fun _ _ => rfl
      obtain ⟨fields'',same',order⟩ := List.perm_comp_forall₂ (perm.trans (Keyed.sort_perm _)) each
      exact .obj (same_fields fields fields'' same') order
    | _ => cases same
  | .null, w, same => by
    cases w with
    | null => exact .refl _
    | _ => cases same
  | .bool _, w, same => by
    cases w with
    | bool value =>
      cases same
      exact .refl _
    | _ => cases same
  | .num _, w, same => by
    cases w with
    | num value =>
      cases same
      exact .refl _
    | _ => cases same
  | .str _, w, same => by
    cases w with
    | str value =>
      cases same
      exact .refl _
    | _ => cases same
  | .other, w, same => by
    cases w with
    | other => exact .refl _
    | _ => cases same

theorem same_items : ∀ items items' : List JsValue, orderedItems items = orderedItems items' → SameItems items items'
  | [], items', same => by
    cases items' with
    | nil => exact .nil
    | cons v items' => cases same
  | v :: items, items', same => by
    cases items' with
    | nil => cases same
    | cons v' items' =>
      rw [orderedItems,orderedItems,List.cons.injEq] at same
      exact .cons (same_of_ordered v v' same.1) (same_items items items' same.2)

theorem same_fields : ∀ fields fields' : List (Utf16 × JsValue),
    List.Forall₂ (fun entry field => entry = (field.1,ordered field.2)) (orderedFields fields) fields' →
    SameFields fields fields'
  | [], fields', each => by
    cases each
    exact .nil
  | (key,v) :: fields, fields', each => by
    cases each with
    | @cons _ field _ fields' first others =>
      obtain ⟨key',v'⟩ := field
      obtain ⟨rfl,same⟩ := Prod.mk.inj first
      exact .cons (same_of_ordered v v' same) (same_fields fields fields' others)

end

theorem text_eq_iff {v w : JsValue} {text text' : Text} (wellFormed : v.WellFormed) (wellFormed' : w.WellFormed)
    (written : canonicalSerialize v = .ok text) (written' : canonicalSerialize w = .ok text') :
    text = text' ↔ v.Same w := by
  constructor
  · intro same
    have read := parse_serialize wellFormed written
    rw [same,parse_serialize wellFormed' written',Option.some.injEq] at read
    exact same_of_ordered v w read.symm
  · intro same
    have one := serialize_ordered v written
    rw [ordered_of_same same wellFormed,serialize_ordered w written',Except.ok.injEq] at one
    exact one.symm

/-- Two JSON values have one text just when they are the same but for the order of keys. -/
theorem serialize_eq_iff {v w : JsValue} (json : v.IsJson) (json' : w.IsJson) :
    canonicalSerialize v = canonicalSerialize w ↔ v.Same w := by
  obtain ⟨text,written⟩ := serialize_writable v json.writable
  obtain ⟨text',written'⟩ := serialize_writable w json'.writable
  rw [written,written',Except.ok.injEq]
  exact text_eq_iff json.wellFormed json'.wellFormed written written'

end Same

end RatifyOs.Approvals
