import RatifyOs.Data.Literal
import RatifyOs.Data.Utf16

/-! The values of JavaScript that are trees, with any numbers and strings, and `JSON.parse` of the
texts of those among them that JSON can write. -/
namespace RatifyOs.Data
open Json

inductive JsValue where
  | null
  | bool (value : Bool)
  | num (value : Double)
  | str (value : Utf16)
  | arr (items : List JsValue)
  | obj (fields : List (Utf16 × JsValue))
  /-- `undefined`, a function, a symbol or a bigint -/
  | other

namespace JsValue

section WellFormed

mutual

/-- The numbers are doubles, and no object has a key twice. -/
def WellFormed : JsValue → Prop
  | .num x => ∀ q, x = .finite q → Double.ofRat q = .finite q
  | .arr items => WellFormedItems items
  | .obj fields => (fields.map (·.1)).Nodup ∧ WellFormedFields fields
  | _ => True

def WellFormedItems : List JsValue → Prop
  | [] => True
  | v :: items => WellFormed v ∧ WellFormedItems items

def WellFormedFields : List (Utf16 × JsValue) → Prop
  | [] => True
  | (_,v) :: fields => WellFormed v ∧ WellFormedFields fields

end

mutual

def Writable : JsValue → Prop
  | .num x => x.isFinite = true
  | .arr items => WritableItems items
  | .obj fields => WritableFields fields
  | .other => False
  | _ => True

def WritableItems : List JsValue → Prop
  | [] => True
  | v :: items => Writable v ∧ WritableItems items

def WritableFields : List (Utf16 × JsValue) → Prop
  | [] => True
  | (_,v) :: fields => Writable v ∧ WritableFields fields

end

structure IsJson (v : JsValue) : Prop where
  wellFormed : v.WellFormed
  writable : v.Writable

mutual

/-- Equal, but for the order of the keys of their objects. -/
inductive Same : JsValue → JsValue → Prop
  | refl (v : JsValue) : Same v v
  | arr {items items' : List JsValue} (others : SameItems items items') : Same (.arr items) (.arr items')
  | obj {fields fields' fields'' : List (Utf16 × JsValue)} (others : SameFields fields fields')
      (order : fields'.Perm fields'') : Same (.obj fields) (.obj fields'')

inductive SameItems : List JsValue → List JsValue → Prop
  | nil : SameItems [] []
  | cons {v v' : JsValue} {items items' : List JsValue} (first : Same v v') (others : SameItems items items') :
      SameItems (v :: items) (v' :: items')

inductive SameFields : List (Utf16 × JsValue) → List (Utf16 × JsValue) → Prop
  | nil : SameFields [] []
  | cons {key : Utf16} {v v' : JsValue} {fields fields' : List (Utf16 × JsValue)} (first : Same v v')
      (others : SameFields fields fields') : SameFields ((key,v) :: fields) ((key,v') :: fields')

end

end WellFormed

section Parse

/-- A key that comes again has its value replaced. -/
def assign (fields : List (Utf16 × JsValue)) (field : Utf16 × JsValue) : List (Utf16 × JsValue) :=
  if field.1 ∈ fields.map (·.1) then fields.map fun old => if old.1 = field.1 then field else old
  else fields ++ [field]

def field (value : Text → Option (JsValue × Text)) (text : Text) : Option ((Utf16 × JsValue) × Text) :=
  match blank text with
  | c :: rest =>
    if c = quoteMark then do
      let (key,rest) ← Utf16.string rest
      match blank rest with
      | ':' :: rest => do
        let (v,rest) ← value rest
        return ((key,v),rest)
      | _ => none
    else none
  | [] => none

/-- A value nested at most this deep. -/
def value : ℕ → Text → Option (JsValue × Text)
  | 0, _ => none
  | n + 1, text =>
    match blank text with
    | 'n' :: 'u' :: 'l' :: 'l' :: rest => some (.null,rest)
    | 't' :: 'r' :: 'u' :: 'e' :: rest => some (.bool true,rest)
    | 'f' :: 'a' :: 'l' :: 's' :: 'e' :: rest => some (.bool false,rest)
    | '[' :: rest => do
      let (items,rest) ← bracketed ']' (fun text => value n text) rest
      return (.arr items,rest)
    | c :: rest =>
      if c = '{' then do
        let (fields,rest) ← bracketed '}' (field fun text => value n text) rest
        return (.obj (fields.foldl assign []),rest)
      else if c = quoteMark then do
        let (s,rest) ← Utf16.string rest
        return (.str s,rest)
      else do
        let (x,rest) ← numberLiteral (c :: rest)
        return (.num x,rest)
    | [] => none

/-- `JSON.parse`; `none` is a `SyntaxError`. -/
def parse (text : Text) : Option JsValue :=
  match value (text.length + 1) text with
  | some (v,rest) => if blank rest = [] then some v else none
  | none => none

end Parse

section Reads

/-- `JSON.parse` reads the value off the front of any text that goes on with this one. -/
structure Reads (text : Text) (v : JsValue) : Prop where
  opens : Opens text
  reads : ∀ n, text.length ≤ n → ∀ rest, Stops rest → value (n + 1) (text ++ rest) = some (v,rest)

theorem Reads.item {text : Text} {v : JsValue} (reads : Reads text v) {n : ℕ} (enough : text.length < n) :
    Item (fun text => value n text) text v := by
  obtain ⟨m,rfl⟩ : ∃ m, n = m + 1 := ⟨n - 1,by omega⟩
  exact ⟨reads.opens,reads.reads m (by omega)⟩

theorem Reads.parse {text : Text} {v : JsValue} (reads : Reads text v) : parse text = some v := by
  have read := reads.reads text.length (by omega) [] trivial
  rw [List.append_nil] at read
  simp [JsValue.parse,read,blank]

theorem reads_null : Reads ['n','u','l','l'] .null where
  opens := ⟨'n',_,rfl,rfl,by decide⟩
  reads _ _ _ _ := rfl

theorem reads_true : Reads ['t','r','u','e'] (.bool true) where
  opens := ⟨'t',_,rfl,rfl,by decide⟩
  reads _ _ _ _ := rfl

theorem reads_false : Reads ['f','a','l','s','e'] (.bool false) where
  opens := ⟨'f',_,rfl,rfl,by decide⟩
  reads _ _ _ _ := rfl

theorem value_quoteMark (n : ℕ) (text : Text) :
    value (n + 1) (quoteMark :: text) = (Utf16.string text).bind fun read => some (.str read.1,read.2) := rfl

theorem value_bracket (n : ℕ) (text : Text) : value (n + 1) ('[' :: text) =
    (bracketed ']' (fun text => value n text) text).bind fun read => some (.arr read.1,read.2) := rfl

theorem value_brace (n : ℕ) (text : Text) : value (n + 1) ('{' :: text) =
    (bracketed '}' (field fun text => value n text) text).bind fun read =>
      some (.obj (read.1.foldl assign []),read.2) := rfl

theorem value_digit (n : ℕ) {d : Char} (digit : d.isDigit = true) (text : Text) :
    value (n + 1) (d :: text) = (numberLiteral (d :: text)).bind fun read => some (.num read.1,read.2) := by
  have named : d = Char.ofNat d.toNat := (Char.ofNat_toNat d).symm
  obtain ⟨low,high⟩ := digit_range digit
  generalize d.toNat = code at named low high
  subst named
  interval_cases code <;> rfl

theorem value_minus (n : ℕ) (text : Text) :
    value (n + 1) ('-' :: text) = (numberLiteral ('-' :: text)).bind fun read => some (.num read.1,read.2) := rfl

theorem reads_number {q : ℚ} (double : Double.ofRat q = .finite q) : Reads (numberText q) (.num (.finite q)) where
  opens := by
    obtain ⟨d,rest,shown,either⟩ := numberText_head q
    refine ⟨d,rest,shown,?_⟩
    rcases either with rfl | digit
    · decide
    · exact digit_opens digit
  reads n _ rest stops := by
    obtain ⟨d,more,shown,either⟩ := numberText_head q
    have read := numberLiteral_text double stops
    rw [shown,List.cons_append] at read ⊢
    rcases either with rfl | digit
    · rw [value_minus,read]
      rfl
    · rw [value_digit n digit,read]
      rfl

theorem reads_quote (s : Utf16) : Reads s.quote (.str s) where
  opens := ⟨quoteMark,_,rfl,rfl,by decide⟩
  reads n _ rest _ := by
    rw [Utf16.quote,List.cons_append,List.append_assoc,value_quoteMark,List.cons_append,List.nil_append,Utf16.string_quote]
    rfl

theorem reads_array {texts : List Text} {values : List JsValue} (items : List.Forall₂ Reads texts values) :
    Reads ('[' :: (joined texts ++ [']'])) (.arr values) where
  opens := ⟨'[',_,rfl,rfl,by decide⟩
  reads n enough rest _ := by
    have shorter : (joined texts).length < n := by
      simp only [List.length_append,List.length_cons] at enough
      omega
    have read := bracketed_joined (.inl rfl) (items_within (fun _ _ _ reads => reads.item) items shorter) rest
    rw [List.cons_append,List.append_assoc,value_bracket,List.cons_append,List.nil_append,read]
    rfl

def member (entry : Utf16 × Text) : Text := entry.1.quote ++ ':' :: entry.2

/-- An entry with the text of a value is a field with the value. -/
def Entry (entry : Utf16 × Text) (field : Utf16 × JsValue) : Prop := entry.1 = field.1 ∧ Reads entry.2 field.2

theorem Entry.item {entry : Utf16 × Text} {pair : Utf16 × JsValue} (reads : Entry entry pair) {n : ℕ}
    (enough : entry.2.length < n) : Item (field fun text => value n text) (member entry) pair := by
  obtain ⟨key,text⟩ := entry
  obtain ⟨key',v⟩ := pair
  obtain ⟨same,reads⟩ := reads
  dsimp only at same reads enough
  subst same
  refine ⟨⟨quoteMark,_,rfl,rfl,by decide⟩,fun rest stops => ?_⟩
  have name := Utf16.string_quote key (':' :: (text ++ rest))
  have read := (reads.item enough).2 rest stops
  have seen : blank (':' :: (text ++ rest)) = ':' :: (text ++ rest) := rfl
  have shown : member (key,text) ++ rest = quoteMark :: (Utf16.escaped key ++ quoteMark :: (':' :: (text ++ rest))) := by
    simp [member,Utf16.quote]
  have first : blank (member (key,text) ++ rest) = member (key,text) ++ rest := by
    rw [shown]
    rfl
  rw [field,first,shown]
  simp [name,seen,read]

theorem members_of_reads {entries : List (Utf16 × Text)} {fields : List (Utf16 × JsValue)}
    (items : List.Forall₂ Entry entries fields) {n : ℕ} (enough : (joined (entries.map member)).length < n) :
    List.Forall₂ (Item (field fun text => value n text)) (entries.map member) fields := by
  have each : List.Forall₂ (fun text pair => ∃ entry, text = member entry ∧ Entry entry pair) (entries.map member)
      fields := by
    rw [List.forall₂_map_left_iff]
    exact items.imp fun entry pair related => ⟨entry,rfl,related⟩
  refine @items_within _ _ (fun n => field fun text => value n text) ?_ _ _ each _ enough
  rintro _ pair n ⟨entry,rfl,related⟩ enough
  apply related.item
  simp only [member,List.length_append,List.length_cons] at enough
  omega

theorem reads_object {entries : List (Utf16 × Text)} {fields : List (Utf16 × JsValue)}
    (items : List.Forall₂ Entry entries fields) (distinct : (fields.map (·.1)).Nodup) :
    Reads ('{' :: (joined (entries.map member) ++ ['}'])) (.obj fields) where
  opens := ⟨'{',_,rfl,rfl,by decide⟩
  reads n enough rest _ := by
    have shorter : (joined (entries.map member)).length < n := by
      simp only [List.length_append,List.length_cons] at enough
      omega
    have read := bracketed_joined (.inr rfl) (members_of_reads items shorter) rest
    have kept : fields.foldl assign [] = [] ++ fields := foldl_fresh (fun _ _ absent => if_neg absent) distinct
    rw [List.cons_append,List.append_assoc,value_brace,List.cons_append,List.nil_append,read]
    simp [kept]

end Reads

end JsValue

end RatifyOs.Data
