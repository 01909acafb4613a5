import Mathlib.Data.Rat.Defs
import RatifyOs.Data.Result
import RatifyOs.Data.Words

/-! How `SqliteEventBus` writes an envelope into the outbox and reads it back: a bigint
becomes an object with the one key `$bigint`. -/
namespace RatifyOs.Autonomy.Encoding
open Data Data.Result

/-- What a payload is built from: JSON values and bigints. A number is finite. -/
inductive Value where
  | null
  | bool (value : Bool)
  | num (value : ℚ)
  | big (value : ℤ)
  | str (value : String)
  | arr (items : List Value)
  | obj (fields : List (String × Value))

/-- What a JSON text says. -/
inductive Document where
  | null
  | bool (value : Bool)
  | num (value : ℚ)
  | str (value : String)
  | arr (items : List Document)
  | obj (fields : List (String × Document))

def tag : String := "$bigint"

mutual

/-- `JSON.stringify(v, encode)`; only a bigint is replaced. -/
def stringify : Value → Document
  | .null => .null
  | .bool b => .bool b
  | .num q => .num q
  | .big n => .obj [(tag,.str (toString n))]
  | .str s => .str s
  | .arr items => .arr (stringifyItems items)
  | .obj fields => .obj (stringifyFields fields)

def stringifyItems : List Value → List Document
  | [] => []
  | v :: items => stringify v :: stringifyItems items

def stringifyFields : List (String × Value) → List (String × Document)
  | [] => []
  | (key,v) :: fields => (key,stringify v) :: stringifyFields fields

end

section BigInt

def decimal (digits : Text) : Option ℕ :=
  if digits ≠ [] ∧ digits.all Char.isDigit then some (Nat.ofDigitChars 10 digits 0) else none

/-- The value of a digit in any base up to sixteen. -/
def digitValue (c : Char) : Option ℕ :=
  if c.isDigit then some (c.toNat - 48)
  else if 97 ≤ c.toNat ∧ c.toNat ≤ 102 then some (c.toNat - 87)
  else if 65 ≤ c.toNat ∧ c.toNat ≤ 70 then some (c.toNat - 55)
  else none

def inBase (base : ℕ) (digits : Text) : Option ℕ :=
  if digits = [] then none
  else digits.foldl (fun n c => do
    let n ← n
    let d ← digitValue c
    if d < base then some (n * base + d) else none) (some 0)

/-- The base that a text names with its first two characters. -/
def baseOf (c : Char) : Option ℕ :=
  if c = 'x' ∨ c = 'X' then some 16
  else if c = 'o' ∨ c = 'O' then some 8
  else if c = 'b' ∨ c = 'B' then some 2
  else none

/-- A number without a sign, in the base its first characters name, or in ten. -/
def unsigned (text : Text) : Option ℕ :=
  match text with
  | zero :: c :: digits =>
    match (baseOf c).filter fun _ => zero = '0' with
    | some base => inBase base digits
    | none => decimal text
  | _ => decimal text

/-- `BigInt` of a string -/
def bigInt (s : String) : Except String ℤ :=
  let read : Option ℤ := match Text.trim s.toList with
    | [] => some 0
    | c :: rest =>
      if c = '+' then (decimal rest).map Int.ofNat
      else if c = '-' then (decimal rest).map fun n => -Int.ofNat n
      else (unsigned (c :: rest)).map Int.ofNat
  required read ("Cannot convert " ++ s ++ " to a BigInt")

private theorem digits_plain (n : ℕ) : ∀ c ∈ Nat.toDigits 10 n, c.isDigit ∧ white c = false := by
  intro c inside
  have digit : c.isDigit = true := Nat.isDigit_of_mem_toDigits (by decide) (by decide) inside
  refine ⟨digit,?_⟩
  simp only [Char.isDigit,Bool.and_eq_true,decide_eq_true_eq] at digit
  have low : 48 ≤ c.toNat := digit.1
  have high : c.toNat ≤ 57 := digit.2
  simp only [white,List.mem_cons,List.not_mem_nil,or_false,decide_eq_false_iff_not]
  omega

private theorem decimal_digits (n : ℕ) : decimal (Nat.toDigits 10 n) = some n := by
  have all : (Nat.toDigits 10 n).all Char.isDigit := List.all_eq_true.mpr fun c inside => (digits_plain n c inside).1
  rw [decimal,if_pos ⟨Nat.toDigits_ne_nil,all⟩,Nat.ofDigitChars_ten_toDigits]

private theorem baseOf_digit {c : Char} (digit : c.isDigit) : baseOf c = none := by
  have other : ∀ d : Char, d.isDigit = false → c ≠ d := by
    rintro d letter rfl
    simp [digit] at letter
  simp [baseOf,other 'x' rfl,other 'X' rfl,other 'o' rfl,other 'O' rfl,other 'b' rfl,other 'B' rfl]

private theorem unsigned_digits (n : ℕ) : unsigned (Nat.toDigits 10 n) = some n := by
  have read := decimal_digits n
  cases text : Nat.toDigits 10 n with
  | nil => exact absurd text Nat.toDigits_ne_nil
  | cons zero rest =>
    rw [text] at read
    cases rest with
    | nil => exact read
    | cons c digits =>
      have digit : c.isDigit := (digits_plain n c (by simp [text])).1
      simp only [unsigned,baseOf_digit digit]
      exact read

/-- A bigint that is written is read as itself. -/
theorem bigInt_toString (n : ℤ) : bigInt (toString n) = .ok n := by
  cases n with
  | ofNat m =>
    have written : (toString (Int.ofNat m)).toList = Nat.toDigits 10 m := Nat.toList_repr
    have read := unsigned_digits m
    unfold bigInt
    rw [written,Text.trim_of_plain fun c inside => (digits_plain m c inside).2]
    cases text : Nat.toDigits 10 m with
    | nil => exact absurd text Nat.toDigits_ne_nil
    | cons d rest =>
      have digit : d.isDigit := (digits_plain m d (by simp [text])).1
      have unsigned_ : d ≠ '+' ∧ d ≠ '-' := by
        constructor
        all_goals
          rintro rfl
          cases digit
      rw [text] at read
      simp only [unsigned_.1,unsigned_.2,if_false,read]
      rfl
  | negSucc m =>
    have written : (toString (Int.negSucc m)).toList = '-' :: Nat.toDigits 10 (m + 1) := by
      change ("-" ++ Nat.repr (m + 1)).toList = _
      simp
    have plain : ∀ c ∈ '-' :: Nat.toDigits 10 (m + 1), white c = false := by
      simp only [List.forall_mem_cons]
      exact ⟨by decide,fun c inside => (digits_plain (m + 1) c inside).2⟩
    unfold bigInt
    rw [written,Text.trim_of_plain plain]
    simp only [decimal_digits]
    rfl

end BigInt

/-- `decode`, on a value whose own parts are decoded -/
def decode : Value → Except String Value
  | .obj [(key,.str s)] => if key = tag then (bigInt s).map .big else return .obj [(key,.str s)]
  | v => return v

mutual

/-- `JSON.parse(text, decode)` -/
def revive : Document → Except String Value
  | .null => decode .null
  | .bool b => decode (.bool b)
  | .num q => decode (.num q)
  | .str s => decode (.str s)
  | .arr items => do
    let items ← reviveItems items
    decode (.arr items)
  | .obj fields => do
    let fields ← reviveFields fields
    decode (.obj fields)

def reviveItems : List Document → Except String (List Value)
  | [] => return []
  | v :: items => do
    let v ← revive v
    let items ← reviveItems items
    return v :: items

def reviveFields : List (String × Document) → Except String (List (String × Value))
  | [] => return []
  | (key,v) :: fields => do
    let v ← revive v
    let fields ← reviveFields fields
    return (key,v) :: fields

end

/-- The fields of an object that reads like a bigint. -/
def looksBig : List (String × Value) → Bool
  | [(key,.str _)] => key = tag
  | _ => false

mutual

/-- There is an object that reads like a bigint. -/
def Tagged : Value → Bool
  | .arr items => TaggedItems items
  | .obj fields => looksBig fields || TaggedFields fields
  | _ => false

def TaggedItems : List Value → Bool
  | [] => false
  | v :: items => Tagged v || TaggedItems items

def TaggedFields : List (String × Value) → Bool
  | [] => false
  | (_,v) :: fields => Tagged v || TaggedFields fields

end

theorem decode_eq_obj {v : Value} {fields : List (String × Value)} :
    decode v = .ok (.obj fields) ↔ v = .obj fields ∧ looksBig fields = false := by
  unfold decode
  split
  · rename_i key s
    split_ifs with tagged
    · constructor
      · intro big
        cases read : bigInt s <;> simp [read,Except.map] at big
      · rintro ⟨same,plain⟩
        cases same
        simp [looksBig,tagged] at plain
    · constructor
      · intro same
        cases same
        exact ⟨rfl,by simpa [looksBig] using tagged⟩
      · rintro ⟨same,-⟩
        cases same
        rfl
  · rename_i other
    constructor
    · intro same
      cases same
      refine ⟨rfl,?_⟩
      unfold looksBig
      split
      · exact absurd rfl (other _ _)
      · rfl
    · rintro ⟨rfl,-⟩
      rfl

mutual

/-- A value is read as itself exactly where nothing in it reads like a bigint. -/
theorem revive_stringify : ∀ v, revive (stringify v) = .ok v ↔ Tagged v = false
  | .null => by simp [stringify,revive,decode,Tagged,pure,Except.pure]
  | .bool _ => by simp [stringify,revive,decode,Tagged,pure,Except.pure]
  | .num _ => by simp [stringify,revive,decode,Tagged,pure,Except.pure]
  | .str _ => by simp [stringify,revive,decode,Tagged,pure,Except.pure]
  | .big n => by
    simp only [stringify,revive,reviveFields,bind,Except.bind,pure,Except.pure,decode,Except.map,if_true,
      bigInt_toString,Tagged]
  | .arr items => by
    simp only [stringify,revive,bind_eq_ok,Tagged,← reviveItems_stringify items]
    simp [decode,pure,Except.pure]
  | .obj fields => by
    simp only [stringify,revive,bind_eq_ok,Tagged,Bool.or_eq_false_iff,← reviveFields_stringify fields,decode_eq_obj,
      Value.obj.injEq]
    constructor
    · rintro ⟨_,read,rfl,plain⟩
      exact ⟨plain,read⟩
    · rintro ⟨plain,read⟩
      exact ⟨fields,read,rfl,plain⟩

private theorem reviveItems_stringify : ∀ items, reviveItems (stringifyItems items) = .ok items ↔ TaggedItems items = false
  | [] => by simp [stringifyItems,reviveItems,TaggedItems]
  | v :: items => by
    simp only [stringifyItems,reviveItems,bind_eq_ok,pure_eq_ok,TaggedItems,Bool.or_eq_false_iff,
      ← revive_stringify v,← reviveItems_stringify items]
    simp

private theorem reviveFields_stringify : ∀ fields,
    reviveFields (stringifyFields fields) = .ok fields ↔ TaggedFields fields = false
  | [] => by simp [stringifyFields,reviveFields,TaggedFields]
  | (key,v) :: fields => by
    simp only [stringifyFields,reviveFields,bind_eq_ok,pure_eq_ok,TaggedFields,Bool.or_eq_false_iff,
      ← revive_stringify v,← reviveFields_stringify fields]
    simp

end

section Envelope

structure ChainPosition where
  number : ℤ
  hash : String
  parentHash : String
  finality : String

/-- `rest` is what stands beside the two named fields. -/
structure Provenance where
  provider : String
  observedAt : String
  rest : List (String × Value)

structure EventEnvelope where
  id : String
  type : String
  version : ℕ
  source : String
  correlationId : String
  causationId : Option String
  occurredAt : String
  block : Option ChainPosition
  provenance : Option Provenance
  payload : Value

def ChainPosition.value (p : ChainPosition) : Value :=
  .obj [("number",.big p.number),("hash",.str p.hash),("parentHash",.str p.parentHash),("finality",.str p.finality)]

def Provenance.value (p : Provenance) : Value :=
  .obj (("provider",.str p.provider) :: ("observedAt",.str p.observedAt) :: p.rest)

/-- The fields of an envelope, as `createEnvelope` puts them; what is absent is left out. -/
def EventEnvelope.value (e : EventEnvelope) : Value :=
  .obj ([("id",.str e.id),("type",.str e.type),("version",.num e.version),("source",.str e.source),
    ("correlationId",.str e.correlationId),("occurredAt",.str e.occurredAt),("payload",e.payload)] ++
    (e.causationId.map fun id => ("causationId",.str id)).toList ++
    (e.block.map fun block => ("block",block.value)).toList ++
    (e.provenance.map fun provenance => ("provenance",provenance.value)).toList)

theorem taggedFields_append (fields more : List (String × Value)) :
    TaggedFields (fields ++ more) = (TaggedFields fields || TaggedFields more) := by
  induction fields with
  | nil => rfl
  | cons field fields ih =>
    obtain ⟨key,v⟩ := field
    simp [TaggedFields,ih,Bool.or_assoc]

/-- Only the payload and the provenance of an envelope can hold what reads like a bigint. -/
theorem tagged_value (e : EventEnvelope) :
    Tagged e.value = (Tagged e.payload || (e.provenance.map fun p => TaggedFields p.rest).getD false) := by
  have other (key : String) (v : Value) (w : Value) (rest : List (String × Value)) (key' : String) :
      looksBig ((key,v) :: (key',w) :: rest) = false := by cases v <;> rfl
  unfold EventEnvelope.value
  simp only [List.cons_append,List.nil_append,Tagged,other,Bool.false_or,TaggedFields,taggedFields_append]
  cases e.causationId <;> cases e.block <;> cases e.provenance <;>
    simp [TaggedFields,Tagged,ChainPosition.value,Provenance.value,other]

end Envelope

section Outbox

/-- A row of `outbox`. The text of an envelope is known by what it says, and absent where it
is no JSON text. -/
structure OutboxRow where
  cursor : ℕ
  eventId : String
  type : String
  envelope : Option Document

/-- `seq` is the last value that AUTOINCREMENT gave out. -/
structure Outbox where
  rows : List OutboxRow
  seq : ℕ
  ordered : rows.Pairwise fun r r' => r.cursor < r'.cursor
  given : ∀ r ∈ rows, 0 < r.cursor ∧ r.cursor ≤ seq

/-- What `replay` gives for a row, and `publish` for an event. -/
structure StoredEvent where
  cursor : ℕ
  envelope : Value

namespace Outbox

/-- `INSERT`, with the next cursor -/
def insert (b : Outbox) (eventId type : String) (envelope : Document) : Outbox :=
  { rows := b.rows ++ [⟨b.seq + 1,eventId,type,some envelope⟩]
    seq := b.seq + 1
    ordered := by
      rw [List.pairwise_append]
      refine ⟨b.ordered,List.pairwise_singleton _ _,fun r inside r' last => ?_⟩
      rw [List.mem_singleton.mp last]
      exact Nat.lt_succ_of_le (b.given r inside).2
    given := by
      simp only [List.forall_mem_append,List.forall_mem_singleton]
      exact ⟨fun r inside => ⟨(b.given r inside).1,Nat.le_succ_of_le (b.given r inside).2⟩,Nat.succ_pos _,Nat.le_refl _⟩ }

/-- `publish` without a schema, up to its first await: an event whose id is there already
keeps its row. -/
def publish (b : Outbox) (e : EventEnvelope) : StoredEvent × Outbox :=
  match b.rows.find? fun r => r.eventId = e.id with
  | some r => (⟨r.cursor,e.value⟩,b)
  | none => (⟨b.seq + 1,e.value⟩,b.insert e.id e.type (stringify e.value))

/-- A row that is no JSON text, or whose bigints are none, is left out. -/
def parsed (r : OutboxRow) : Option StoredEvent := do
  let document ← r.envelope
  let v ← (revive document).toOption
  return ⟨r.cursor,v⟩

/-- `replay` without a schema or a filter -/
def replay (b : Outbox) (cursor : ℕ) (limit : ℤ) : List StoredEvent :=
  ((b.rows.filter fun r => cursor < r.cursor).take (max 1 (min limit 1000)).toNat).filterMap parsed

/-- No other text is stored under the id of the event. -/
def Holds (b : Outbox) (e : EventEnvelope) : Prop :=
  ∀ r ∈ b.rows, r.eventId = e.id → r.envelope = some (stringify e.value)

theorem parsed_eq_some {r : OutboxRow} {x : StoredEvent} :
    parsed r = some x ↔ ∃ document, r.envelope = some document ∧ x.cursor = r.cursor ∧ revive document = .ok x.envelope := by
  obtain ⟨cursor,v⟩ := x
  unfold parsed
  cases r.envelope with
  | none => simp
  | some document =>
    cases read : revive document <;> simp [read,Except.toOption,eq_comm]

/-- The first row after the cursor before it is the row itself. -/
theorem mem_replay_iff {b : Outbox} {r : OutboxRow} (inside : r ∈ b.rows) (limit : ℤ) (v : Value) :
    (⟨r.cursor,v⟩ : StoredEvent) ∈ b.replay (r.cursor - 1) limit ↔ parsed r = some ⟨r.cursor,v⟩ := by
  have positive := (b.given r inside).1
  obtain ⟨before,after,split⟩ := List.append_of_mem inside
  have ordered := b.ordered
  rw [split,List.pairwise_append,List.pairwise_cons] at ordered
  obtain ⟨-,⟨later,-⟩,earlier⟩ := ordered
  have listed : b.rows.filter (fun r' => r.cursor - 1 < r'.cursor) = r :: after := by
    rw [split,List.filter_append,List.filter_eq_nil_iff.mpr,List.nil_append,List.filter_eq_self.mpr]
    · intro r' there
      simp only [decide_eq_true_eq]
      rcases List.mem_cons.mp there with rfl | there
      · omega
      · have := later r' there
        omega
    · intro r' there
      have := earlier r' there r List.mem_cons_self
      simp only [decide_eq_true_eq]
      omega
  obtain ⟨n,enough⟩ : ∃ n, (max 1 (min limit 1000)).toNat = n + 1 := ⟨(max 1 (min limit 1000)).toNat - 1,by omega⟩
  unfold replay
  rw [listed,enough,List.take_succ_cons,List.mem_filterMap]
  constructor
  · rintro ⟨r',there,same⟩
    rcases List.mem_cons.mp there with rfl | there
    · exact same
    · obtain ⟨_,-,cursor,-⟩ := parsed_eq_some.mp same
      have := later r' (List.mem_of_mem_take there)
      dsimp only at cursor
      omega
  · exact fun same => ⟨r,List.mem_cons_self,same⟩

end Outbox

open Outbox

theorem publish_replay_iff {b : Outbox} {e : EventEnvelope} (limit : ℤ) (holds : b.Holds e) :
    (b.publish e).1 ∈ (b.publish e).2.replay ((b.publish e).1.cursor - 1) limit ↔ Tagged e.value = false := by
  have reads {r : OutboxRow} (written : r.envelope = some (stringify e.value)) :
      parsed r = some ⟨r.cursor,e.value⟩ ↔ Tagged e.value = false := by
    rw [parsed_eq_some,← revive_stringify e.value]
    simp [written]
  unfold publish
  split
  · rename_i r found
    have inside := List.mem_of_find?_eq_some found
    have id : r.eventId = e.id := by simpa using List.find?_some found
    exact (mem_replay_iff inside limit e.value).trans (reads (holds r inside id))
  · have inside : (⟨b.seq + 1,e.id,e.type,some (stringify e.value)⟩ : OutboxRow) ∈
        (b.insert e.id e.type (stringify e.value)).rows := by simp [Outbox.insert]
    exact (mem_replay_iff inside limit e.value).trans (reads rfl)

theorem round_trip_iff (b : Outbox) (e : EventEnvelope) (limit : ℤ) (holds : b.Holds e) :
    (b.publish e).1 ∈ (b.publish e).2.replay ((b.publish e).1.cursor - 1) limit ↔
      Tagged e.payload = false ∧ ∀ p ∈ e.provenance, TaggedFields p.rest = false := by
  rw [publish_replay_iff limit holds,tagged_value,Bool.or_eq_false_iff]
  cases e.provenance <;> simp

end Outbox

namespace Sample

def outbox : Outbox := ⟨[],0,.nil,by simp⟩

def envelope (payload : Value) : EventEnvelope :=
  { id := "e", type := "market.price", version := 1, source := "test", correlationId := "e", causationId := none
    occurredAt := "", block := none, provenance := none, payload }

theorem round_trip_bigint : (outbox.publish (envelope (.big 5))).1 ∈
    (outbox.publish (envelope (.big 5))).2.replay 0 100 :=
  (round_trip_iff outbox (envelope (.big 5)) 100 (by simp [Outbox.Holds,outbox])).mpr ⟨rfl,by simp [envelope]⟩

/-- A payload that only looks like a bigint comes back as one. -/
theorem round_trip_lost : ¬∀ (b : Outbox) (e : EventEnvelope) (limit : ℤ), b.Holds e →
    (b.publish e).1 ∈ (b.publish e).2.replay ((b.publish e).1.cursor - 1) limit := by
  intro all
  have fresh : outbox.Holds (envelope (.obj [(tag,.str "5")])) := by simp [Outbox.Holds,outbox]
  have plain := (publish_replay_iff 100 fresh).mp (all outbox _ 100 fresh)
  cases plain

end Sample

end RatifyOs.Autonomy.Encoding
