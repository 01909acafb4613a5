import Mathlib.Data.Fintype.EquivFin
import Mathlib.Logic.Relation
import RatifyOs.Data.JsValue
import RatifyOs.Data.Through

/-! What `SecureEventLogger` passes on of an event: values cut short, secrets replaced. -/
namespace RatifyOs.Observability.SecureEventLogger
open Data Data.Through

section Secrets

/-- `first`, or `first.?second` -/
structure SecretWord where
  first : String
  second : Option String

def secretWords : List SecretWord :=
  [⟨"secret",none⟩,⟨"password",none⟩,⟨"token",none⟩,⟨"authorization",none⟩,⟨"api",some "key"⟩,⟨"private",some "key"⟩,
    ⟨"seed",none⟩,⟨"mnemonic",none⟩,⟨"signed",some "transaction"⟩,⟨"raw",some "tx"⟩]

def fold (u : Fin 65536) : Fin 65536 := if 65 ≤ u.val ∧ u.val ≤ 90 then Fin.ofNat 65536 (u.val + 32) else u

/-- What follows a word that a text starts with, in any case. -/
def following (word : String) (text : Utf16) : Option Utf16 :=
  let units := Utf16.ofString word
  if (text.take units.length).map fold = units then some (text.drop units.length) else none

def lineTerminator (u : Fin 65536) : Bool := u.val = 10 ∨ u.val = 13 ∨ u.val = 0x2028 ∨ u.val = 0x2029

def SecretWord.starts (w : SecretWord) (text : Utf16) : Bool :=
  match following w.first text,w.second with
  | none, _ => false
  | some _, none => true
  | some rest, some second =>
    (following second rest).isSome || match rest with
      | u :: rest => !lineTerminator u && (following second rest).isSome
      | [] => false

/-- `secret.test(key)` -/
def secret (key : Utf16) : Bool := key.tails.any fun text => secretWords.any (·.starts text)

example : secret (.ofString "clientApiKey") = true := by decide +kernel
example : secret (.ofString "apikkey") = true := by decide +kernel
example : secret (.ofString "api__key") = false := by decide +kernel

end Secrets

section Values
variable {ρ : Type}

/-- A value; an array or another object is where its reference leads. -/
inductive Value (ρ : Type) where
  | str (value : Utf16)
  | bigint (value : ℤ)
  | num (value : Double)
  | bool (value : Bool)
  | null
  /-- `undefined`, a symbol or a function, with what `String` makes of it. -/
  | other (text : Utf16)
  | ref (r : ρ)

inductive Node (ρ : Type) where
  | array (items : List (Value ρ))
  | object (entries : List (Utf16 × Value ρ))

def Node.IsObject : Node ρ → Prop
  | .array _ => False
  | .object _ => True

/-- `Object.entries` -/
def Node.entries : Node ρ → List (Utf16 × Value ρ)
  | .array items => items.zipIdx.map fun (v,i) => (.ofString (toString i),v)
  | .object entries => entries

/-- Where `slice(0,stop)` ends. -/
def sliceEnd (stop : Double) (length : ℕ) : ℕ :=
  match stop with
  | .finite q =>
    let k := if 0 ≤ q then ⌊q⌋ else ⌈q⌉
    if k < 0 then (length + k).toNat else min k.toNat length
  | .infinite negative => if negative then 0 else length
  | .nan => 0

def slice {α : Type} (stop : Double) (l : List α) : List α := l.take (sliceEnd stop l.length)

/-- `String(v)` of a number that is not finite. -/
def numberText : Double → String
  | .infinite true => "-Infinity"
  | .infinite false => "Infinity"
  | _ => "NaN"

variable [DecidableEq ρ] (heap : ρ → Node ρ) (max : Double)

/-- `clean`, with what it does to the values inside. -/
def cleanWith (inner : Utf16 → Value ρ → List ρ → Option (JsValue × List ρ)) (key : Utf16) (v : Value ρ) (seen : List ρ) :
    Option (JsValue × List ρ) :=
  if secret key then some (.str (.ofString "[REDACTED]"),seen)
  else match v with
    | .str value => some (.str (slice max value),seen)
    | .bigint value => some (.str (.ofString (toString value)),seen)
    | .num value => some (if value.isFinite then .num value else .str (.ofString (numberText value)),seen)
    | .bool value => some (.bool value,seen)
    | .null => some (.null,seen)
    | .other text => some (.str text,seen)
    | .ref r =>
      match heap r with
      | .array items => do
        let (out,seen) ← through (inner []) (items.take 20) seen
        return (.arr out,seen)
      | .object entries =>
        if r ∈ seen then some (.str (.ofString "[CIRCULAR]"),seen)
        else do
          let (out,seen) ← through (fun (k,x) seen => do
            let (out,seen) ← inner k x seen
            return ((k,out),seen)) (entries.take 50) (r :: seen)
          return (.obj out,seen)

/-- With the objects seen so far; nothing when the stack is used up. -/
def clean : ℕ → Utf16 → Value ρ → List ρ → Option (JsValue × List ρ)
  | 0, _, _, _ => none
  | fuel + 1, key, v, seen => cleanWith heap max (clean fuel) key v seen

/-- `clean` with nothing seen. -/
def cleaned (fuel : ℕ) (key : Utf16) (v : Value ρ) : Option JsValue := (clean heap max fuel key v []).map Prod.fst

end Values

structure Options where
  maxFields : Option Double := none
  maxValueLength : Option Double := none

structure Event (ρ : Type) where
  heap : ρ → Node ρ
  name : Utf16
  correlation : Value ρ
  attributes : ρ

/-- What the sink is given. -/
structure ObservabilityEvent where
  name : Utf16
  timestamp : Double
  correlation : JsValue
  attributes : List (Utf16 × JsValue)

def Event.entries {ρ : Type} (e : Event ρ) : List (Utf16 × Value ρ) := (e.heap e.attributes).entries

/-- An attribute, as it is passed on. -/
def emitted {ρ : Type} [DecidableEq ρ] (fuel : ℕ) (options : Options) (heap : ρ → Node ρ) (a : Utf16 × Value ρ) :
    Option (Utf16 × JsValue) := do
  let out ← cleaned heap (options.maxValueLength.getD 1024) fuel a.1 a.2
  return (a.1,out)

def emit {ρ : Type} [DecidableEq ρ] (fuel : ℕ) (options : Options) (now : Double) (e : Event ρ) : Option ObservabilityEvent := do
  let entries := slice (options.maxFields.getD 32) e.entries
  let correlation ← cleaned e.heap 128 fuel [] e.correlation
  let attributes ← entries.mapM (emitted fuel options e.heap)
  return ⟨e.name.take 128,now,correlation,attributes⟩

section Alike
variable {ρ ρ' : Type} (R : ρ → ρ' → Prop)

/-- One value, or references that correspond. -/
inductive ValueAlike : Value ρ → Value ρ' → Prop where
  | str (value : Utf16) : ValueAlike (.str value) (.str value)
  | bigint (value : ℤ) : ValueAlike (.bigint value) (.bigint value)
  | num (value : Double) : ValueAlike (.num value) (.num value)
  | bool (value : Bool) : ValueAlike (.bool value) (.bool value)
  | null : ValueAlike .null .null
  | other (text : Utf16) : ValueAlike (.other text) (.other text)
  | ref {r : ρ} {r' : ρ'} (same : R r r') : ValueAlike (.ref r) (.ref r')

/-- One key, and alike values under it unless it is a secret's. -/
def EntryAlike (a : Utf16 × Value ρ) (b : Utf16 × Value ρ') : Prop :=
  a.1 = b.1 ∧ (secret a.1 = true ∨ ValueAlike R a.2 b.2)

inductive NodeAlike : Node ρ → Node ρ' → Prop where
  | array {items : List (Value ρ)} {items' : List (Value ρ')} (each : List.Forall₂ (ValueAlike R) items items') :
    NodeAlike (.array items) (.array items')
  | object {entries : List (Utf16 × Value ρ)} {entries' : List (Utf16 × Value ρ')}
    (each : List.Forall₂ (EntryAlike R) entries entries') : NodeAlike (.object entries) (.object entries')

/-- What corresponds is equal but for the values of secrets. -/
def Equal (heap : ρ → Node ρ) (heap' : ρ' → Node ρ') : Prop := ∀ r r', R r r' → NodeAlike R (heap r) (heap' r')

/-- An object on one side corresponds to one object on the other. -/
def Shared (heap : ρ → Node ρ) : Prop :=
  ∀ r r' q q', R r r' → R q q' → (heap r).IsObject → (heap q).IsObject → (r = q ↔ r' = q')

/-- Values that are equal but for secrets, by a correspondence of which more may be asked. -/
def Agree (P : (ρ → ρ' → Prop) → Prop) (heap : ρ → Node ρ) (heap' : ρ' → Node ρ') (v : Value ρ) (v' : Value ρ') : Prop :=
  ∃ R, P R ∧ Equal R heap heap' ∧ ValueAlike R v v'

/-- Events that are equal but for secrets. -/
structure EqualBut (P : (ρ → ρ' → Prop) → Prop) (e : Event ρ) (e' : Event ρ') : Prop where
  name : e.name = e'.name
  correlation : Agree P e.heap e'.heap e.correlation e'.correlation
  attributes : List.Forall₂ (fun a b => a.1 = b.1 ∧ (secret a.1 = true ∨ Agree P e.heap e'.heap a.2 b.2)) e.entries e'.entries

end Alike

section Noninterference
variable {ρ ρ' : Type} {heap : ρ → Node ρ} {heap' : ρ' → Node ρ'} {R : ρ → ρ' → Prop}

/-- Of objects that correspond, both have been seen or neither. -/
def Matched (heap : ρ → Node ρ) (R : ρ → ρ' → Prop) (seen : List ρ) (seen' : List ρ') : Prop :=
  ∀ r r', R r r' → (heap r).IsObject → (r ∈ seen ↔ r' ∈ seen')

theorem Matched.cons (shared : Shared R heap) {seen : List ρ} {seen' : List ρ'} (matched : Matched heap R seen seen') {r : ρ} {r' : ρ'}
    (same : R r r') (object : (heap r).IsObject) : Matched heap R (r :: seen) (r' :: seen') := by
  intro q q' same' object'
  rw [List.mem_cons,List.mem_cons,matched q q' same' object',shared q q' r r' same' same object' object]

theorem ValueAlike.entry {v : Value ρ} {v' : Value ρ'} (alike : ValueAlike R v v') (key : Utf16) : EntryAlike R (key,v) (key,v') :=
  ⟨rfl,.inr alike⟩

variable [DecidableEq ρ] [DecidableEq ρ']

theorem cleanWith_alike (equal : Equal R heap heap') (shared : Shared R heap) (max : Double)
    {inner : Utf16 → Value ρ → List ρ → Option (JsValue × List ρ)} {inner' : Utf16 → Value ρ' → List ρ' → Option (JsValue × List ρ')}
    (each : ∀ key v v', EntryAlike R (key,v) (key,v') → ∀ seen seen', Matched heap R seen seen' →
      Alike (Matched heap R) (inner key v seen) (inner' key v' seen'))
    {key : Utf16} {v : Value ρ} {v' : Value ρ'} (alike : EntryAlike R (key,v) (key,v')) {seen : List ρ} {seen' : List ρ'}
    (matched : Matched heap R seen seen') :
    Alike (Matched heap R) (cleanWith heap max inner key v seen) (cleanWith heap' max inner' key v' seen') := by
  unfold cleanWith
  by_cases hidden : secret key = true
  · rw [if_pos hidden,if_pos hidden]
    exact .some ⟨rfl,matched⟩
  · rw [if_neg hidden,if_neg hidden]
    cases alike.2.resolve_left hidden with
    | str => exact .some ⟨rfl,matched⟩
    | bigint => exact .some ⟨rfl,matched⟩
    | num => exact .some ⟨rfl,matched⟩
    | bool => exact .some ⟨rfl,matched⟩
    | null => exact .some ⟨rfl,matched⟩
    | other => exact .some ⟨rfl,matched⟩
    | @ref r r' same =>
      dsimp only
      have nodes := equal r r' same
      generalize kind : heap r = node, kind' : heap' r' = node' at nodes
      cases nodes with
      | @array items items' values =>
        have first : List.Forall₂ (fun x x' => ∀ seen seen', Matched heap R seen seen' →
            Alike (Matched heap R) (inner [] x seen) (inner' [] x' seen')) (items.take 20) (items'.take 20) :=
          (List.forall₂_take 20 values).imp fun x x' value => each [] x x' (value.entry [])
        exact (through_alike first matched).bind fun out seen seen' matched => .some ⟨rfl,matched⟩
      | @object entries entries' fields =>
        have object : (heap r).IsObject := kind ▸ trivial
        dsimp only
        by_cases known : r ∈ seen
        · rw [if_pos known,if_pos ((matched r r' same object).mp known)]
          exact .some ⟨rfl,matched⟩
        · rw [if_neg known,if_neg fun there => known ((matched r r' same object).mpr there)]
          refine (through_alike ((List.forall₂_take 50 fields).imp ?_) (matched.cons shared same object)).bind
            fun out seen seen' matched => .some ⟨rfl,matched⟩
          rintro ⟨k,x⟩ ⟨k',x'⟩ ⟨rfl,value⟩ seen seen' matched
          exact (each k x x' ⟨rfl,value⟩ seen seen' matched).bind fun out seen seen' matched => .some ⟨rfl,matched⟩

theorem clean_alike (equal : Equal R heap heap') (shared : Shared R heap) (max : Double) (fuel : ℕ) (key : Utf16) (v : Value ρ)
    (v' : Value ρ') (alike : EntryAlike R (key,v) (key,v')) (seen : List ρ) (seen' : List ρ') (matched : Matched heap R seen seen') :
    Alike (Matched heap R) (clean heap max fuel key v seen) (clean heap' max fuel key v' seen') := by
  induction fuel generalizing key v v' seen seen' with
  | zero => exact .none
  | succ fuel ih => exact cleanWith_alike equal shared max ih alike matched

end Noninterference

section Termination
variable {ρ : Type} {heap : ρ → Node ρ} {max : Double}

/-- An array right inside another, where `clean` comes upon it. -/
def Nested (heap : ρ → Node ρ) (a b : ρ) : Prop :=
  ∃ items, heap a = .array items ∧ .ref b ∈ items.take 20 ∧ ¬(heap b).IsObject

variable [DecidableEq ρ]

/-- Enough fuel, with which no object that has been seen is forgotten. -/
def Ends (heap : ρ → Node ρ) (max : Double) (key : Utf16) (v : Value ρ) (seen : List ρ) : Prop :=
  ∃ fuel out after, clean heap max fuel key v seen = some (out,after) ∧ seen ⊆ after

theorem cleanWith_mono {inner inner' : Utf16 → Value ρ → List ρ → Option (JsValue × List ρ)}
    (more : ∀ key v seen x, inner key v seen = some x → inner' key v seen = some x) {key : Utf16} {v : Value ρ} {seen : List ρ}
    {x : JsValue × List ρ} (done : cleanWith heap max inner key v seen = some x) :
    cleanWith heap max inner' key v seen = some x := by
  unfold cleanWith at done ⊢
  by_cases hidden : secret key = true
  · rwa [if_pos hidden] at done ⊢
  · rw [if_neg hidden] at done ⊢
    cases v with
    | ref r =>
      dsimp only at done ⊢
      cases kind : heap r with
      | array items =>
        rw [kind] at done
        obtain ⟨y,first,last⟩ := Option.bind_eq_some_iff.mp done
        exact Option.bind_eq_some_iff.mpr ⟨y,through_mono (fun a _ => more [] a) first,last⟩
      | object entries =>
        rw [kind] at done
        dsimp only at done ⊢
        split_ifs at done ⊢ with known
        · exact done
        · obtain ⟨y,first,last⟩ := Option.bind_eq_some_iff.mp done
          refine Option.bind_eq_some_iff.mpr ⟨y,through_mono (fun entry _ seen z one => ?_) first,last⟩
          obtain ⟨w,value,named⟩ := Option.bind_eq_some_iff.mp one
          exact Option.bind_eq_some_iff.mpr ⟨w,more _ _ _ _ value,named⟩
    | str => exact done
    | bigint => exact done
    | num => exact done
    | bool => exact done
    | null => exact done
    | other => exact done

theorem clean_mono {m n : ℕ} (le : m ≤ n) (key : Utf16) (v : Value ρ) (seen : List ρ) (x : JsValue × List ρ)
    (done : clean heap max m key v seen = some x) : clean heap max n key v seen = some x := by
  induction m generalizing n key v seen x with
  | zero => cases done
  | succ m ih =>
    obtain ⟨n,rfl⟩ := Nat.exists_eq_add_of_lt le
    exact cleanWith_mono (fun key v seen x => ih (Nat.le_add_right m n) key v seen x) done

theorem ends_leaf {key : Utf16} {v : Value ρ} {seen : List ρ} (leaf : secret key = true ∨ ∀ r, v ≠ .ref r) : Ends heap max key v seen := by
  refine ⟨1,?_⟩
  rw [clean]
  unfold cleanWith
  by_cases hidden : secret key = true
  · rw [if_pos hidden]
    exact ⟨_,_,rfl,List.Subset.refl _⟩
  · rw [if_neg hidden]
    cases v with
    | ref r => exact absurd rfl (leaf.resolve_left hidden r)
    | str => exact ⟨_,_,rfl,List.Subset.refl _⟩
    | bigint => exact ⟨_,_,rfl,List.Subset.refl _⟩
    | num => exact ⟨_,_,rfl,List.Subset.refl _⟩
    | bool => exact ⟨_,_,rfl,List.Subset.refl _⟩
    | null => exact ⟨_,_,rfl,List.Subset.refl _⟩
    | other => exact ⟨_,_,rfl,List.Subset.refl _⟩

theorem ends_array {key : Utf16} {r : ρ} {seen : List ρ} {items : List (Value ρ)} (kind : heap r = .array items)
    (each : ∀ x ∈ items.take 20, ∀ s, seen ⊆ s → Ends heap max [] x s) : Ends heap max key (.ref r) seen := by
  by_cases hidden : secret key = true
  · exact ends_leaf (.inl hidden)
  · obtain ⟨fuel,out,after,done,grown⟩ := through_total (List.Subset.refl : ∀ s : List ρ, s ⊆ s) (fun _ _ _ => List.Subset.trans)
      (fun m n a s x le => clean_mono le [] a s x) each (List.Subset.refl seen)
    refine ⟨fuel + 1,.arr out,after,?_,grown⟩
    rw [clean,cleanWith,if_neg hidden]
    dsimp only
    rw [kind]
    exact Option.bind_eq_some_iff.mpr ⟨_,done,rfl⟩

theorem ends_object {key : Utf16} {r : ρ} {seen : List ρ} {entries : List (Utf16 × Value ρ)} (kind : heap r = .object entries)
    (each : r ∉ seen → ∀ key x s, r :: seen ⊆ s → Ends heap max key x s) : Ends heap max key (.ref r) seen := by
  by_cases hidden : secret key = true
  · exact ends_leaf (.inl hidden)
  by_cases known : r ∈ seen
  · refine ⟨1,.str (.ofString "[CIRCULAR]"),seen,?_,List.Subset.refl _⟩
    rw [clean,cleanWith,if_neg hidden]
    dsimp only
    rw [kind]
    exact if_pos known
  · let entry (n : ℕ) (field : Utf16 × Value ρ) (s : List ρ) : Option ((Utf16 × JsValue) × List ρ) := do
      let (out,s) ← clean heap max n field.1 field.2 s
      return ((field.1,out),s)
    have mono : ∀ m n field s x, m ≤ n → entry m field s = some x → entry n field s = some x := by
      intro m n field s x le done
      obtain ⟨y,value,named⟩ := Option.bind_eq_some_iff.mp done
      exact Option.bind_eq_some_iff.mpr ⟨y,clean_mono le _ _ _ _ value,named⟩
    have fields : ∀ field ∈ entries.take 50, ∀ s, r :: seen ⊆ s → ∃ n b after, entry n field s = some (b,after) ∧ s ⊆ after := by
      intro field _ s inside
      obtain ⟨n,out,after,done,grown⟩ := each known field.1 field.2 s inside
      exact ⟨n,_,after,Option.bind_eq_some_iff.mpr ⟨_,done,rfl⟩,grown⟩
    obtain ⟨fuel,out,after,done,grown⟩ := through_total (List.Subset.refl : ∀ s : List ρ, s ⊆ s) (fun _ _ _ => List.Subset.trans)
      mono fields (List.Subset.refl (r :: seen))
    refine ⟨fuel + 1,.obj out,after,?_,List.Subset.trans (List.subset_cons_self r seen) grown⟩
    rw [clean,cleanWith,if_neg hidden]
    dsimp only
    rw [kind]
    exact (if_neg known).trans (Option.bind_eq_some_iff.mpr ⟨_,done,rfl⟩)

theorem unseen_le [Fintype ρ] {s t : List ρ} (inside : s ⊆ t) : (Finset.univ \ t.toFinset).card ≤ (Finset.univ \ s.toFinset).card := by
  apply Finset.card_le_card
  apply Finset.sdiff_subset_sdiff (Finset.Subset.refl _)
  exact fun r there => List.mem_toFinset.mpr (inside (List.mem_toFinset.mp there))

theorem unseen_lt [Fintype ρ] {r : ρ} {s t : List ρ} (inside : r :: s ⊆ t) (fresh : r ∉ s) :
    (Finset.univ \ t.toFinset).card < (Finset.univ \ s.toFinset).card := by
  apply (unseen_le inside).trans_lt
  rw [List.toFinset_cons]
  apply Finset.card_lt_card
  rw [Finset.ssubset_iff_of_subset (Finset.sdiff_subset_sdiff (Finset.Subset.refl _) (Finset.subset_insert _ _))]
  exact ⟨r,by simpa using fresh,by simp⟩

/-- Every value is cleaned in the end, unless an array comes to itself through arrays alone: each
object is entered once. -/
theorem clean_ends [Fintype ρ] (founded : WellFounded fun b a => Nested heap a b) (key : Utf16) (v : Value ρ) (seen : List ρ) :
    Ends heap max key v seen := by
  induction unseen : (Finset.univ \ seen.toFinset).card using Nat.strong_induction_on generalizing key v seen with
  | _ k ih =>
    have object (r : ρ) (kind : (heap r).IsObject) (key : Utf16) (s : List ρ) (inside : seen ⊆ s) : Ends heap max key (.ref r) s := by
      cases kind' : heap r with
      | array items =>
        rw [kind'] at kind
        exact kind.elim
      | object entries =>
        refine ends_object kind' fun fresh key x t grown => ih _ ?_ key x t rfl
        exact unseen ▸ (unseen_lt grown fresh).trans_le (unseen_le inside)
    have reference (r : ρ) (key : Utf16) (s : List ρ) (inside : seen ⊆ s) : Ends heap max key (.ref r) s := by
      induction r using founded.induction generalizing key s with
      | _ r inner =>
        cases kind : heap r with
        | object entries => exact object r (kind ▸ trivial) key s inside
        | array items =>
          refine ends_array kind fun x member t grown => ?_
          by_cases reached : ∃ q, x = .ref q
          · obtain ⟨q,rfl⟩ := reached
            by_cases isObject : (heap q).IsObject
            · exact object q isObject [] t (List.Subset.trans inside grown)
            · exact inner q ⟨items,kind,member,isObject⟩ [] t (List.Subset.trans inside grown)
          · exact ends_leaf (.inr fun q same => reached ⟨q,same⟩)
    by_cases reached : ∃ r, v = .ref r
    · obtain ⟨r,rfl⟩ := reached
      exact reference r key seen (List.Subset.refl seen)
    · exact ends_leaf (.inr fun r same => reached ⟨r,same⟩)

end Termination

section Emit
variable {ρ ρ' : Type} [DecidableEq ρ] [DecidableEq ρ'] {e : Event ρ} {e' : Event ρ'}

theorem cleaned_agree {heap : ρ → Node ρ} {heap' : ρ' → Node ρ'} (max : Double) (fuel : ℕ) {key : Utf16} {v : Value ρ} {v' : Value ρ'}
    (alike : secret key = true ∨ Agree (Shared · heap) heap heap' v v') :
    cleaned heap max fuel key v = cleaned heap' max fuel key v' := by
  have results : ∃ R : ρ → ρ' → Prop, Alike (Matched heap R) (clean heap max fuel key v []) (clean heap' max fuel key v' []) := by
    rcases alike with hidden | ⟨R,shared,equal,same⟩
    · refine ⟨fun _ _ => False,?_⟩
      apply clean_alike
      · exact fun r r' no => no.elim
      · exact fun r r' q q' no => no.elim
      · exact ⟨rfl,.inl hidden⟩
      · exact fun r r' no => no.elim
    · exact ⟨R,clean_alike equal shared max fuel key v v' ⟨rfl,.inr same⟩ [] [] fun r r' _ _ => iff_of_false List.not_mem_nil List.not_mem_nil⟩
  obtain ⟨R,results⟩ := results
  unfold cleaned
  revert results
  generalize clean heap max fuel key v [] = x,clean heap' max fuel key v' [] = y
  rintro (⟨same,-⟩ | _)
  · exact congrArg some same
  · rfl

theorem cleaned_ends [Finite ρ] {heap : ρ → Node ρ} (founded : ∀ r, ¬Relation.TransGen (Nested heap) r r) (max : Double) (key : Utf16)
    (v : Value ρ) : ∃ out n, ∀ m, n ≤ m → cleaned heap max m key v = some out := by
  have := Fintype.ofFinite ρ
  have wellFounded : WellFounded fun b a => Nested heap a b := by
    let within (b a : ρ) : Prop := Relation.TransGen (Nested heap) a b
    have : IsTrans ρ within := ⟨fun _ _ _ first second => second.trans first⟩
    have : Std.Irrefl within := ⟨founded⟩
    exact Subrelation.wf (fun nested => .single nested) (Finite.wellFounded_of_trans_of_irrefl within)
  obtain ⟨n,out,after,(done : clean heap max n key v [] = _),-⟩ := clean_ends wellFounded key v []
  exact ⟨out,n,fun m enough => by rw [cleaned,clean_mono enough key v [] _ done]; rfl⟩

theorem emitted_agree {heap : ρ → Node ρ} {heap' : ρ' → Node ρ'} (fuel : ℕ) (options : Options) {a : Utf16 × Value ρ}
    {b : Utf16 × Value ρ'} (alike : a.1 = b.1 ∧ (secret a.1 = true ∨ Agree (Shared · heap) heap heap' a.2 b.2)) :
    emitted fuel options heap a = emitted fuel options heap' b := by
  obtain ⟨key,v⟩ := a
  obtain ⟨key',v'⟩ := b
  obtain ⟨rfl,alike⟩ := alike
  unfold emitted
  rw [cleaned_agree _ fuel alike]

theorem emitted_ends [Finite ρ] {heap : ρ → Node ρ} (founded : ∀ r, ¬Relation.TransGen (Nested heap) r r) (options : Options)
    (a : Utf16 × Value ρ) : ∃ b n, ∀ m, n ≤ m → emitted m options heap a = some b := by
  obtain ⟨out,n,done⟩ := cleaned_ends founded (options.maxValueLength.getD 1024) a.1 a.2
  exact ⟨(a.1,out),n,fun m enough => by rw [emitted,done m enough]; rfl⟩

theorem slice_forall₂ {α β : Type} {P : α → β → Prop} {l : List α} {l' : List β} (stop : Double) (each : List.Forall₂ P l l') :
    List.Forall₂ P (slice stop l) (slice stop l') := by
  unfold slice
  rw [each.length_eq]
  exact List.forall₂_take _ each

/-- Events that are equal but for the values of secrets, with objects shared alike, come to the sink
as one event, if no array comes to itself through arrays alone, and else not at all. -/
theorem emit_noninterfering [Finite ρ] (options : Options) (now : Double) (e : Event ρ) (e' : Event ρ')
    (same : EqualBut (Shared · e.heap) e e') :
    (∀ fuel, emit fuel options now e = emit fuel options now e') ∧
      ((∀ r, ¬Relation.TransGen (Nested e.heap) r r) → ∃ out n, ∀ fuel, n ≤ fuel → emit fuel options now e = some out) := by
  constructor
  · intro fuel
    have attributes := mapM_congr (f := emitted fuel options e.heap) (g := emitted fuel options e'.heap)
      ((slice_forall₂ (options.maxFields.getD 32) same.attributes).imp fun a b alike => emitted_agree fuel options alike)
    unfold emit
    dsimp only
    rw [cleaned_agree 128 fuel (.inr same.correlation),same.name,attributes]
  · intro founded
    obtain ⟨correlation,m,done⟩ := cleaned_ends founded 128 [] e.correlation
    obtain ⟨attributes,n,done'⟩ := mapM_eventually (f := fun fuel => emitted fuel options e.heap)
      fun a (_ : a ∈ slice (options.maxFields.getD 32) e.entries) => emitted_ends founded options a
    refine ⟨⟨e.name.take 128,now,correlation,attributes⟩,max m n,fun fuel enough => ?_⟩
    have first := done fuel ((le_max_left m n).trans enough)
    have second := done' fuel ((le_max_right m n).trans enough)
    exact Option.bind_eq_some_iff.mpr ⟨correlation,first,Option.bind_eq_some_iff.mpr ⟨attributes,second,rfl⟩⟩

end Emit

namespace Sample

def x : Utf16 := .ofString "x"
def password : Utf16 := .ofString "password"

/-- An event with a secret of its own. -/
def withSecret (value : Utf16) : Event (Fin 1) where
  heap _ := .object [(x,.null),(password,.str value)]
  name := x
  correlation := .null
  attributes := 0

theorem emit_noninterfering_one : ∃ out n, ∀ fuel, n ≤ fuel →
    emit fuel {} 0 (withSecret x) = some out ∧ emit fuel {} 0 (withSecret password) = some out := by
  have same : EqualBut (Shared · (withSecret x).heap) (withSecret x) (withSecret password) := by
    have equal : Agree (Shared · (withSecret x).heap) (withSecret x).heap (withSecret password).heap .null .null :=
      ⟨fun _ _ => False,fun _ _ _ _ no => no.elim,fun _ _ no => no.elim,.null⟩
    exact ⟨rfl,equal,.cons ⟨rfl,.inr equal⟩ (.cons ⟨rfl,.inl (by decide +kernel)⟩ .nil)⟩
  have flat : ∀ r, ¬Relation.TransGen (Nested (withSecret x).heap) r r := by
    intro r loop
    obtain ⟨_,⟨_,array,-⟩,-⟩ := Relation.TransGen.head'_iff.mp loop
    cases array
  obtain ⟨results,out,n,done⟩ := emit_noninterfering {} 0 (withSecret x) (withSecret password) same |>.imp_right fun total => total flat
  exact ⟨out,n,fun fuel enough => ⟨done fuel enough,(results fuel).symm.trans (done fuel enough)⟩⟩

/-- One object under two keys. -/
def shared : Event (Fin 3) where
  heap
    | 0 => .object [(x,.ref 1)]
    | 1 => .object [(x,.ref 2),(x ++ x,.ref 2)]
    | 2 => .object []
  name := x
  correlation := .null
  attributes := 0

/-- Two objects that are equal. -/
def copied : Event (Fin 4) where
  heap
    | 0 => .object [(x,.ref 1)]
    | 1 => .object [(x,.ref 2),(x ++ x,.ref 3)]
    | 2 | 3 => .object []
  name := x
  correlation := .null
  attributes := 0

/-- An array that contains itself. -/
def endless : Event (Fin 2) where
  heap
    | 0 => .object [(x,.ref 1)]
    | 1 => .array [.ref 1]
  name := x
  correlation := .null
  attributes := 0

inductive Copy : Fin 3 → Fin 4 → Prop where
  | root : Copy 0 0
  | outer : Copy 1 1
  | first : Copy 2 2
  | second : Copy 2 3

theorem copy_equal : Equal Copy shared.heap copied.heap := by
  intro r r' same
  cases same with
  | root => exact .object (.cons ⟨rfl,.inr (.ref .outer)⟩ .nil)
  | outer => exact .object (.cons ⟨rfl,.inr (.ref .first)⟩ (.cons ⟨rfl,.inr (.ref .second)⟩ .nil))
  | first => exact .object .nil
  | second => exact .object .nil

theorem clean_endless (max : Double) (fuel : ℕ) {key : Utf16} (plain : secret key = false) (seen : List (Fin 2)) :
    clean endless.heap max fuel key (.ref 1) seen = none := by
  induction fuel generalizing key seen with
  | zero => rfl
  | succ fuel ih =>
    rw [clean,cleanWith,if_neg (by rw [plain]; exact Bool.false_ne_true)]
    change (through (clean endless.heap max fuel []) [.ref 1] seen >>= _) = none
    rw [through,ih (by decide +kernel)]
    rfl

/-- Where an object is shared on one side alone, the sink is given different events; and an array
that contains itself keeps an event from the sink. -/
theorem emit_interferes :
    (EqualBut (fun _ => True) shared copied ∧ emit 4 {} 0 shared ≠ none ∧ emit 4 {} 0 copied ≠ none ∧
      emit 4 {} 0 shared ≠ emit 4 {} 0 copied) ∧ ∀ fuel, emit fuel {} 0 endless = none := by
  constructor
  · have inner : Agree (fun _ => True) shared.heap copied.heap (.ref 1) (.ref 1) := ⟨Copy,trivial,copy_equal,.ref .outer⟩
    have correlation : Agree (fun _ => True) shared.heap copied.heap .null .null := ⟨Copy,trivial,copy_equal,.null⟩
    have first : emit 4 {} 0 shared = some ⟨x,0,.null,[(x,.obj [(x,.obj []),(x ++ x,.str (.ofString "[CIRCULAR]"))])]⟩ := by
      rfl
    have second : emit 4 {} 0 copied = some ⟨x,0,.null,[(x,.obj [(x,.obj []),(x ++ x,.obj [])])]⟩ := by
      rfl
    rw [first,second]
    exact ⟨⟨rfl,correlation,.cons ⟨rfl,.inr inner⟩ .nil⟩,Option.some_ne_none _,Option.some_ne_none _,by simp⟩
  · intro fuel
    have attributes : (slice 32 endless.entries).mapM (emitted fuel {} endless.heap) = none := by
      change [(x,Value.ref 1)].mapM _ = none
      rw [List.mapM_cons,emitted,cleaned,clean_endless _ fuel (by decide +kernel)]
      rfl
    unfold emit
    cases cleaned endless.heap 128 fuel [] endless.correlation with
    | none => rfl
    | some correlation =>
      change ((slice 32 endless.entries).mapM (emitted fuel {} endless.heap) >>= _) = none
      rw [attributes]
      rfl

end Sample

end RatifyOs.Observability.SecureEventLogger
