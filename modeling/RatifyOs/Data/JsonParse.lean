import RatifyOs.Data.Json
import Mathlib.Data.List.Forall2
import Mathlib.Tactic.IntervalCases

/-! `JSON.parse`, as the grammar of the numbers and strings this program writes. -/
namespace RatifyOs.Data.Json

def unescaped (c : Char) : Option Char :=
  if c = quoteMark ∨ c = backslash ∨ c = '/' then some c
  else if c = 'b' then some (Char.ofNat 8)
  else if c = 'f' then some (Char.ofNat 12)
  else if c = 'n' then some (Char.ofNat 10)
  else if c = 'r' then some (Char.ofNat 13)
  else if c = 't' then some (Char.ofNat 9)
  else none

def hexValue (c : Char) : Option ℕ :=
  let n := c.toNat
  if 48 ≤ n ∧ n ≤ 57 then some (n - 48)
  else if 97 ≤ n ∧ n ≤ 102 then some (n - 87)
  else if 65 ≤ n ∧ n ≤ 70 then some (n - 55)
  else none

/-- The code unit after `\u`. -/
def codeUnit : Text → Option (ℕ × Text)
  | a :: b :: c :: d :: rest => do
    let a ← hexValue a
    let b ← hexValue b
    let c ← hexValue c
    let d ← hexValue d
    return (a * 4096 + b * 256 + c * 16 + d,rest)
  | _ => none

/-- One character of a string. Half of a surrogate pair is no character. -/
private def character : Text → Option (Char × Text)
  | c :: rest =>
    if c ≠ backslash then if c.toNat < 32 then none else some (c,rest)
    else match rest with
      | 'u' :: rest => do
        let (unit,rest) ← codeUnit rest
        if unit < 55296 ∨ 57344 ≤ unit then return (Char.ofNat unit,rest)
        else match rest with
          | mark :: 'u' :: rest => do
            let (low,rest) ← codeUnit rest
            if mark = backslash ∧ unit < 56320 ∧ 56320 ≤ low ∧ low < 57344 then
              return (Char.ofNat (65536 + (unit - 55296) * 1024 + (low - 56320)),rest)
            else none
          | _ => none
      | l :: rest => (unescaped l).map (·,rest)
      | [] => none
  | [] => none

/-- The characters up to the closing quote. -/
private def characters : ℕ → Text → Option (Text × Text)
  | 0, _ => none
  | _, [] => none
  | n + 1, c :: rest =>
    if c = quoteMark then some ([],rest)
    else do
      let (c,rest) ← character (c :: rest)
      let (cs,rest) ← characters n rest
      return (c :: cs,rest)

/-- A string, after its opening quote. -/
private def string (text : Text) : Option (String × Text) := do
  let (cs,rest) ← characters (text.length + 1) text
  return (String.ofList cs,rest)

private def natural (text : Text) : Option (ℕ × Text) :=
  let digits := text.takeWhile Char.isDigit
  if digits = [] ∨ (digits.head? = some '0' ∧ digits.length ≠ 1) then none
  else some (Nat.ofDigitChars 10 digits 0,text.dropWhile Char.isDigit)

private def integer : Text → Option (ℤ × Text)
  | '-' :: text => (natural text).map fun (n,rest) => (-(n : ℤ),rest)
  | text => (natural text).map fun (n,rest) => ((n : ℤ),rest)

def space (c : Char) : Bool := c.toNat = 32 ∨ c.toNat = 9 ∨ c.toNat = 10 ∨ c.toNat = 13

def blank (text : Text) : Text := text.dropWhile space

/-- Items up to a closing character, with commas between them. -/
def sequence {α : Type} (close : Char) (item : Text → Option (α × Text)) : ℕ → Text → Option (List α × Text)
  | 0, _ => none
  | n + 1, text => do
    let (value,rest) ← item text
    match blank rest with
    | c :: rest =>
      if c = close then return ([value],rest)
      else if c = ',' then do
        let (values,rest) ← sequence close item n rest
        return (value :: values,rest)
      else none
    | [] => none

/-- Nothing but the closing character, or a sequence. -/
def bracketed {α : Type} (close : Char) (item : Text → Option (α × Text)) (text : Text) :
    Option (List α × Text) :=
  match blank text with
  | c :: rest => if c = close then some ([],rest) else sequence close item (text.length + 1) text
  | [] => none

/-- A key that comes again has its value replaced. -/
private def assign (fields : List (String × Json)) (field : String × Json) : List (String × Json) :=
  if field.1 ∈ fields.map (·.1) then fields.map fun old => if old.1 = field.1 then field else old
  else fields ++ [field]

private def field (value : Text → Option (Json × Text)) (text : Text) : Option ((String × Json) × Text) :=
  match blank text with
  | c :: rest =>
    if c = quoteMark then do
      let (key,rest) ← string rest
      match blank rest with
      | ':' :: rest => do
        let (v,rest) ← value rest
        return ((key,v),rest)
      | _ => none
    else none
  | [] => none

/-- A value nested at most this deep. -/
def value : ℕ → Text → Option (Json × Text)
  | 0, _ => none
  | n + 1, text =>
    match blank text with
    | 'n' :: 'u' :: 'l' :: 'l' :: rest => some (.null,rest)
    | 't' :: 'r' :: 'u' :: 'e' :: rest => some (.bool true,rest)
    | 'f' :: 'a' :: 'l' :: 's' :: 'e' :: rest => some (.bool false,rest)
    | '[' :: rest => do
      let (items,rest) ← bracketed ']' (fun text => value n text) rest
      return (.arr items,rest)
    | c :: rest =>
      if c = '{' then do
        let (fields,rest) ← bracketed '}' (field fun text => value n text) rest
        return (.obj (fields.foldl assign []),rest)
      else if c = quoteMark then do
        let (s,rest) ← string rest
        return (.str s,rest)
      else do
        let (z,rest) ← integer (c :: rest)
        return (.num z,rest)
    | [] => none

/-- `JSON.parse`; `none` is a `SyntaxError`. -/
def parse (text : Text) : Option Json :=
  match value (text.length + 1) text with
  | some (v,rest) => if blank rest = [] then some v else none
  | none => none

theorem hexValue_hexDigit : ∀ n < 16, hexValue (hexDigit n) = some n := by decide

theorem unescaped_u : unescaped 'u' = none := by decide

theorem unescaped_letter {code : ℕ} {l : Char} (short : letter code = some l) :
    unescaped l = some (Char.ofNat code) := by
  have cases_ : code = 34 ∨ code = 92 ∨ code = 8 ∨ code = 12 ∨ code = 10 ∨ code = 13 ∨ code = 9 := by
    by_contra other
    simp only [not_or] at other
    simp [letter,other] at short
  rcases cases_ with rfl | rfl | rfl | rfl | rfl | rfl | rfl <;> cases short <;> decide

theorem letter_none {c : Char} (long : letter c.toNat = none) : c ≠ quoteMark ∧ c ≠ backslash := by
  constructor
  · intro same
    subst same
    revert long
    decide
  · intro same
    subst same
    revert long
    decide

private theorem character_escape (c : Char) (rest : Text) : character (escape c ++ rest) = some (c,rest) := by
  unfold escape
  split
  · rename_i l short
    have back := unescaped_letter short
    rw [Char.ofNat_toNat] at back
    have other : l ≠ 'u' := by
      intro same
      rw [same,unescaped_u] at back
      cases back
    simp only [List.cons_append,List.nil_append,character,ne_eq,not_true_eq_false,if_false]
    rw [back]
    rfl
  · rename_i long
    by_cases control : c.toNat < 32
    · have high := hexValue_hexDigit (c.toNat / 16) (by omega)
      have low := hexValue_hexDigit (c.toNat % 16) (by omega)
      have zero : hexValue '0' = some 0 := by decide
      have unit : c.toNat / 16 * 16 + c.toNat % 16 = c.toNat := by omega
      have small : c.toNat < 55296 := by omega
      simp [control,character,codeUnit,high,low,zero,unit,small]
    · simp [control,character,(letter_none long).2]

theorem escape_head (c : Char) : ∃ d rest, escape c = d :: rest ∧ d ≠ quoteMark := by
  unfold escape
  split
  · exact ⟨backslash,_,rfl,by decide⟩
  · rename_i long
    split
    · exact ⟨backslash,_,rfl,by decide⟩
    · exact ⟨c,[],rfl,(letter_none long).1⟩

private theorem characters_escaped (cs rest : Text) {n : ℕ} (enough : cs.length < n) :
    characters n (cs.flatMap escape ++ quoteMark :: rest) = some (cs,rest) := by
  induction cs generalizing n with
  | nil =>
    obtain ⟨m,rfl⟩ : ∃ m, n = m + 1 := ⟨n - 1,by simp at enough; omega⟩
    simp [characters]
  | cons c cs ih =>
    obtain ⟨m,rfl⟩ : ∃ m, n = m + 1 := ⟨n - 1,by simp at enough; omega⟩
    have fewer : cs.length < m := by simpa using enough
    obtain ⟨d,more,starts,other⟩ := escape_head c
    have first := character_escape c (cs.flatMap escape ++ quoteMark :: rest)
    rw [List.flatMap_cons,List.append_assoc]
    rw [starts,List.cons_append] at first ⊢
    simp [characters,other,first,ih fewer]

private theorem length_le_escaped (cs : Text) : cs.length ≤ (cs.flatMap escape).length := by
  induction cs with
  | nil => simp
  | cons c cs ih =>
    obtain ⟨d,more,starts,_⟩ := escape_head c
    simp only [List.flatMap_cons,List.length_append,List.length_cons,starts]
    omega

private theorem string_quoted (s : String) (rest : Text) :
    string (s.toList.flatMap escape ++ quoteMark :: rest) = some (s,rest) := by
  have enough : s.toList.length < (s.toList.flatMap escape ++ quoteMark :: rest).length + 1 := by
    have longer := length_le_escaped s.toList
    simp only [List.length_append,List.length_cons]
    omega
  rw [string,characters_escaped _ _ enough]
  simp

/-- A value ends where a separator follows it, or nothing. -/
def Stops : Text → Prop
  | [] => True
  | c :: _ => c = ',' ∨ c = ']' ∨ c = '}'

private theorem Stops.not_digit {rest : Text} (stops : Stops rest) : ∀ c ∈ rest.head?, c.isDigit = false := by
  intro c first
  cases rest with
  | nil => cases first
  | cons d rest =>
    cases first
    rcases stops with rfl | rfl | rfl <;> rfl

theorem no_leading_zero (n : ℕ) (zero : (Nat.toDigits 10 n).head? = some '0') : n = 0 := by
  induction n using Nat.strongRecOn with
  | ind n ih =>
    rw [Nat.toDigits_eq_if (by decide)] at zero
    split at zero
    · simpa using zero
    · have shorter : n / 10 = 0 := by
        apply ih _ (by omega)
        rwa [List.head?_append_of_ne_nil _ Nat.toDigits_ne_nil] at zero
      omega

theorem digits_span {digits rest : Text} (all : ∀ c ∈ digits, c.isDigit = true)
    (ends : ∀ c ∈ rest.head?, c.isDigit = false) :
    (digits ++ rest).takeWhile Char.isDigit = digits ∧ (digits ++ rest).dropWhile Char.isDigit = rest := by
  rw [List.takeWhile_append_of_pos all,List.dropWhile_append_of_pos all]
  cases rest with
  | nil => simp
  | cons d rest => simp [ends d rfl]

private theorem natural_digits (n : ℕ) {rest : Text} (stops : Stops rest) :
    natural (Nat.toDigits 10 n ++ rest) = some (n,rest) := by
  have digits : ∀ c ∈ Nat.toDigits 10 n, c.isDigit = true := fun c inside =>
    Nat.isDigit_of_mem_toDigits (by decide) (by decide) inside
  obtain ⟨taken,left⟩ := digits_span digits stops.not_digit
  have canonical : ¬((Nat.toDigits 10 n).head? = some '0' ∧ (Nat.toDigits 10 n).length ≠ 1) := by
    intro both
    rw [no_leading_zero n both.1] at both
    exact both.2 (by simp)
  simp [natural,taken,left,canonical,Nat.toDigits_ne_nil]

theorem number_ofNat (n : ℕ) : number (Int.ofNat n) = Nat.toDigits 10 n := Nat.toList_repr

theorem number_negSucc (n : ℕ) : number (Int.negSucc n) = '-' :: Nat.toDigits 10 (n + 1) := by
  change ("-" ++ Nat.repr (n + 1)).toList = _
  simp

theorem digits_head (n : ℕ) : ∃ d rest, Nat.toDigits 10 n = d :: rest ∧ d.isDigit = true := by
  cases digits : Nat.toDigits 10 n with
  | nil => exact absurd digits Nat.toDigits_ne_nil
  | cons d rest =>
    refine ⟨d,rest,rfl,?_⟩
    apply Nat.isDigit_of_mem_toDigits (b := 10) (n := n) (by decide) (by decide)
    rw [digits]
    exact List.mem_cons_self

private theorem integer_number (z : ℤ) {rest : Text} (stops : Stops rest) :
    integer (number z ++ rest) = some (z,rest) := by
  cases z with
  | ofNat n =>
    obtain ⟨d,more,digits,digit⟩ := digits_head n
    have other : d ≠ '-' := by
      intro same
      rw [same] at digit
      cases digit
    have read := natural_digits n stops
    rw [number_ofNat]
    rw [digits,List.cons_append] at read ⊢
    simp [integer,other,read]
  | negSucc n =>
    rw [number_negSucc]
    simp only [integer,List.cons_append,natural_digits _ stops,Option.map_some,Option.some.injEq,Prod.mk.injEq,and_true]
    omega

/-- `texts.join(",")` -/
def joined : List Text → Text
  | [] => []
  | [text] => text
  | text :: texts => text ++ ',' :: joined texts

/-- The first character of a text is not passed over, and closes nothing. -/
def Opens (text : Text) : Prop := ∃ c rest, text = c :: rest ∧ space c = false ∧ c ≠ ']' ∧ c ≠ '}'

/-- The text is read as this item, whatever comes after it. -/
def Item {α : Type} (item : Text → Option (α × Text)) (text : Text) (x : α) : Prop :=
  Opens text ∧ ∀ rest, Stops rest → item (text ++ rest) = some (x,rest)

theorem blank_append {text : Text} (opens : Opens text) (rest : Text) : blank (text ++ rest) = text ++ rest := by
  obtain ⟨c,more,rfl,kept,_⟩ := opens
  simp [blank,kept]

theorem blank_stop {c : Char} (stop : c = ',' ∨ c = ']' ∨ c = '}') (rest : Text) :
    blank (c :: rest) = c :: rest := by
  rcases stop with rfl | rfl | rfl <;> rfl

theorem sequence_joined {α : Type} {close : Char} (closes : close = ']' ∨ close = '}')
    {item : Text → Option (α × Text)} {texts : List Text} {values : List α}
    (items : List.Forall₂ (Item item) texts values) (some_ : texts ≠ []) (rest : Text) {n : ℕ}
    (enough : texts.length ≤ n) : sequence close item n (joined texts ++ close :: rest) = some (values,rest) := by
  induction items generalizing n with
  | nil => exact absurd rfl some_
  | @cons text x texts values first others ih =>
    obtain ⟨m,rfl⟩ : ∃ m, n = m + 1 := ⟨n - 1,by simp at enough; omega⟩
    cases texts with
    | nil =>
      cases others
      have read := first.2 (close :: rest) (.inr closes)
      simp [joined,sequence,read,blank_stop (.inr closes)]
    | cons second more =>
      have comma : ',' ≠ close := by
        rcases closes with rfl | rfl <;> decide
      have left := ih (by simp) (n := m) (by simpa using enough)
      have read := first.2 (',' :: (joined (second :: more) ++ close :: rest)) (.inl rfl)
      simp [joined,sequence,List.append_assoc,read,blank_stop,comma,left]

theorem length_le_joined (texts : List Text) : texts.length ≤ (joined texts).length + 1 := by
  induction texts with
  | nil => simp
  | cons text texts ih =>
    cases texts with
    | nil => simp
    | cons second more =>
      simp only [joined,List.length_append,List.length_cons] at ih ⊢
      omega

theorem bracketed_joined {α : Type} {close : Char} (closes : close = ']' ∨ close = '}')
    {item : Text → Option (α × Text)} {texts : List Text} {values : List α}
    (items : List.Forall₂ (Item item) texts values) (rest : Text) :
    bracketed close item (joined texts ++ close :: rest) = some (values,rest) := by
  cases texts with
  | nil =>
    cases items
    simp [bracketed,joined,blank_stop (.inr closes)]
  | cons text texts =>
    have enough : (text :: texts).length ≤ (joined (text :: texts) ++ close :: rest).length + 1 := by
      have longer := length_le_joined (text :: texts)
      rw [List.length_append]
      omega
    have read := sequence_joined closes items (by simp) rest enough
    have opens : Opens (joined (text :: texts)) := by
      cases items with
      | cons first others =>
        obtain ⟨c,more,rfl,kept,other⟩ := first.1
        cases texts with
        | nil => exact ⟨c,more,rfl,kept,other⟩
        | cons second texts => exact ⟨c,_,rfl,kept,other⟩
    have seen := blank_append opens (close :: rest)
    obtain ⟨c,more,starts,_,other⟩ := opens
    have different : c ≠ close := by
      rcases closes with rfl | rfl
      · exact other.1
      · exact other.2
    rw [bracketed,seen,read]
    rw [starts,List.cons_append]
    simp [different]

/-- Texts that are read one by one are read in a row. -/
theorem items_within {α : Type} {R : Text → α → Prop} {value : ℕ → Text → Option (α × Text)}
    (item : ∀ text v n, R text v → text.length < n → Item (fun text => value n text) text v) {texts : List Text}
    {values : List α} (items : List.Forall₂ R texts values) {n : ℕ} (enough : (joined texts).length < n) :
    List.Forall₂ (Item fun text => value n text) texts values := by
  induction items with
  | nil => exact .nil
  | @cons text v texts values first others ih =>
    cases texts with
    | nil =>
      cases others
      exact .cons (item text v n first enough) .nil
    | cons second texts =>
      simp only [joined,List.length_append,List.length_cons] at enough ih
      exact .cons (item text v n first (by omega)) (ih (by omega))

theorem foldl_fresh {κ α : Type} {assign : List (κ × α) → κ × α → List (κ × α)}
    (fresh : ∀ done pair, pair.1 ∉ done.map (·.1) → assign done pair = done ++ [pair]) {fields done : List (κ × α)}
    (distinct : ((done ++ fields).map (·.1)).Nodup) : fields.foldl assign done = done ++ fields := by
  induction fields generalizing done with
  | nil => simp
  | cons pair fields ih =>
    have absent : pair.1 ∉ done.map (·.1) := by
      intro there
      rw [List.map_append,List.nodup_append] at distinct
      exact distinct.2.2 _ there _ (by simp) rfl
    rw [List.foldl_cons,fresh done pair absent,ih (by simpa using distinct)]
    simp

/-- `JSON.parse` reads the value off the front of any text that goes on with this one. -/
structure Reads (text : Text) (v : Json) : Prop where
  opens : Opens text
  reads : ∀ n, text.length ≤ n → ∀ rest, Stops rest → value (n + 1) (text ++ rest) = some (v,rest)

private theorem Reads.item {text : Text} {v : Json} (reads : Reads text v) {n : ℕ} (enough : text.length < n) :
    Item (fun text => value n text) text v := by
  obtain ⟨m,rfl⟩ : ∃ m, n = m + 1 := ⟨n - 1,by omega⟩
  exact ⟨reads.opens,reads.reads m (by omega)⟩

theorem parse_of_reads {text : Text} {v : Json} (reads : Reads text v) : parse text = some v := by
  have read := reads.reads text.length (by omega) [] trivial
  rw [List.append_nil] at read
  simp [parse,read,blank]

theorem reads_null : Reads ['n','u','l','l'] .null where
  opens := ⟨'n',_,rfl,rfl,by decide⟩
  reads _ _ _ _ := rfl

theorem reads_true : Reads ['t','r','u','e'] (.bool true) where
  opens := ⟨'t',_,rfl,rfl,by decide⟩
  reads _ _ _ _ := rfl

theorem reads_false : Reads ['f','a','l','s','e'] (.bool false) where
  opens := ⟨'f',_,rfl,rfl,by decide⟩
  reads _ _ _ _ := rfl

private theorem value_quoteMark (n : ℕ) (text : Text) :
    value (n + 1) (quoteMark :: text) = (string text).bind fun read => some (.str read.1,read.2) := rfl

private theorem value_bracket (n : ℕ) (text : Text) : value (n + 1) ('[' :: text) =
    (bracketed ']' (fun text => value n text) text).bind fun read => some (.arr read.1,read.2) := rfl

private theorem value_brace (n : ℕ) (text : Text) : value (n + 1) ('{' :: text) =
    (bracketed '}' (field fun text => value n text) text).bind fun read =>
      some (.obj (read.1.foldl assign []),read.2) := rfl

theorem reads_quote (s : String) : Reads (quote s) (.str s) where
  opens := ⟨quoteMark,_,rfl,rfl,by decide⟩
  reads n _ rest _ := by
    rw [quote,List.cons_append,List.append_assoc,value_quoteMark,List.cons_append,List.nil_append,string_quoted]
    rfl

theorem reads_array {texts : List Text} {values : List Json} (items : List.Forall₂ Reads texts values) :
    Reads ('[' :: (joined texts ++ [']'])) (.arr values) where
  opens := ⟨'[',_,rfl,rfl,by decide⟩
  reads n enough rest _ := by
    have shorter : (joined texts).length < n := by
      simp only [List.length_append,List.length_cons] at enough
      omega
    have read := bracketed_joined (.inl rfl) (items_within (fun _ _ _ reads => reads.item) items shorter) rest
    rw [List.cons_append,List.append_assoc,value_bracket,List.cons_append,List.nil_append,read]
    rfl

/-- A key, and the text of its value. -/
def member (entry : String × Text) : Text := quote entry.1 ++ ':' :: entry.2

private theorem member_item {entry : String × Text} {v : Json} (reads : Reads entry.2 v) {n : ℕ}
    (enough : entry.2.length < n) : Item (field fun text => value n text) (member entry) (entry.1,v) := by
  refine ⟨⟨quoteMark,_,rfl,rfl,by decide⟩,fun rest stops => ?_⟩
  have key := string_quoted entry.1 (':' :: (entry.2 ++ rest))
  have read := (reads.item enough).2 rest stops
  have seen : blank (':' :: (entry.2 ++ rest)) = ':' :: (entry.2 ++ rest) := rfl
  have shown : member entry ++ rest =
      quoteMark :: (entry.1.toList.flatMap escape ++ quoteMark :: (':' :: (entry.2 ++ rest))) := by
    simp [member,quote]
  have first : blank (member entry ++ rest) = member entry ++ rest := by
    rw [shown]
    rfl
  rw [field,first,shown]
  simp [key,seen,read]

private theorem members_of_reads {entries : List (String × Text)} {fields : List (String × Json)}
    (items : List.Forall₂ (fun entry field => entry.1 = field.1 ∧ Reads entry.2 field.2) entries fields) {n : ℕ}
    (enough : (joined (entries.map member)).length < n) :
    List.Forall₂ (Item (field fun text => value n text)) (entries.map member) fields := by
  have each : List.Forall₂ (fun text pair => ∃ entry, text = member entry ∧ entry.1 = pair.1 ∧ Reads entry.2 pair.2)
      (entries.map member) fields := by
    rw [List.forall₂_map_left_iff]
    exact items.imp fun entry pair related => ⟨entry,rfl,related⟩
  refine @items_within _ _ (fun n => field fun text => value n text) ?_ _ _ each _ enough
  rintro _ pair n ⟨entry,rfl,same,reads⟩ enough
  have long : entry.2.length < (member entry).length := by
    simp only [member,List.length_append,List.length_cons]
    omega
  have read := member_item reads (long.trans enough)
  rwa [same] at read

theorem reads_object {entries : List (String × Text)} {fields : List (String × Json)}
    (items : List.Forall₂ (fun entry field => entry.1 = field.1 ∧ Reads entry.2 field.2) entries fields)
    (distinct : (fields.map (·.1)).Nodup) : Reads ('{' :: (joined (entries.map member) ++ ['}'])) (.obj fields) where
  opens := ⟨'{',_,rfl,rfl,by decide⟩
  reads n enough rest _ := by
    have shorter : (joined (entries.map member)).length < n := by
      simp only [List.length_append,List.length_cons] at enough
      omega
    have read := bracketed_joined (.inr rfl) (members_of_reads items shorter) rest
    have kept : fields.foldl assign [] = [] ++ fields := foldl_fresh (fun _ _ absent => if_neg absent) distinct
    rw [List.cons_append,List.append_assoc,value_brace,List.cons_append,List.nil_append,read]
    simp [kept]

theorem digit_range {d : Char} (digit : d.isDigit = true) : 48 ≤ d.toNat ∧ d.toNat ≤ 57 := by
  simpa [Char.isDigit,UInt32.le_iff_toNat_le] using digit

private theorem value_digit (n : ℕ) {d : Char} (digit : d.isDigit = true) (text : Text) :
    value (n + 1) (d :: text) = (integer (d :: text)).bind fun read => some (.num read.1,read.2) := by
  have named : d = Char.ofNat d.toNat := (Char.ofNat_toNat d).symm
  obtain ⟨low,high⟩ := digit_range digit
  generalize d.toNat = code at named low high
  subst named
  interval_cases code <;> rfl

private theorem value_minus (n : ℕ) (text : Text) :
    value (n + 1) ('-' :: text) = (integer ('-' :: text)).bind fun read => some (.num read.1,read.2) := rfl

private theorem number_head (z : ℤ) : ∃ d rest, number z = d :: rest ∧ (d = '-' ∨ d.isDigit = true) := by
  cases z with
  | ofNat n =>
    obtain ⟨d,rest,digits,digit⟩ := digits_head n
    exact ⟨d,rest,(number_ofNat n).trans digits,.inr digit⟩
  | negSucc n => exact ⟨'-',_,number_negSucc n,.inl rfl⟩

theorem digit_opens {d : Char} (digit : d.isDigit = true) : space d = false ∧ d ≠ ']' ∧ d ≠ '}' := by
  refine ⟨?_,?_,?_⟩
  · have range := digit_range digit
    simp only [space,decide_eq_false_iff_not]
    omega
  · intro same
    rw [same] at digit
    cases digit
  · intro same
    rw [same] at digit
    cases digit

theorem reads_number (z : ℤ) : Reads (number z) (.num z) where
  opens := by
    obtain ⟨d,rest,shown,either⟩ := number_head z
    refine ⟨d,rest,shown,?_⟩
    rcases either with rfl | digit
    · decide
    · exact digit_opens digit
  reads n _ rest stops := by
    obtain ⟨d,more,shown,either⟩ := number_head z
    have read := integer_number z stops
    rw [shown,List.cons_append] at read ⊢
    rcases either with rfl | digit
    · rw [value_minus,read]
      rfl
    · rw [value_digit n digit,read]
      rfl

theorem number_injective {a b : ℤ} (same : number a = number b) : a = b := by
  have first := parse_of_reads (reads_number a)
  rw [same,parse_of_reads (reads_number b)] at first
  cases first
  rfl

end RatifyOs.Data.Json
