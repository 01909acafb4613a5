import RatifyOs.Data.Double
import RatifyOs.Data.Words

/-! `Number(text)`: a decimal with an optional exponent, `Infinity`, or an integer of radix
two, eight or sixteen; anything else is not a number. -/
namespace RatifyOs.Data.Text

/-- The value of a digit in some radix. -/
def digit? (radix : ℕ) (c : Char) : Option ℕ :=
  let value :=
    if '0' ≤ c ∧ c ≤ '9' then c.toNat - 48
    else if 'a' ≤ c ∧ c ≤ 'z' then c.toNat - 87
    else if 'A' ≤ c ∧ c ≤ 'Z' then c.toNat - 55
    else radix
  if value < radix then some value else none

/-- One or more digits. -/
def natural (radix : ℕ) (text : Text) : Option ℕ :=
  if text = [] then none
  else text.foldlM (fun value c => (digit? radix c).map fun d => value * radix + d) 0

def signed {α : Type} [Neg α] (read : Text → Option α) : Text → Option α
  | '-' :: rest => (read rest).map (-·)
  | '+' :: rest => read rest
  | text => read text

/-- Digits with an optional point, which digits stand before or after. -/
def mantissa (text : Text) : Option ℚ :=
  match text.splitOn '.' with
  | [whole] => (natural 10 whole).map fun n => (n : ℚ)
  | [whole,fraction] => (natural 10 (whole ++ fraction)).map fun n => (n : ℚ) / 10 ^ fraction.length
  | _ => none

def decimal (text : Text) : Option ℚ :=
  match text.splitOnP fun c => c = 'e' ∨ c = 'E' with
  | [m] => mantissa m
  | [m,x] => do
    let m ← mantissa m
    let x ← signed (fun digits => (natural 10 digits).map fun n => (n : ℤ)) x
    return m * 10 ^ x
  | _ => none

def magnitude (text : Text) : Option Double :=
  if text = "Infinity".toList then some (.infinite false) else (decimal text).map Double.ofRat

/-- `Number(text)` -/
def toNumber (text : Text) : Double :=
  let integer (radix : ℕ) (digits : Text) : Double := ((natural radix digits).map fun n => Double.ofRat n).getD .nan
  match trim text with
  | [] => 0
  | '0' :: 'x' :: digits | '0' :: 'X' :: digits => integer 16 digits
  | '0' :: 'o' :: digits | '0' :: 'O' :: digits => integer 8 digits
  | '0' :: 'b' :: digits | '0' :: 'B' :: digits => integer 2 digits
  | text => (signed magnitude text).getD .nan

/-- A numeral as a reader takes one: digits and nothing else. -/
def Digits (text : Text) : Prop := text ≠ [] ∧ ∀ c ∈ text, c.isDigit = true

instance (text : Text) : Decidable (Digits text) := decidable_of_iff (text ≠ [] ∧ text.all Char.isDigit = true) (by simp [Digits])

def digitsValue (text : Text) : ℕ := text.foldl (fun value c => value * 10 + (c.toNat - 48)) 0

theorem digit?_of_isDigit {c : Char} (digit : c.isDigit = true) : digit? 10 c = some (c.toNat - 48) := by
  obtain ⟨low,high⟩ : '0' ≤ c ∧ c ≤ '9' := by simpa [Char.isDigit,Char.le_def] using digit
  have small : c.toNat ≤ 57 := UInt32.le_iff_toNat_le.mp high
  have value : (if '0' ≤ c ∧ c ≤ '9' then c.toNat - 48 else if 'a' ≤ c ∧ c ≤ 'z' then c.toNat - 87
      else if 'A' ≤ c ∧ c ≤ 'Z' then c.toNat - 55 else 10) = c.toNat - 48 := if_pos ⟨low,high⟩
  unfold digit?
  dsimp only
  rw [value,if_pos (by omega)]

theorem natural_of_digits {text : Text} (digits : Digits text) : natural 10 text = some (digitsValue text) := by
  have fold : ∀ (text : Text) (value : ℕ), (∀ c ∈ text, c.isDigit = true) →
      text.foldlM (fun value c => (digit? 10 c).map fun d => value * 10 + d) value =
        some (text.foldl (fun value c => value * 10 + (c.toNat - 48)) value) := by
    intro text
    induction text with
    | nil => exact fun _ _ => rfl
    | cons c rest ih =>
      intro value all
      rw [List.foldlM_cons,digit?_of_isDigit (all c (.head _)),Option.map_some]
      exact ih _ fun d inside => all d (.tail _ inside)
  unfold natural
  rw [if_neg digits.1]
  exact fold text 0 digits.2

theorem isDigit_ne {c d : Char} (digit : c.isDigit = true) (other : d.isDigit = false) : c ≠ d := by
  rintro rfl
  rw [digit] at other
  cases other

theorem not_white_of_isDigit {c : Char} (digit : c.isDigit = true) : white c = false := by
  obtain ⟨low,high⟩ : '0' ≤ c ∧ c ≤ '9' := by simpa [Char.isDigit,Char.le_def] using digit
  have least : 48 ≤ c.toNat := UInt32.le_iff_toNat_le.mp low
  have most : c.toNat ≤ 57 := UInt32.le_iff_toNat_le.mp high
  unfold white
  simp only [List.mem_cons,List.not_mem_nil,or_false,decide_eq_false_iff_not]
  omega

/-- A numeral of digits is read as the number it says, rounded as every number is. -/
theorem toNumber_of_digits {text : Text} (digits : Digits text) : toNumber text = Double.ofRat (digitsValue text) := by
  have plain : trim text = text := trim_of_plain fun c inside => not_white_of_isDigit (digits.2 c inside)
  have free (d : Char) (other : d.isDigit = false) : d ∉ text := fun inside => isDigit_ne (digits.2 d inside) other rfl
  have value : decimal text = some (digitsValue text : ℚ) := by
    have whole : text.splitOnP (fun c => c = 'e' ∨ c = 'E') = [text] := List.splitOnP_eq_singleton fun c inside => by
      simp [isDigit_ne (digits.2 c inside) (show 'e'.isDigit = false from rfl),
        isDigit_ne (digits.2 c inside) (show 'E'.isDigit = false from rfl)]
    have plainly : mantissa text = some (digitsValue text : ℚ) := by
      rw [mantissa,List.splitOn_eq_singleton (free '.' rfl)]
      dsimp only
      rw [natural_of_digits digits]
      rfl
    rw [decimal,whole]
    exact plainly
  have read : magnitude text = some (Double.ofRat (digitsValue text)) := by
    have finite : text ≠ "Infinity".toList := by
      rintro rfl
      exact free 'I' rfl (by decide)
    rw [magnitude,if_neg finite,value,Option.map_some]
  obtain ⟨c,rest,rfl⟩ := List.exists_cons_of_ne_nil digits.1
  have sign : signed magnitude (c :: rest) = magnitude (c :: rest) := by
    unfold signed
    split
    · rename_i same
      exact absurd (by simp [same]) (free '-' rfl)
    · rename_i same
      exact absurd (by simp [same]) (free '+' rfl)
    · rfl
  unfold toNumber
  dsimp only
  rw [plain]
  split
  · rename_i empty
    cases empty
  iterate 6
    · rename_i prefixed
      have second := digits.2
      rw [prefixed] at second
      exact absurd (second _ (List.Mem.tail _ (List.Mem.head _))) (by decide)
  · rw [sign,read]
    rfl

/-- `BigInt(text)`, or `none` where it throws. -/
def toBigInt (text : Text) : Option ℤ :=
  let integer (radix : ℕ) (digits : Text) : Option ℤ := (natural radix digits).map fun n : ℕ => (n : ℤ)
  match trim text with
  | [] => some 0
  | '0' :: 'x' :: digits | '0' :: 'X' :: digits => integer 16 digits
  | '0' :: 'o' :: digits | '0' :: 'O' :: digits => integer 8 digits
  | '0' :: 'b' :: digits | '0' :: 'B' :: digits => integer 2 digits
  | text => signed (integer 10) text

theorem digits_toDigits (n : ℕ) : Digits (Nat.toDigits 10 n) :=
  ⟨Nat.toDigits_ne_nil,fun _ inside => Nat.isDigit_of_mem_toDigits (by decide) (by decide) inside⟩

example : ["59","-0","0x1F"," 1.5e1 ",".","5 6"].map (fun text => toNumber text.toList) = [59,0,31,15,.nan,.nan] := by
  decide +kernel

end RatifyOs.Data.Text
