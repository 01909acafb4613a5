import RatifyOs.Data.Rounding
import RatifyOs.Data.JsonParse

/-! As few decimal digits as are still read back as a number, those nearest to it where there are
several. -/
namespace RatifyOs.Data

structure Decimal where
  digits : ℕ
  exponent : ℤ
  deriving DecidableEq

namespace Decimal

def value (d : Decimal) : ℚ := d.digits * 10 ^ d.exponent

def ReadAs (d : Decimal) (q : ℚ) : Prop := Double.ofRat d.value = .finite q

instance (d : Decimal) (q : ℚ) : Decidable (d.ReadAs q) := inferInstanceAs (Decidable (_ = _))

/-- The last decimal of `count` digits up to the number. -/
def below (q : ℚ) (count : ℕ) : Decimal :=
  let exponent := Int.log 10 q + 1 - count
  ⟨⌊q / 10 ^ exponent⌋₊,exponent⟩

/-- The next one, with a digit for it where all would be nines. -/
def above (q : ℚ) (count : ℕ) : Decimal :=
  let d := below q count
  if d.digits + 1 = 10 ^ count then ⟨1,d.exponent + count⟩ else ⟨d.digits + 1,d.exponent⟩

/-- The first of two decimals is the nearer one, or as near and the even one. -/
def Nearer (q : ℚ) (d d' : Decimal) : Prop :=
  q - d.value < d'.value - q ∨ q - d.value = d'.value - q ∧ d.digits % 2 = 0

instance (q : ℚ) (d d' : Decimal) : Decidable (Nearer q d d') := inferInstanceAs (Decidable (_ ∨ _))

/-- The decimal of so many digits that stands for the number, if one does. -/
def candidate (q : ℚ) (count : ℕ) : Option Decimal :=
  let d := below q count
  let d' := above q count
  if d.ReadAs q ∧ (¬d'.ReadAs q ∨ Nearer q d d') then some d
  else if d'.ReadAs q then some d'
  else none

/-- All the digits that a number can have. -/
def exact (q : ℚ) : Decimal := ⟨⌊q * 10 ^ 1074⌋₊,-1074⟩

def shortestFrom (q : ℚ) : ℕ → ℕ → Decimal
  | 0, _ => exact q
  | fuel + 1, count => (candidate q count).getD (shortestFrom q fuel (count + 1))

/-- Seventeen digits always suffice. -/
def shortest (q : ℚ) : Decimal := shortestFrom q 17 1

theorem candidate_readAs {q : ℚ} {count : ℕ} {d : Decimal} (found : candidate q count = some d) : d.ReadAs q := by
  unfold candidate at found
  dsimp only at found
  split_ifs at found with lower upper
  · obtain rfl := Option.some.inj found
    exact lower.1
  · obtain rfl := Option.some.inj found
    exact upper

theorem shifted_whole (k : ℤ) (places : ℕ) : (k / 2 ^ places : ℚ) * 10 ^ places = ((k * 5 ^ places : ℤ) : ℚ) := by
  rw [show (10 : ℚ) = 2 * 5 by norm_num,mul_pow,← mul_assoc,div_mul_cancel₀]
  · norm_cast
  · exact pow_ne_zero _ (by norm_num)

theorem exact_value {q : ℚ} (positive : 0 < q) (double : Double.ofRat q = .finite q) : (exact q).value = q := by
  obtain ⟨k,multiple⟩ := Double.exact_multiple double
  have nonneg : 0 ≤ q * 10 ^ 1074 := mul_nonneg positive.le (pow_nonneg (by norm_num) _)
  have kept : ((⌊q * 10 ^ 1074⌋₊ : ℕ) : ℚ) = q * 10 ^ 1074 := by
    rw [natCast_floor_eq_intCast_floor nonneg,multiple,shifted_whole,Int.floor_intCast]
  rw [value,exact,kept,zpow_neg,zpow_ofNat]
  exact mul_inv_cancel_right₀ (pow_ne_zero _ (by norm_num)) q

theorem shortestFrom_readAs {q : ℚ} (positive : 0 < q) (double : Double.ofRat q = .finite q) (fuel count : ℕ) :
    (shortestFrom q fuel count).ReadAs q := by
  induction fuel generalizing count with
  | zero => rw [shortestFrom,ReadAs,exact_value positive double,double]
  | succ fuel ih =>
    rw [shortestFrom]
    cases found : candidate q count with
    | none => exact ih (count + 1)
    | some d => exact candidate_readAs found

theorem digits_pos {q : ℚ} (positive : 0 < q) {d : Decimal} (read : d.ReadAs q) : 0 < d.digits := by
  apply Nat.pos_of_ne_zero
  intro zero
  rw [ReadAs,value,zero,Nat.cast_zero,zero_mul] at read
  have same : (0 : ℚ) = q := by
    rw [← Double.finite.injEq,← read]
    exact (Double.ofRat_natCast (n := 0) (by norm_num)).symm
  exact positive.ne same

end Decimal

/-! The text of a number in JSON, and the literals of JSON, which read it back as the same number. -/
open Json

section Text

def fractionText (fraction : Text) : Text := if fraction = [] then [] else '.' :: fraction

def exponentText : Option ℤ → Text
  | none => []
  | some e => 'e' :: (if e < 0 then '-' else '+') :: Nat.toDigits 10 e.natAbs

/-- Digits with a point among them and a power of ten, either where there is one. -/
def literalText (whole fraction : Text) (exponent : Option ℤ) : Text :=
  whole ++ (fractionText fraction ++ exponentText exponent)

def zeros (count : ℤ) : Text := List.replicate count.toNat '0'

/-- `Number::toString` of a positive number with these digits. -/
def Decimal.text (d : Decimal) : Text :=
  let digits := Nat.toDigits 10 d.digits
  let k := digits.length
  let n := d.exponent + k
  if k ≤ n ∧ n ≤ 21 then literalText (digits ++ zeros (n - k)) [] none
  else if 0 < n ∧ n ≤ 21 then literalText (digits.take n.toNat) (digits.drop n.toNat) none
  else if -6 < n ∧ n ≤ 0 then literalText ['0'] (zeros (-n) ++ digits) none
  else literalText (digits.take 1) (digits.drop 1) (some (n - 1))

def numberText (q : ℚ) : Text :=
  if q = 0 then ['0']
  else if q < 0 then '-' :: (Decimal.shortest (-q)).text
  else (Decimal.shortest q).text

end Text

section Literal

def digitsOf (text : Text) : Text × Text := (text.takeWhile Char.isDigit,text.dropWhile Char.isDigit)

def fractionOf : Text → Option (Text × Text)
  | [] => some ([],[])
  | c :: rest =>
    if c = '.' then
      let (fraction,rest) := digitsOf rest
      if fraction = [] then none else some (fraction,rest)
    else some ([],c :: rest)

def signedDigits (negative : Bool) (text : Text) : Option (ℤ × Text) :=
  let (digits,rest) := digitsOf text
  if digits = [] then none
  else
    let n : ℤ := Nat.ofDigitChars 10 digits 0
    some (if negative then -n else n,rest)

def exponentOf : Text → Option (ℤ × Text)
  | [] => some (0,[])
  | c :: rest =>
    if c = 'e' ∨ c = 'E' then
      match rest with
      | '-' :: rest => signedDigits true rest
      | '+' :: rest => signedDigits false rest
      | rest => signedDigits false rest
    else some (0,c :: rest)

/-- A number without a sign, and what is left of the text. -/
def unsignedLiteral (text : Text) : Option (ℚ × Text) := do
  let (whole,rest) := digitsOf text
  if whole = [] ∨ (whole.head? = some '0' ∧ whole.length ≠ 1) then none
  else
    let (fraction,rest) ← fractionOf rest
    let (exponent,rest) ← exponentOf rest
    return (Nat.ofDigitChars 10 (whole ++ fraction) 0 * 10 ^ (exponent - fraction.length),rest)

/-- A number at the start of a JSON text, as the double next to it. -/
def numberLiteral : Text → Option (Double × Text)
  | '-' :: rest => (unsignedLiteral rest).map fun (q,rest) => (Double.ofRat (-q),rest)
  | text => (unsignedLiteral text).map fun (q,rest) => (Double.ofRat q,rest)

end Literal

section Digits

def Digits (text : Text) : Prop := ∀ c ∈ text, c.isDigit = true

theorem digits_nil : Digits [] := List.forall_mem_nil _

theorem digits_append {a b : Text} (left : Digits a) (right : Digits b) : Digits (a ++ b) := by
  intro c inside
  rcases List.mem_append.mp inside with first | second
  · exact left c first
  · exact right c second

theorem digits_toDigits (n : ℕ) : Digits (Nat.toDigits 10 n) := fun _ inside =>
  Nat.isDigit_of_mem_toDigits (by decide) (by decide) inside

theorem digits_zeros (count : ℤ) : Digits (zeros count) := by
  intro c inside
  rw [List.eq_of_mem_replicate inside]
  rfl

theorem digitsOf_append {digits rest : Text} (all : Digits digits) (ends : ∀ c ∈ rest.head?, c.isDigit = false) :
    digitsOf (digits ++ rest) = (digits,rest) := by
  obtain ⟨taken,left⟩ := digits_span all ends
  rw [digitsOf,taken,left]

theorem ofDigitChars_prepend_zeros (count : ℤ) (digits : Text) :
    Nat.ofDigitChars 10 (zeros count ++ digits) 0 = Nat.ofDigitChars 10 digits 0 := by
  rw [Nat.ofDigitChars_append,zeros,Nat.ofDigitChars_replicate_zero,mul_zero]

theorem ofDigitChars_append_zeros (digits : Text) {count : ℤ} (some_ : 0 ≤ count) :
    ((Nat.ofDigitChars 10 (digits ++ zeros count) 0 : ℕ) : ℚ) = Nat.ofDigitChars 10 digits 0 * 10 ^ count := by
  rw [Nat.ofDigitChars_append,zeros,Nat.ofDigitChars_replicate_zero]
  push_cast
  rw [mul_comm,← zpow_natCast,Int.toNat_of_nonneg some_]

end Digits

section Reading
variable {rest : Text}

/-- What can come after the digits of a number. -/
def Breaks (rest : Text) : Prop := ∀ c ∈ rest.head?, c.isDigit = false ∧ c ≠ '.'

theorem Breaks.not_digit (ends : Breaks rest) : ∀ c ∈ rest.head?, c.isDigit = false := fun c first => (ends c first).1

theorem breaks_of_stops (stops : Stops rest) : Breaks rest := by
  intro c first
  cases rest with
  | nil => cases first
  | cons d rest =>
    cases first
    rcases stops with rfl | rfl | rfl <;> decide

theorem breaks_exponent (stops : Stops rest) (e : Option ℤ) : Breaks (exponentText e ++ rest) := by
  cases e with
  | none => exact breaks_of_stops stops
  | some e =>
    intro c first
    cases first
    decide

theorem fractionOf_text {fraction : Text} (digits : Digits fraction) (ends : Breaks rest) :
    fractionOf (fractionText fraction ++ rest) = some (fraction,rest) := by
  rw [fractionText]
  split_ifs with empty
  · subst empty
    cases rest with
    | nil => rfl
    | cons c rest =>
      have other := (ends c rfl).2
      simp [fractionOf,other]
  · have read := digitsOf_append digits ends.not_digit
    simp [fractionOf,read,empty]

theorem signedDigits_text (negative : Bool) (n : ℕ) (stops : Stops rest) :
    signedDigits negative (Nat.toDigits 10 n ++ rest) = some (if negative then -(n : ℤ) else n,rest) := by
  rw [signedDigits,digitsOf_append (digits_toDigits n) (breaks_of_stops stops).not_digit]
  simp [Nat.toDigits_ne_nil]

theorem exponentOf_text (e : Option ℤ) (stops : Stops rest) :
    exponentOf (exponentText e ++ rest) = some (e.getD 0,rest) := by
  cases e with
  | none =>
    cases rest with
    | nil => rfl
    | cons c rest =>
      have other : c ≠ 'e' ∧ c ≠ 'E' := by
        rcases stops with rfl | rfl | rfl <;> decide
      simp [exponentText,exponentOf,other]
  | some e =>
    by_cases negative : e < 0
    · have back : -|e| = e := by rw [abs_of_neg negative,neg_neg]
      simp [exponentText,exponentOf,negative,signedDigits_text true _ stops,back]
    · have back : |e| = e := abs_of_nonneg (not_lt.mp negative)
      simp [exponentText,exponentOf,negative,signedDigits_text false _ stops,back]

def Unpadded (whole : Text) : Prop := whole ≠ [] ∧ (whole.head? = some '0' → whole.length = 1)

theorem unsignedLiteral_text {whole fraction : Text} (e : Option ℤ) (digits : Digits whole) (unpadded : Unpadded whole)
    (digits' : Digits fraction) (stops : Stops rest) :
    unsignedLiteral (literalText whole fraction e ++ rest) =
      some ((Nat.ofDigitChars 10 (whole ++ fraction) 0 : ℚ) * 10 ^ (e.getD 0 - fraction.length),rest) := by
  have first : digitsOf (whole ++ (fractionText fraction ++ (exponentText e ++ rest))) =
      (whole,fractionText fraction ++ (exponentText e ++ rest)) := by
    apply digitsOf_append digits
    by_cases empty : fraction = []
    · rw [empty]
      exact (breaks_exponent stops e).not_digit
    · intro c first
      rw [fractionText,if_neg empty] at first
      cases first
      rfl
  have allowed : ¬(whole = [] ∨ whole.head? = some '0' ∧ whole.length ≠ 1) := by
    rintro (empty | ⟨zero,long⟩)
    · exact unpadded.1 empty
    · exact long (unpadded.2 zero)
  have point := fractionOf_text digits' (breaks_exponent stops e)
  have power := exponentOf_text e stops
  rw [literalText,List.append_assoc,List.append_assoc,unsignedLiteral,first]
  simp [allowed,point,power]

/-- Digits that start with no zero are read as the decimal, wherever the point is put. -/
theorem unsignedLiteral_decimal {d : Decimal} (some_ : 0 < d.digits) (stops : Stops rest) :
    unsignedLiteral (d.text ++ rest) = some (d.value,rest) := by
  have all := digits_toDigits d.digits
  have start : (Nat.toDigits 10 d.digits).head? ≠ some '0' := fun zero => some_.ne' (no_leading_zero _ zero)
  have number : Nat.ofDigitChars 10 (Nat.toDigits 10 d.digits) 0 = d.digits := Nat.ofDigitChars_ten_toDigits
  have nonempty : Nat.toDigits 10 d.digits ≠ [] := Nat.toDigits_ne_nil
  unfold Decimal.text Decimal.value
  dsimp only
  generalize Nat.toDigits 10 d.digits = digits at *
  have taken (n : ℕ) : Digits (digits.take n) := fun c inside => all c (List.mem_of_mem_take inside)
  have left (n : ℕ) : Digits (digits.drop n) := fun c inside => all c (List.mem_of_mem_drop inside)
  have unpadded (n : ℕ) (some_ : 0 < n) : Unpadded (digits.take n) := by
    constructor
    · simp [nonempty,some_.ne']
    · intro zero
      rw [List.head?_take,if_neg some_.ne'] at zero
      exact absurd zero start
  have some_ : 0 < digits.length := List.length_pos_iff.mpr nonempty
  split_ifs with whole point leading
  · have unpadded : Unpadded (digits ++ zeros (d.exponent + digits.length - digits.length)) := by
      constructor
      · simp [nonempty]
      · intro zero
        rw [List.head?_append_of_ne_nil _ nonempty] at zero
        exact absurd zero start
    rw [unsignedLiteral_text none (digits_append all (digits_zeros _)) unpadded digits_nil stops,List.append_nil]
    rw [ofDigitChars_append_zeros _ (by omega),number]
    simp
  · have some_ : 0 < (d.exponent + digits.length).toNat := by omega
    have power : (0 : ℤ) - (digits.drop (d.exponent + digits.length).toNat).length = d.exponent := by
      rw [List.length_drop]
      omega
    rw [unsignedLiteral_text none (taken _) (unpadded _ some_) (left _) stops,List.take_append_drop,number]
    rw [Option.getD_none,power]
  · have power : (0 : ℤ) - (zeros (-(d.exponent + digits.length)) ++ digits).length = d.exponent := by
      rw [List.length_append,zeros,List.length_replicate]
      omega
    have unpadded : Unpadded ['0'] := ⟨nofun,fun _ => rfl⟩
    have zero : Digits ['0'] := digits_zeros 1
    have skipped : Nat.ofDigitChars 10 ['0'] 0 = 0 := rfl
    rw [unsignedLiteral_text none zero unpadded (digits_append (digits_zeros _) all) stops]
    rw [Nat.ofDigitChars_append,skipped,ofDigitChars_prepend_zeros,number,Option.getD_none,power]
  · have power : (d.exponent + digits.length - 1) - (digits.drop 1).length = d.exponent := by
      rw [List.length_drop]
      omega
    rw [unsignedLiteral_text _ (taken 1) (unpadded 1 one_pos) (left 1) stops,List.take_append_drop,number]
    rw [Option.getD_some,power]

theorem literal_head {whole : Text} (digits : Digits whole) (some_ : whole ≠ []) (fraction : Text) (e : Option ℤ) :
    ∃ c more, literalText whole fraction e = c :: more ∧ c.isDigit = true := by
  cases whole with
  | nil => exact absurd rfl some_
  | cons c whole => exact ⟨c,_,rfl,digits c List.mem_cons_self⟩

theorem text_head (d : Decimal) : ∃ c more, d.text = c :: more ∧ c.isDigit = true := by
  have all := digits_toDigits d.digits
  have nonempty : Nat.toDigits 10 d.digits ≠ [] := Nat.toDigits_ne_nil
  unfold Decimal.text
  dsimp only
  generalize Nat.toDigits 10 d.digits = digits at *
  have taken (n : ℕ) : Digits (digits.take n) := fun c inside => all c (List.mem_of_mem_take inside)
  have kept (n : ℕ) (some_ : 0 < n) : digits.take n ≠ [] := by simp [nonempty,some_.ne']
  split_ifs with whole point leading
  · exact literal_head (digits_append all (digits_zeros _)) (by simp [nonempty]) _ _
  · exact literal_head (taken _) (kept _ (by omega)) _ _
  · exact literal_head (digits_zeros 1) nofun _ _
  · exact literal_head (taken 1) (kept 1 one_pos) _ _

theorem numberText_head (q : ℚ) : ∃ c more, numberText q = c :: more ∧ (c = '-' ∨ c.isDigit = true) := by
  unfold numberText
  split_ifs
  · exact ⟨'0',[],rfl,.inr rfl⟩
  · exact ⟨'-',_,rfl,.inl rfl⟩
  · obtain ⟨c,more,text,digit⟩ := text_head (Decimal.shortest q)
    exact ⟨c,more,text,.inr digit⟩

theorem numberLiteral_digit {c : Char} (digit : c.isDigit = true) (text : Text) :
    numberLiteral (c :: text) = (unsignedLiteral (c :: text)).map fun (q,rest) => (Double.ofRat q,rest) := by
  have other : c ≠ '-' := by
    intro same
    rw [same] at digit
    cases digit
  simp [numberLiteral,other]

theorem unsignedLiteral_shortest {q : ℚ} (positive : 0 < q) (double : Double.ofRat q = .finite q) (stops : Stops rest) :
    ∃ r, unsignedLiteral ((Decimal.shortest q).text ++ rest) = some (r,rest) ∧ Double.ofRat r = .finite q := by
  have read := Decimal.shortestFrom_readAs positive double 17 1
  exact ⟨_,unsignedLiteral_decimal (Decimal.digits_pos positive read) stops,read⟩

/-- The text of a double is read as it. -/
theorem numberLiteral_text {q : ℚ} (double : Double.ofRat q = .finite q) (stops : Stops rest) :
    numberLiteral (numberText q ++ rest) = some (.finite q,rest) := by
  unfold numberText
  split_ifs with zero negative
  · have digits : Digits ['0'] := digits_zeros 1
    have read := unsignedLiteral_text none digits ⟨nofun,fun _ => rfl⟩ digits_nil stops
    have shown : literalText ['0'] [] none ++ rest = '0' :: rest := rfl
    have none_ : Nat.ofDigitChars 10 ['0'] 0 = 0 := rfl
    rw [shown] at read
    rw [zero] at double ⊢
    rw [List.cons_append,List.nil_append,numberLiteral_digit rfl,read]
    simp [none_,double]
  · have double' : Double.ofRat (-q) = .finite (-q) := by
      rw [Double.ofRat_neg,double]
      rfl
    obtain ⟨r,read,same⟩ := unsignedLiteral_shortest (neg_pos.mpr negative) double' stops
    rw [List.cons_append,numberLiteral,read]
    simp [Double.ofRat_neg,same,Double.neg]
  · have positive : 0 < q := lt_of_le_of_ne (not_lt.mp negative) (Ne.symm zero)
    obtain ⟨r,read,same⟩ := unsignedLiteral_shortest positive double stops
    obtain ⟨c,more,text,digit⟩ := text_head (Decimal.shortest q)
    rw [text,List.cons_append] at read ⊢
    rw [numberLiteral_digit digit,read]
    simp [same]

end Reading

end RatifyOs.Data
