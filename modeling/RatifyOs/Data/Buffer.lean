import Mathlib.Data.UInt

/-! Node's `Buffer` as a list of bytes, with the two text encodings the signer uses. -/
namespace RatifyOs.Data

abbrev Bytes := List UInt8

namespace Bytes

private def base64Char (n : ℕ) : Char :=
  if n < 26 then Char.ofNat (n + 65)
  else if n < 52 then Char.ofNat (n + 71)
  else if n < 62 then Char.ofNat (n - 4)
  else if n = 62 then '+' else '/'

/-- The decoder reads the URL alphabet as well; a byte of neither is skipped. -/
private def base64Value (c : UInt8) : Option ℕ :=
  let n := c.toNat
  if 65 ≤ n ∧ n ≤ 90 then some (n - 65)
  else if 97 ≤ n ∧ n ≤ 122 then some (n - 71)
  else if 48 ≤ n ∧ n ≤ 57 then some (n + 4)
  else if n = 43 ∨ n = 45 then some 62
  else if n = 47 ∨ n = 95 then some 63
  else none

private def base64Groups : Bytes → List Char
  | a :: b :: c :: rest =>
    let n := a.toNat * 65536 + b.toNat * 256 + c.toNat
    base64Char (n / 262144) :: base64Char (n / 4096 % 64) :: base64Char (n / 64 % 64) ::
      base64Char (n % 64) :: base64Groups rest
  | [a,b] =>
    let n := a.toNat * 1024 + b.toNat * 4
    [base64Char (n / 4096),base64Char (n / 64 % 64),base64Char (n % 64),'=']
  | [a] => [base64Char (a.toNat / 4),base64Char (a.toNat % 4 * 16),'=','=']
  | [] => []

private def base64Bytes : List ℕ → Bytes
  | a :: b :: c :: d :: rest =>
    .ofNat (a * 4 + b / 16) :: .ofNat (b % 16 * 16 + c / 4) :: .ofNat (c % 4 * 64 + d) ::
      base64Bytes rest
  | [a,b,c] => [.ofNat (a * 4 + b / 16),.ofNat (b % 16 * 16 + c / 4)]
  | [a,b] => [.ofNat (a * 4 + b / 16)]
  | _ => []

/-- `buffer.toString("base64")` -/
def toBase64 (bytes : Bytes) : String := String.ofList (base64Groups bytes)

theorem toBase64_ne_empty {bytes : Bytes} (some_ : bytes ≠ []) : bytes.toBase64 ≠ "" := by
  intro empty
  have none_ : base64Groups bytes = [] := by
    rw [toBase64] at empty
    exact String.ofList_eq_empty_iff.mp empty
  match bytes with
  | [] => exact some_ rfl
  | [_] => simp [base64Groups] at none_
  | [_,_] => simp [base64Groups] at none_
  | _ :: _ :: _ :: _ => simp [base64Groups] at none_

/-- `Buffer.from(text,"base64")`, which stops at the padding and never throws. The bytes
of a character outside of ASCII are in neither alphabet. -/
def ofBase64 (text : String) : Bytes :=
  base64Bytes ((text.toByteArray.data.toList.takeWhile (· ≠ 61)).filterMap base64Value)

section Base64

/-- The values of the digits in front of the padding. -/
private def base64Values (digits : List Char) : List ℕ :=
  ((digits.flatMap String.utf8EncodeChar).takeWhile (· ≠ 61)).filterMap base64Value

private theorem base64Values_cons {n : ℕ} (small : n < 64) (digits : List Char) :
    base64Values (base64Char n :: digits) = n :: base64Values digits := by
  have digit : ∀ n < 64, ∃ b, String.utf8EncodeChar (base64Char n) = [b] ∧ b ≠ 61 ∧ base64Value b = some n := by
    intro n small
    have computed : ∀ n < 64, String.utf8EncodeChar (base64Char n) = [(base64Char n).toNat.toUInt8] ∧
        (base64Char n).toNat.toUInt8 ≠ 61 ∧ base64Value (base64Char n).toNat.toUInt8 = some n := by decide
    exact ⟨_,computed n small⟩
  obtain ⟨b,byte,other,value⟩ := digit n small
  simp [base64Values,byte,other,value]

private theorem base64Bytes_values (bytes : Bytes) : base64Bytes (base64Values (base64Groups bytes)) = bytes := by
  induction bytes using base64Groups.induct with
  | case1 a b c rest ih =>
    have ha := a.toNat_lt
    have hb := b.toNat_lt
    have hc := c.toNat_lt
    rw [base64Groups,base64Values_cons (by omega),base64Values_cons (by omega),base64Values_cons (by omega),
      base64Values_cons (by omega),base64Bytes,ih]
    congr 1
    · exact UInt8.toNat_inj.mp (by simp; omega)
    · congr 1
      · exact UInt8.toNat_inj.mp (by simp; omega)
      · congr 1
        exact UInt8.toNat_inj.mp (by simp; omega)
  | case2 a b =>
    have ha := a.toNat_lt
    have hb := b.toNat_lt
    have padding : base64Values ['='] = [] := by decide
    rw [base64Groups,base64Values_cons (by omega),base64Values_cons (by omega),base64Values_cons (by omega),
      padding,base64Bytes]
    congr 1
    · exact UInt8.toNat_inj.mp (by simp; omega)
    · congr 1
      exact UInt8.toNat_inj.mp (by simp; omega)
  | case3 a =>
    have ha := a.toNat_lt
    have padding : base64Values ['=','='] = [] := by decide
    rw [base64Groups,base64Values_cons (by omega),base64Values_cons (by omega),padding,base64Bytes]
    congr 1
    exact UInt8.toNat_inj.mp (by simp; omega)
  | case4 => decide

@[simp] theorem ofBase64_toBase64 (bytes : Bytes) : ofBase64 (toBase64 bytes) = bytes := by
  have read : (toBase64 bytes).toByteArray.data.toList = (base64Groups bytes).flatMap String.utf8EncodeChar := by
    simp [toBase64,List.utf8Encode]
  rw [ofBase64,read]
  exact base64Bytes_values bytes

end Base64

private def hexDigit (n : ℕ) : Char := if n < 10 then Char.ofNat (n + 48) else Char.ofNat (n + 87)

/-- `buffer.toString("hex")` -/
def toHex (bytes : Bytes) : String :=
  String.ofList (bytes.flatMap fun b => [hexDigit (b.toNat / 16),hexDigit (b.toNat % 16)])

example : toBase64 [77,97,110,1] = "TWFuAQ==" ∧ ofBase64 "TWFu\nAQ==" = [77,97,110,1] := by decide

example : toHex [0,175] = "00af" := by decide

section Hex

private theorem toHex_cons (b : UInt8) (bytes : Bytes) : (toHex (b :: bytes)).toList =
    hexDigit (b.toNat / 16) :: hexDigit (b.toNat % 16) :: (toHex bytes).toList := by
  simp [toHex]

private theorem hexDigit_injective : ∀ a < 16, ∀ b < 16, hexDigit a = hexDigit b → a = b := by decide

/-- A text of hex digits, as the prefixes of instruction data are written. -/
def HexDigit (c : Char) : Prop := c.isDigit = true ∨ (97 ≤ c.toNat ∧ c.toNat ≤ 102)

private theorem hexDigit_surjective {c : Char} (hex : HexDigit c) : ∃ n < 16, hexDigit n = c := by
  obtain digit | ⟨low,high⟩ := hex
  · have range : 48 ≤ c.toNat ∧ c.toNat ≤ 57 := by
      rw [Char.isDigit,Bool.and_eq_true,decide_eq_true_eq,decide_eq_true_eq] at digit
      exact digit
    refine ⟨c.toNat - 48,by omega,?_⟩
    rw [hexDigit,if_pos (by omega),Nat.sub_add_cancel range.1,Char.ofNat_toNat]
  · refine ⟨c.toNat - 87,by omega,?_⟩
    rw [hexDigit,if_neg (by omega),Nat.sub_add_cancel (by omega),Char.ofNat_toNat]

theorem length_toHex (bytes : Bytes) : (toHex bytes).toList.length = 2 * bytes.length := by
  induction bytes with
  | nil => rfl
  | cons b bytes ih =>
    rw [toHex_cons,List.length_cons,List.length_cons,ih,List.length_cons]
    omega

/-- The prefixes of bytes and of their hex text are the same. -/
theorem toHex_prefix_iff {a b : Bytes} : (toHex a).toList <+: (toHex b).toList ↔ a <+: b := by
  induction a generalizing b with
  | nil => simp [toHex]
  | cons x a ih =>
    cases b with
    | nil => simp [toHex]
    | cons y b =>
      rw [toHex_cons,toHex_cons,List.cons_prefix_cons,List.cons_prefix_cons,List.cons_prefix_cons,ih]
      constructor
      · intro ⟨high,low,rest⟩
        have hx := x.toNat_lt
        have hy := y.toNat_lt
        have same := hexDigit_injective _ (by omega) _ (by omega) high
        have same' := hexDigit_injective _ (by omega) _ (by omega) low
        exact ⟨UInt8.toNat_inj.mp (by omega),rest⟩
      · intro ⟨same,rest⟩
        exact ⟨by rw [same],by rw [same],rest⟩

theorem exists_toHex : ∀ {digits : List Char}, digits.length % 2 = 0 → (∀ c ∈ digits, HexDigit c) →
    ∃ bytes : Bytes, (toHex bytes).toList = digits
  | [], _, _ => ⟨[],rfl⟩
  | [_], even, _ => nomatch even
  | c :: d :: digits, even, hex => by
    simp only [List.forall_mem_cons] at hex
    have even' : digits.length % 2 = 0 := by
      simp only [List.length_cons] at even
      omega
    obtain ⟨bytes,rest⟩ := exists_toHex even' hex.2.2
    obtain ⟨high,_,first⟩ := hexDigit_surjective hex.1
    obtain ⟨low,_,second⟩ := hexDigit_surjective hex.2.1
    refine ⟨.ofNat (high * 16 + low) :: bytes,?_⟩
    have value : (UInt8.ofNat (high * 16 + low)).toNat = high * 16 + low := by
      simp
      omega
    rw [toHex_cons,value,rest,← first,← second]
    congr 2
    · omega
    · congr 1
      omega

end Hex

end Bytes

end RatifyOs.Data
