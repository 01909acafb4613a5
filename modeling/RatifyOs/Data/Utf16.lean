import Mathlib.Data.List.Lex
import RatifyOs.Data.JsonParse

/-! A string as its code units, which need not be whole characters, and its text in JSON. -/
namespace RatifyOs.Data
open Json

abbrev Utf16 := List (Fin 65536)

instance neZero_65536 : NeZero 65536 := ⟨Nat.succ_ne_zero 65535⟩

namespace Utf16

section Text

def Leading (u : Fin 65536) : Prop := 55296 ≤ u.val ∧ u.val < 56320

def Trailing (u : Fin 65536) : Prop := 56320 ≤ u.val ∧ u.val < 57344

instance (u : Fin 65536) : Decidable (Leading u) := inferInstanceAs (Decidable (_ ∧ _))
instance (u : Fin 65536) : Decidable (Trailing u) := inferInstanceAs (Decidable (_ ∧ _))

def pair (u v : Fin 65536) : Char := Char.ofNat (65536 + (u.val - 55296) * 1024 + (v.val - 56320))

def units (c : Char) : Utf16 :=
  if c.toNat < 65536 then [Fin.ofNat 65536 c.toNat]
  else [Fin.ofNat 65536 (55296 + (c.toNat - 65536) / 1024),Fin.ofNat 65536 (56320 + (c.toNat - 65536) % 1024)]

def ofString (s : String) : Utf16 := s.toList.flatMap units

def unicodeEscape (u : Fin 65536) : Text :=
  [backslash,'u',hexDigit (u.val / 4096),hexDigit (u.val / 256 % 16),hexDigit (u.val / 16 % 16),hexDigit (u.val % 16)]

def escapeUnit (u : Fin 65536) : Text :=
  if Leading u ∨ Trailing u then unicodeEscape u else escape (Char.ofNat u.val)

/-- A surrogate is written as it is only in a pair. -/
def escaped : Utf16 → Text
  | [] => []
  | [u] => escapeUnit u
  | u :: v :: rest =>
    if Leading u ∧ Trailing v then pair u v :: escaped rest else escapeUnit u ++ escaped (v :: rest)

/-- `JSON.stringify` of a string. -/
def quote (s : Utf16) : Text := quoteMark :: (escaped s ++ [quoteMark])

end Text

section Reading

def element : Text → Option (Utf16 × Text)
  | c :: rest =>
    if c ≠ backslash then if c.toNat < 32 then none else some (units c,rest)
    else match rest with
      | 'u' :: rest => (codeUnit rest).map fun (n,rest) => ([Fin.ofNat 65536 n],rest)
      | l :: rest => (unescaped l).map fun c => (units c,rest)
      | [] => none
  | [] => none

/-- The code units up to the closing quote. -/
def elements : ℕ → Text → Option (Utf16 × Text)
  | 0, _ => none
  | _, [] => none
  | n + 1, c :: rest =>
    if c = quoteMark then some ([],rest)
    else do
      let (us,rest) ← element (c :: rest)
      let (more,rest) ← elements n rest
      return (us ++ more,rest)

/-- A string, after its opening quote. -/
def string (text : Text) : Option (Utf16 × Text) := elements (text.length + 1) text

end Reading

section RoundTrip

theorem toNat_ofNat {n : ℕ} (valid : n.isValidChar) : (Char.ofNat n).toNat = n := by
  rw [Char.ofNat,dif_pos valid]
  rfl

theorem toNat_pair {u v : Fin 65536} (leading : Leading u) (trailing : Trailing v) :
    (pair u v).toNat = 65536 + (u.val - 55296) * 1024 + (v.val - 56320) := by
  apply toNat_ofNat
  unfold Leading Trailing at *
  unfold Nat.isValidChar
  omega

theorem units_pair {u v : Fin 65536} (leading : Leading u) (trailing : Trailing v) : units (pair u v) = [u,v] := by
  have code := toNat_pair leading trailing
  unfold Leading Trailing at *
  have high : Fin.ofNat 65536 (55296 + ((pair u v).toNat - 65536) / 1024) = u := by
    ext
    rw [Fin.val_ofNat,code]
    omega
  have low : Fin.ofNat 65536 (56320 + ((pair u v).toNat - 65536) % 1024) = v := by
    ext
    rw [Fin.val_ofNat,code]
    omega
  rw [units,if_neg (by omega),high,low]

theorem units_unit {u : Fin 65536} (whole : ¬(Leading u ∨ Trailing u)) : units (Char.ofNat u.val) = [u] := by
  have valid : u.val.isValidChar := by
    unfold Leading Trailing at whole
    unfold Nat.isValidChar
    omega
  have same : Fin.ofNat 65536 u.val = u := by
    ext
    rw [Fin.val_ofNat,Nat.mod_eq_of_lt u.isLt]
  rw [units,toNat_ofNat valid,if_pos u.isLt,same]

theorem element_escape (c : Char) (rest : Text) : element (escape c ++ rest) = some (units c,rest) := by
  unfold escape
  split
  · rename_i l short
    have back := unescaped_letter short
    rw [Char.ofNat_toNat] at back
    have other : l ≠ 'u' := by
      intro same
      rw [same,unescaped_u] at back
      cases back
    simp only [List.cons_append,List.nil_append,element,ne_eq,not_true_eq_false,if_false]
    rw [back]
    rfl
  · rename_i long
    by_cases control : c.toNat < 32
    · have high := hexValue_hexDigit (c.toNat / 16) (by omega)
      have low := hexValue_hexDigit (c.toNat % 16) (by omega)
      have zero : hexValue '0' = some 0 := by decide
      have unit : c.toNat / 16 * 16 + c.toNat % 16 = c.toNat := by omega
      have small : c.toNat < 65536 := by omega
      simp [control,element,codeUnit,high,low,zero,unit,units,small]
    · simp [control,element,(letter_none long).2]

theorem element_unicode (u : Fin 65536) (rest : Text) : element (unicodeEscape u ++ rest) = some ([u],rest) := by
  have first := hexValue_hexDigit (u.val / 4096) (by omega)
  have second := hexValue_hexDigit (u.val / 256 % 16) (by omega)
  have third := hexValue_hexDigit (u.val / 16 % 16) (by omega)
  have fourth := hexValue_hexDigit (u.val % 16) (by omega)
  have back : u.val / 4096 * 4096 + u.val / 256 % 16 * 256 + u.val / 16 % 16 * 16 + u.val % 16 = u.val := by omega
  simp [unicodeEscape,element,codeUnit,first,second,third,fourth,back]

theorem element_unit (u : Fin 65536) (rest : Text) : element (escapeUnit u ++ rest) = some ([u],rest) := by
  unfold escapeUnit
  split_ifs with surrogate
  · exact element_unicode u rest
  · rw [element_escape,units_unit surrogate]

def Inside (text : Text) : Prop := ∃ d more, text = d :: more ∧ d ≠ quoteMark

theorem Inside.length_pos {text : Text} (inside : Inside text) : 0 < text.length := by
  obtain ⟨d,more,rfl,_⟩ := inside
  exact Nat.succ_pos _

theorem inside_unit (u : Fin 65536) : Inside (escapeUnit u) := by
  unfold escapeUnit
  split_ifs
  · exact ⟨backslash,_,rfl,by decide⟩
  · exact escape_head _

theorem pair_ne {u v : Fin 65536} (leading : Leading u) (trailing : Trailing v) {c : Char} (low : c.toNat < 65536) :
    pair u v ≠ c := by
  intro same
  have code := toNat_pair leading trailing
  rw [same] at code
  omega

theorem inside_pair {u v : Fin 65536} (leading : Leading u) (trailing : Trailing v) : Inside [pair u v] :=
  ⟨pair u v,[],rfl,pair_ne leading trailing (by decide)⟩

theorem element_pair {u v : Fin 65536} (leading : Leading u) (trailing : Trailing v) (rest : Text) :
    element (pair u v :: rest) = some ([u,v],rest) := by
  have other := pair_ne leading trailing (c := backslash) (by decide)
  have code := toNat_pair leading trailing
  have visible : ¬(pair u v).toNat < 32 := by omega
  simp [element,other,visible,units_pair leading trailing]

theorem elements_step {text rest left : Text} {us more : Utf16} {n : ℕ} (inside : Inside text)
    (first : element (text ++ rest) = some (us,rest)) (others : elements n rest = some (more,left)) :
    elements (n + 1) (text ++ rest) = some (us ++ more,left) := by
  obtain ⟨d,more',starts,other⟩ := inside
  rw [starts,List.cons_append] at first ⊢
  simp [elements,other,first,others]

theorem elements_escaped (s : Utf16) (rest : Text) {n : ℕ} (enough : (escaped s).length < n) :
    elements n (escaped s ++ quoteMark :: rest) = some (s,rest) := by
  induction s using escaped.induct generalizing n with
  | case1 =>
    obtain ⟨m,rfl⟩ : ∃ m, n = m + 1 := ⟨n - 1,by omega⟩
    simp [escaped,elements]
  | case2 u =>
    have some_ := (inside_unit u).length_pos
    obtain ⟨m,rfl⟩ : ∃ m, n = m + 2 := ⟨n - 2,by rw [escaped] at enough; omega⟩
    apply elements_step (inside_unit u) (element_unit u _)
    simp [elements]
  | case3 u v others both ih =>
    obtain ⟨m,rfl⟩ : ∃ m, n = m + 1 := ⟨n - 1,by omega⟩
    rw [escaped,if_pos both] at enough ⊢
    exact elements_step (inside_pair both.1 both.2) (element_pair both.1 both.2 _) (ih (by simpa using enough))
  | case4 u v others apart ih =>
    have some_ := (inside_unit u).length_pos
    obtain ⟨m,rfl⟩ : ∃ m, n = m + 1 := ⟨n - 1,by omega⟩
    rw [escaped,if_neg apart,List.length_append] at enough
    rw [escaped,if_neg apart,List.append_assoc]
    exact elements_step (inside_unit u) (element_unit u _) (ih (by omega))

/-- Every string is read back from its text, lone surrogates too. -/
theorem string_quote (s : Utf16) (rest : Text) : string (escaped s ++ quoteMark :: rest) = some (s,rest) := by
  apply elements_escaped
  rw [List.length_append]
  omega

example : quote [55357,56832,55296] = "\"😀\\ud800\"".toList := by decide

theorem units_append {c d : Char} {a b : Utf16} (same : units c ++ a = units d ++ b) : c = d ∧ a = b := by
  have valid : c.toNat.isValidChar := c.valid
  have valid' : d.toNat.isValidChar := d.valid
  unfold Nat.isValidChar at valid valid'
  have equal : c.toNat = d.toNat ∧ a = b := by
    unfold units at same
    split_ifs at same
    all_goals simp only [List.cons_append,List.nil_append,List.cons.injEq,Fin.ext_iff,Fin.val_ofNat] at same
    · exact ⟨by omega,same.2⟩
    · omega
    · omega
    · exact ⟨by omega,same.2.2⟩
  exact ⟨Char.toNat_inj.mp equal.1,equal.2⟩

theorem units_ne_nil (c : Char) : units c ≠ [] := by
  unfold units
  split_ifs <;> exact List.cons_ne_nil _ _

theorem flatMap_units_injective {cs ds : List Char} (same : cs.flatMap units = ds.flatMap units) : cs = ds := by
  induction cs generalizing ds with
  | nil =>
    cases ds with
    | nil => rfl
    | cons d ds =>
      rw [List.flatMap_nil,List.flatMap_cons,eq_comm,List.append_eq_nil_iff] at same
      exact absurd same.1 (units_ne_nil d)
  | cons c cs ih =>
    cases ds with
    | nil =>
      rw [List.flatMap_nil,List.flatMap_cons,List.append_eq_nil_iff] at same
      exact absurd same.1 (units_ne_nil c)
    | cons d ds =>
      obtain ⟨rfl,others⟩ := units_append (by simpa using same)
      rw [ih others]

theorem ofString_injective {s t : String} (same : ofString s = ofString t) : s = t :=
  String.toList_injective (flatMap_units_injective same)

end RoundTrip

end Utf16

end RatifyOs.Data
