import Mathlib.Data.Int.Notation
import Mathlib.Data.Nat.Notation

/-! Values `JSON.stringify` can write. An object is its own keys in insertion order; the
numbers of this program's objects are integers. -/
namespace RatifyOs.Data

/-- A text, as its characters. -/
abbrev Text := List Char

/-- What a string's `length` counts and its order compares. -/
def codeUnits (s : String) : List ℕ :=
  s.toList.flatMap fun c =>
    if c.toNat < 65536 then [c.toNat]
    else [55296 + (c.toNat - 65536) / 1024,56320 + (c.toNat - 65536) % 1024]

inductive Json where
  | null
  | bool (value : Bool)
  | num (value : ℤ)
  | str (value : String)
  | arr (items : List Json)
  | obj (fields : List (String × Json))

namespace Json

def strings (values : List String) : Json := .arr (values.map .str)

/-- A value of type `string | null`. -/
def nullable : Option String → Json
  | some value => .str value
  | none => .null

def quoteMark : Char := Char.ofNat 34

def backslash : Char := Char.ofNat 92

/-- The letter of a two-character escape. -/
def letter (code : ℕ) : Option Char :=
  if code = 34 then some quoteMark
  else if code = 92 then some backslash
  else if code = 8 then some 'b'
  else if code = 12 then some 'f'
  else if code = 10 then some 'n'
  else if code = 13 then some 'r'
  else if code = 9 then some 't'
  else none

def hexDigit (n : ℕ) : Char := if n < 10 then Char.ofNat (n + 48) else Char.ofNat (n + 87)

def escape (c : Char) : Text :=
  match letter c.toNat with
  | some l => [backslash,l]
  | none =>
    if c.toNat < 32 then [backslash,'u','0','0',hexDigit (c.toNat / 16),hexDigit (c.toNat % 16)] else [c]

/-- `JSON.stringify` of a string. -/
def quote (s : String) : Text := quoteMark :: (s.toList.flatMap escape ++ [quoteMark])

/-- `JSON.stringify` of a number. -/
def number (n : ℤ) : Text := (toString n).toList

end Json

end RatifyOs.Data
