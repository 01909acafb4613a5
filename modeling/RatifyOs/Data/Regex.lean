import RatifyOs.Data.Words

/-! Regular expressions as `RegExp.prototype.test` knows them, with the flags `iu`. -/
namespace RatifyOs.Data

inductive Regex where
  | empty
  | one (accepts : Char → Bool)
  | seq (first second : Regex)
  | either (first second : Regex)
  | atLeast (count : ℕ) (repeated : Regex)
  | boundary

namespace Regex

/-- Letters that differ in case only have one image; two letters beyond ASCII have theirs in it. -/
def fold (c : Char) : Char :=
  if 'A' ≤ c ∧ c ≤ 'Z' then Char.ofNat (c.toNat + 32)
  else if c.toNat = 383 then 's'
  else if c.toNat = 8490 then 'k'
  else c

def alphanumeric (c : Char) : Bool := ('a' ≤ fold c ∧ fold c ≤ 'z') ∨ ('0' ≤ c ∧ c ≤ '9')

/-- The letters and digits with those of a string. -/
def alphanumericOr (others : String) : Regex := one fun c => alphanumeric c ∨ c ∈ others.toList

def blank : Regex := one white

/-- No white space and none of those of a string. -/
def blackExcept (others : String) : Regex := one fun c => white c = false ∧ c ∉ others.toList

def anyOf (chars : String) : Regex := one fun c => c ∈ chars.toList

def literal (text : String) : Regex := text.toList.foldr (fun l r => seq (one fun c => fold c = fold l) r) empty

def oneOf (alternatives : List Regex) : Regex :=
  match alternatives with
  | [] => one fun _ => false
  | [r] => r
  | r :: rest => either r (oneOf rest)

def optional (r : Regex) : Regex := either r empty

def sequence (parts : List Regex) : Regex := parts.foldr seq empty

/-- A place in a text: the character before it, and what follows. -/
abbrev Place := Option Char × Text

def word (c : Char) : Bool := alphanumeric c ∨ c = '_'

/-- As often as there is something left. -/
def repeatedly (f : Place → List Place) : ℕ → Place → List Place
  | 0, p => [p]
  | fuel + 1, p => p :: (f p).flatMap (repeatedly f fuel)

def times (f : Place → List Place) : ℕ → Place → List Place
  | 0, p => [p]
  | n + 1, p => (f p).flatMap (times f n)

/-- Where a match that starts at a place may end. -/
def ends : Regex → Place → List Place
  | .empty, p => [p]
  | .one accepts, (_,text) =>
    match text with
    | c :: rest => if accepts c then [(some c,rest)] else []
    | [] => []
  | .seq first second, p => (ends first p).flatMap (ends second)
  | .either first second, p => ends first p ++ ends second p
  | .atLeast count repeated, p => (times (ends repeated) count p).flatMap fun p => repeatedly (ends repeated) p.2.length p
  | .boundary, p => if p.1.any word = p.2.head?.any word then [] else [p]

def places (before : Option Char) : Text → List Place
  | [] => [(before,[])]
  | c :: rest => (before,c :: rest) :: places (some c) rest

/-- `pattern.test(text)` -/
def test (r : Regex) (text : String) : Bool := (places none text.toList).any fun p => ends r p ≠ []

end Regex

end RatifyOs.Data
