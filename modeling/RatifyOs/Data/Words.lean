import Mathlib.Data.List.Basic
import RatifyOs.Data.Json

/-! White space in a text, as `trim` and `\s` know it, and separators. -/
namespace RatifyOs.Data

/-- What follows the last separator is the same in equal lists. -/
theorem after_last {α : Type} [DecidableEq α] {xs ys xs' ys' : List α} {c : α} (absent : c ∉ ys) (absent' : c ∉ ys')
    (same : xs ++ c :: ys = xs' ++ c :: ys') : ys = ys' := by
  have last {zs : List α} (xs : List α) (absent : c ∉ zs) : (xs ++ c :: zs).reverse.takeWhile (· ≠ c) = zs.reverse := by
    rw [List.reverse_append,List.reverse_cons,List.append_assoc,List.takeWhile_append_of_pos]
    · simp
    · intro d inside
      simpa using fun equal : d = c => absent (equal ▸ List.mem_reverse.mp inside)
  have first := last xs absent
  rw [same,last xs' absent'] at first
  exact List.reverse_injective first.symm

def white (c : Char) : Bool :=
  c.toNat ∈ [9,10,11,12,13,32,160,5760,8232,8233,8239,8287,12288,65279] ∨ (8192 ≤ c.toNat ∧ c.toNat ≤ 8202)

namespace Text

def trim (text : Text) : Text := ((text.dropWhile white).reverse.dropWhile white).reverse

/-- `replace(/\s+/g," ")` -/
def squeeze : Text → Text
  | [] => []
  | c :: rest =>
    if white c = false then c :: squeeze rest
    else if rest.head?.any white then squeeze rest
    else ' ' :: squeeze rest

/-- `trim().split(/\s+/)`; nothing is left of a blank text. -/
def words (text : Text) : List Text := (text.splitOnP white).filter (· ≠ [])

theorem trim_of_plain {text : Text} (plain : ∀ c ∈ text, white c = false) : trim text = text := by
  have same : ∀ {text : Text}, (∀ c ∈ text, white c = false) → text.dropWhile white = text := by
    intro text plain
    cases text with
    | nil => rfl
    | cons c rest => simp [plain c List.mem_cons_self]
  have back : ∀ c ∈ text.reverse, white c = false := fun c inside => plain c (List.mem_reverse.mp inside)
  rw [trim,same plain,same back,List.reverse_reverse]

end Text

end RatifyOs.Data
