import Mathlib.Data.PNat.Basic
import RatifyOs.Data.Double
import RatifyOs.Data.Utf16

/-! `chunkTelegramText`: a text as messages of a limited length. -/
namespace RatifyOs.Gateway.Channels
open Data

def newline : Fin 65536 := 10

/-- `rest.lastIndexOf("\n", max)` -/
def lastNewline (rest : Utf16) : ℕ → Option ℕ
  | 0 => if rest[0]? = some newline then some 0 else none
  | max + 1 => if rest[max + 1]? = some newline then some (max + 1) else lastNewline rest max

def cut (max : ℕ+) (rest : Utf16) : ℕ :=
  match lastNewline rest max with
  | some i => if i < 1 then max else i + 1
  | none => max

section Cut

theorem lastNewline_some {rest : Utf16} {max i : ℕ} (found : lastNewline rest max = some i) :
    i ≤ max ∧ rest[i]? = some newline ∧ ∀ j, i < j → j ≤ max → rest[j]? ≠ some newline := by
  induction max with
  | zero =>
    rw [lastNewline] at found
    split_ifs at found with here
    cases found
    exact ⟨le_rfl,here,fun j above within => absurd above (Nat.not_lt.mpr within)⟩
  | succ max ih =>
    rw [lastNewline] at found
    split_ifs at found with here
    · cases found
      exact ⟨le_rfl,here,fun j above within => absurd above (Nat.not_lt.mpr within)⟩
    · obtain ⟨within,newline_,last⟩ := ih found
      refine ⟨Nat.le_succ_of_le within,newline_,fun j above below => ?_⟩
      rcases Nat.le_succ_iff.mp below with inside | rfl
      · exact last j above inside
      · exact here

theorem lastNewline_none {rest : Utf16} {max : ℕ} (absent : lastNewline rest max = none) :
    ∀ j ≤ max, rest[j]? ≠ some newline := by
  induction max with
  | zero =>
    rw [lastNewline] at absent
    split_ifs at absent with here
    intro j within
    rwa [Nat.le_zero.mp within]
  | succ max ih =>
    rw [lastNewline] at absent
    split_ifs at absent with here
    intro j below
    rcases Nat.le_succ_iff.mp below with inside | rfl
    · exact ih absent j inside
    · exact here

/-- After the last newline that is not the first unit, or at the limit. -/
theorem cut_cases (max : ℕ+) (rest : Utf16) :
    (∃ i : ℕ, 0 < i ∧ i ≤ max ∧ rest[i]? = some newline ∧ (∀ j, i < j → j ≤ max → rest[j]? ≠ some newline) ∧
      cut max rest = i + 1) ∨
    (∀ j : ℕ, 0 < j → j ≤ max → rest[j]? ≠ some newline) ∧ cut max rest = max := by
  unfold cut
  cases found : lastNewline rest max with
  | none => exact .inr ⟨fun j _ within => lastNewline_none found j within,rfl⟩
  | some i =>
    obtain ⟨within,newline_,last⟩ := lastNewline_some found
    rcases i.eq_zero_or_pos with rfl | positive
    · exact .inr ⟨last,rfl⟩
    · exact .inl ⟨i,positive,within,newline_,last,if_neg (Nat.not_lt.mpr positive)⟩

theorem cut_pos (max : ℕ+) (rest : Utf16) : 0 < cut max rest := by
  rcases cut_cases max rest with ⟨i,-,-,-,-,here⟩ | ⟨-,here⟩
  · exact here ▸ i.succ_pos
  · exact here ▸ max.pos

theorem cut_line {max : ℕ+} {rest : Utf16} {i : ℕ} (positive : 0 < i) (within : i ≤ max)
    (newline_ : rest[i]? = some newline) (last : ∀ j, i < j → j ≤ max → rest[j]? ≠ some newline) :
    cut max rest = i + 1 := by
  rcases cut_cases max rest with ⟨k,-,inside,here,after,rfl_⟩ | ⟨free,-⟩
  · rcases Nat.lt_trichotomy i k with below | same | above
    · exact absurd here (last k below inside)
    · rw [rfl_,same]
    · exact absurd newline_ (after i above within)
  · exact absurd newline_ (free i positive within)

theorem cut_full {max : ℕ+} {rest : Utf16} (free : ∀ j : ℕ, 0 < j → j ≤ max → rest[j]? ≠ some newline) :
    cut max rest = max := by
  rcases cut_cases max rest with ⟨k,positive,within,here,-,-⟩ | ⟨-,here⟩
  · exact absurd here (free k positive within)
  · exact here

end Cut

/-- The loop, where `rest` is what is left of the text. -/
def chunks (max : ℕ+) (rest : Utf16) : List Utf16 :=
  if rest = [] then []
  else if rest.length ≤ max then [rest]
  else rest.take (cut max rest) :: chunks max (rest.drop (cut max rest))
termination_by rest.length
decreasing_by
  have positive := cut_pos max rest
  have := List.length_pos_of_ne_nil ‹¬rest = []›
  rw [List.length_drop]
  omega

theorem toNat_num_pos {q : ℚ} (integer : q.den = 1 ∧ 1 ≤ q) : 0 < q.num.toNat := by
  have positive : 0 < q.num := Rat.num_pos.mpr (lt_of_lt_of_le one_pos integer.2)
  omega

def chunkTelegramText (text : Utf16) (max : Double) : Except String (List Utf16) :=
  match max with
  | .finite q =>
    if integer : q.den = 1 ∧ 1 ≤ q then
      .ok (chunks ⟨q.num.toNat,toNat_num_pos integer⟩ text)
    else .error "Invalid message length"
  | _ => .error "Invalid message length"

section Lossless

theorem chunks_short {max : ℕ+} {rest : Utf16} (some_ : rest ≠ []) (short : rest.length ≤ max) :
    chunks max rest = [rest] := by
  rw [chunks,if_neg some_,if_pos short]

theorem chunks_long {max : ℕ+} {rest : Utf16} (long : max < rest.length) :
    chunks max rest = rest.take (cut max rest) :: chunks max (rest.drop (cut max rest)) := by
  have some_ : rest ≠ [] := List.ne_nil_of_length_pos (Nat.zero_lt_of_lt long)
  rw [chunks,if_neg some_,if_neg (Nat.not_le.mpr long)]

theorem flatten_chunks (max : ℕ+) (rest : Utf16) : (chunks max rest).flatten = rest := by
  induction rest using chunks.induct max with
  | case1 => rw [chunks,if_pos rfl,List.flatten_nil]
  | case2 rest some_ short => rw [chunks_short some_ short,List.flatten_singleton]
  | case3 rest _ long ih => rw [chunks_long (Nat.not_le.mp long),List.flatten_cons,ih,List.take_append_drop]

theorem chunks_nonempty (max : ℕ+) (rest : Utf16) : ∀ c ∈ chunks max rest, c ≠ [] := by
  induction rest using chunks.induct max with
  | case1 => simp [chunks]
  | case2 rest some_ short => simpa [chunks_short some_ short] using some_
  | case3 rest some_ long ih =>
    rw [chunks_long (Nat.not_le.mp long)]
    intro c inside
    rcases List.mem_cons.mp inside with rfl | later
    · have positive := cut_pos max rest
      simp [some_,positive.ne']
    · exact ih c later

end Lossless

/-- Where a message begins: at the start of the text and, while more than a message is left, after
the last newline among the units of the message but its first, or a whole message further on. -/
inductive Start (text : Utf16) (max : ℕ) : ℕ → Prop
  | first : Start text max 0
  | line {p q : ℕ} (before : Start text max p) (more : p + max < text.length) (above : p < q) (within : q < p + max)
      (newline_ : text[q]? = some newline) (last : ∀ i, q < i → i ≤ p + max → text[i]? ≠ some newline) :
      Start text max (q + 1)
  | full {p : ℕ} (before : Start text max p) (more : p + max < text.length)
      (free : ∀ i, p < i → i ≤ p + max → text[i]? ≠ some newline) : Start text max (p + max)

/-- No newline stands just behind a message of full length. -/
def Clear (text : Utf16) (max : ℕ) : Prop := ∀ p, Start text max p → text[p + max]? ≠ some newline

section Bound

variable {text : Utf16} {max : ℕ+}

theorem bounded_of_clear (clear : Clear text max) {p : ℕ} (start : Start text max p) :
    ∀ c ∈ chunks max (text.drop p), c.length ≤ max := by
  generalize left : text.drop p = rest
  induction rest using chunks.induct max generalizing p with
  | case1 => simp [chunks]
  | case2 rest some_ short => simpa [chunks_short some_ short] using short
  | case3 rest _ long ih =>
    subst left
    have more : p + max < text.length := by
      rw [List.length_drop] at long
      omega
    have edge := clear p start
    rw [chunks_long (Nat.not_le.mp long)]
    intro c inside
    rcases cut_cases max (text.drop p) with ⟨i,positive,within,newline_,last,here⟩ | ⟨free,here⟩
    · rw [List.getElem?_drop] at newline_
      have inner : i ≠ max := by
        rintro rfl
        exact edge newline_
      rcases List.mem_cons.mp inside with rfl | later
      · rw [here,List.length_take]
        omega
      · refine ih (p := p + i + 1) (.line start more (by omega) (by omega) newline_ fun j above below => ?_) ?_ c later
        · have later_ := last (j - p) (by omega) (by omega)
          rwa [List.getElem?_drop,Nat.add_sub_cancel' (by omega)] at later_
        · rw [List.drop_drop,here,Nat.add_assoc]
    · rcases List.mem_cons.mp inside with rfl | later
      · rw [here,List.length_take]
        omega
      · refine ih (p := p + max) (.full start more fun j above below => ?_) ?_ c later
        · have later_ := free (j - p) (by omega) (by omega)
          rwa [List.getElem?_drop,Nat.add_sub_cancel' (by omega)] at later_
        · rw [List.drop_drop,here]

/-- What the loop cuts off from a later start it cuts off from the text. -/
theorem chunks_start {p : ℕ} (start : Start text max p) : ∀ c ∈ chunks max (text.drop p), c ∈ chunks max text := by
  induction start with
  | first =>
    intro c inside
    rwa [List.drop_zero] at inside
  | @line p q before more above within newline_ last ih =>
    have cut_ : cut max (text.drop p) = q - p + 1 := by
      refine cut_line (by omega) (by omega) ?_ fun j above below => ?_
      · rwa [List.getElem?_drop,Nat.add_sub_cancel' (by omega)]
      · rw [List.getElem?_drop]
        exact last (p + j) (by omega) (by omega)
    intro c inside
    apply ih
    rw [chunks_long (by rw [List.length_drop]; omega),cut_,List.drop_drop,show p + (q - p + 1) = q + 1 by omega]
    exact .tail _ inside
  | @full p before more free ih =>
    have cut_ : cut max (text.drop p) = max := by
      refine cut_full fun j above below => ?_
      rw [List.getElem?_drop]
      exact free (p + j) (by omega) (by omega)
    intro c inside
    apply ih
    rw [chunks_long (by rw [List.length_drop]; omega),cut_,List.drop_drop]
    exact .tail _ inside

theorem clear_of_bounded (bounded : ∀ c ∈ chunks max text, c.length ≤ max) : Clear text max := by
  intro p start edge
  have more : p + max < text.length := (List.getElem?_eq_some_iff.mp edge).1
  have cut_ : cut max (text.drop p) = max + 1 :=
    cut_line max.pos le_rfl (by rwa [List.getElem?_drop]) fun j above below => absurd above (Nat.not_lt.mpr below)
  have long : (max : ℕ) < (text.drop p).length := by
    rw [List.length_drop]
    omega
  have inside : (text.drop p).take (max + 1) ∈ chunks max text := by
    apply chunks_start start
    rw [chunks_long long,cut_]
    exact .head _
  have short := bounded _ inside
  rw [List.length_take,min_eq_left long] at short
  omega

end Bound

theorem chunkTelegramText_whole (text : Utf16) (max : ℕ+) :
    chunkTelegramText text (.finite (max : ℕ)) = .ok (chunks max text) := by
  have integer : ((max : ℕ) : ℚ).den = 1 ∧ 1 ≤ ((max : ℕ) : ℚ) := ⟨Rat.den_natCast _,Nat.one_le_cast.mpr max.pos⟩
  rw [chunkTelegramText,dif_pos integer]
  rfl

theorem chunkTelegramText_fraction {text : Utf16} {max : Double} (fraction : ∀ n : ℕ, max ≠ .finite n) :
    chunkTelegramText text max = .error "Invalid message length" := by
  cases max with
  | finite q =>
    rw [chunkTelegramText,dif_neg]
    intro ⟨integer,positive⟩
    have whole : (q.num : ℚ) = q := Rat.coe_int_num_of_den_eq_one integer
    have above : 0 ≤ q.num := Rat.num_nonneg.mpr (zero_le_one.trans positive)
    apply fraction q.num.toNat
    rw [← Int.cast_natCast,Int.toNat_of_nonneg above,whole]
  | infinite _ => rfl
  | nan => rfl

theorem chunkTelegramText_bounded_iff (text : Utf16) (max : Double) (positive : 1 ≤ max) :
    (∃ out, chunkTelegramText text max = .ok out ∧ out.flatten = text ∧
      ∀ c ∈ out, c ≠ [] ∧ Double.finite c.length ≤ max) ↔
    ∃ n : ℕ, max = .finite n ∧ Clear text n := by
  by_cases whole : ∃ n : ℕ, max = .finite n
  · obtain ⟨n,rfl⟩ := whole
    have above : 0 < n := Nat.one_le_cast.mp (Double.finite_le.mp positive)
    have result := chunkTelegramText_whole text ⟨n,above⟩
    constructor
    · intro ⟨out,done,_,bounded⟩
      cases done.symm.trans result
      exact ⟨n,rfl,clear_of_bounded fun c inside => Nat.cast_le.mp (Double.finite_le.mp (bounded c inside).2)⟩
    · intro ⟨m,same,clear⟩
      cases Nat.cast_injective (Double.finite.inj same)
      refine ⟨_,result,flatten_chunks _ _,fun c inside => ⟨chunks_nonempty _ _ c inside,?_⟩⟩
      exact Double.finite_le.mpr (Nat.cast_le.mpr (bounded_of_clear clear .first c inside))
  · have fraction : ∀ n : ℕ, max ≠ .finite n := fun n same => whole ⟨n,same⟩
    constructor
    · intro ⟨out,done,_⟩
      rw [chunkTelegramText_fraction fraction] at done
      cases done
    · intro ⟨n,same,_⟩
      exact absurd same (fraction n)

/-- `"aa\nb"` in messages of two units. -/
theorem chunkTelegramText_overrun :
    chunkTelegramText (Utf16.ofString "aa\nb") 2 = .ok [Utf16.ofString "aa\n",Utf16.ofString "b"] ∧
    ¬Double.finite (Utf16.ofString "aa\n").length ≤ 2 := by
  constructor
  · apply (chunkTelegramText_whole _ 2).trans
    rw [chunks_long (by decide),chunks_short (by decide) (by decide)]
    rfl
  · decide

theorem chunkTelegramText_bounded_iff_two :
    1 ≤ (2 : Double) ∧
    ∃ out, chunkTelegramText (Utf16.ofString "a\nbc") 2 = .ok out ∧ out.flatten = Utf16.ofString "a\nbc" ∧
      ∀ c ∈ out, c ≠ [] ∧ Double.finite c.length ≤ 2 := by
  have positive : 1 ≤ (2 : Double) := by decide
  refine ⟨positive,(chunkTelegramText_bounded_iff _ 2 positive).mpr ⟨2,rfl,fun p _ edge => ?_⟩⟩
  have inside : p + 2 < 4 := (List.getElem?_eq_some_iff.mp edge).1
  have low : p < 2 := Nat.lt_of_add_lt_add_right inside
  interval_cases p <;> cases edge

end RatifyOs.Gateway.Channels
