import Mathlib.Data.Nat.Cast.Order.Field
import RatifyOs.Data.Double

/-! Quotients that are rounded twice: to the nearest number, then down to a whole one. -/
namespace RatifyOs.Data.Double

theorem nearestEven_le_half (m : ℚ) : (nearestEven m : ℚ) ≤ m + 1 / 2 := by
  have least := Int.floor_le m
  unfold nearestEven
  dsimp only
  split_ifs <;> push_cast <;> linarith

/-- What the grid holds is a whole number of its unit. -/
theorem grid_eq {e : ℤ} {q : ℚ} : ∃ n : ℤ, grid e q = n * 2 ^ e := ⟨_,rfl⟩

/-- Two numbers of a grid that differ are a unit apart. -/
theorem unit_le {e f : ℤ} {p q : ℚ} (fine : e ≤ f) (left : grid e p = p) (right : grid f q = q) (less : p < q) :
    (2 : ℚ) ^ e ≤ q - p := by
  have unit : (0 : ℚ) < 2 ^ e := zpow_pos (by norm_num) e
  obtain ⟨k,rfl⟩ := Int.le.dest fine
  obtain ⟨m,whole⟩ : ∃ m : ℤ, p = m * 2 ^ e := ⟨_,left.symm⟩
  obtain ⟨n,whole'⟩ : ∃ n : ℤ, q = n * 2 ^ (e + k) := ⟨_,right.symm⟩
  have scaled : q = (n * 2 ^ k : ℤ) * 2 ^ e := by
    rw [whole',zpow_add₀ (by norm_num),zpow_natCast]
    push_cast
    ring
  rw [whole,scaled] at less ⊢
  have apart : m + 1 ≤ n * 2 ^ k := by exact_mod_cast lt_of_mul_lt_mul_right less unit.le
  have apart : (m : ℚ) + 1 ≤ (n * 2 ^ k : ℤ) := by exact_mod_cast apart
  nlinarith

/-- A quotient below a whole number stays below it, where the whole number times the divisor
is a number as well. -/
theorem magnitude_div_lt {x : ℚ} {n : ℕ} {m : ℤ} (positive : 0 < x) (some_ : 0 < n) (exact_ : magnitude x = x)
    (exact' : magnitude (m * n) = m * n) (less : x / n < m) : magnitude (x / n) < m := by
  have divisor : (1 : ℚ) ≤ n := by exact_mod_cast some_
  have divisor' : (0 : ℚ) < n := by linarith
  have reached : x < m * n := (div_lt_iff₀ divisor').mp less
  by_contra above
  rw [not_lt] at above
  -- the rounding moves the quotient by half a unit at most
  have moved : (m : ℚ) ≤ x / n + 2 ^ exponent (x / n) / 2 := by
    have unit : (0 : ℚ) < 2 ^ exponent (x / n) := zpow_pos (by norm_num) _
    have half := mul_le_mul_of_nonneg_right (nearestEven_le_half (x / n / 2 ^ exponent (x / n))) unit.le
    rw [add_mul,div_mul_cancel₀ _ unit.ne'] at half
    rw [magnitude,grid] at above
    linarith
  -- so the two are less than a unit of `x` apart
  have whole : (1 : ℚ) ≤ m := by
    have above_zero : (0 : ℚ) < m := (div_pos positive divisor').trans less
    exact_mod_cast above_zero
  have normal : exponent (x / n) = Int.log 2 (x / n) - 52 := by
    refine max_eq_left ?_
    by_contra tiny
    have small : exponent (x / n) = -1074 := max_eq_right (not_le.mp tiny).le
    have quotient : x / n < 2 ^ (-1 : ℤ) := by
      apply (Int.lt_zpow_succ_log_self (by norm_num : 1 < 2) (x / n)).trans_le
      push_cast
      exact zpow_le_zpow_right₀ (by norm_num) (by omega)
    have unit : (2 : ℚ) ^ exponent (x / n) ≤ 2 ^ (-1 : ℤ) := zpow_le_zpow_right₀ (by norm_num) (by omega)
    rw [zpow_neg_one] at quotient unit
    linarith
  have length : exponent (x / n) + Nat.log 2 n ≤ exponent x := by
    have product : (2 : ℚ) ^ (Int.log 2 (x / n) + Nat.log 2 n) ≤ x := by
      rw [zpow_add₀ (by norm_num),zpow_natCast]
      calc (2 : ℚ) ^ Int.log 2 (x / n) * 2 ^ Nat.log 2 n ≤ x / n * n := by
            apply mul_le_mul
            · exact_mod_cast Int.zpow_log_le_self (by norm_num : 1 < 2) (div_pos positive divisor')
            · exact_mod_cast Nat.pow_log_le_self 2 some_.ne'
            · positivity
            · exact (div_pos positive divisor').le
        _ = x := div_mul_cancel₀ x divisor'.ne'
    have logs := (Int.zpow_le_iff_le_log (by norm_num : 1 < 2) positive).mp (by push_cast; exact product)
    rw [normal]
    unfold exponent
    omega
  have logs : Int.log 2 x ≤ Int.log 2 (m * n : ℚ) := Int.log_mono_right positive reached.le
  have apart := unit_le (show exponent x ≤ exponent (m * n) by unfold exponent; omega) exact_ exact' reached
  have divisor_lt : (n : ℚ) < 2 ^ (Nat.log 2 n + 1) := by exact_mod_cast Nat.lt_pow_succ_log_self (by norm_num) n
  have unit : (0 : ℚ) < 2 ^ exponent (x / n) := zpow_pos (by norm_num) _
  have near : m * n - x < 2 ^ exponent x := by
    calc m * n - x ≤ n * 2 ^ exponent (x / n) / 2 := by
          have scaled := mul_le_mul_of_nonneg_right moved divisor'.le
          rw [add_mul,div_mul_cancel₀ _ divisor'.ne'] at scaled
          linarith
      _ < 2 ^ (Nat.log 2 n + 1) * 2 ^ exponent (x / n) / 2 := by gcongr
      _ = 2 ^ (exponent (x / n) + Nat.log 2 n) := by
          rw [zpow_add₀ (by norm_num),zpow_natCast,pow_succ]
          ring
      _ ≤ 2 ^ exponent x := zpow_le_zpow_right₀ (by norm_num) length
  linarith

section Whole
variable {x : ℚ} {n : ℕ}

theorem magnitude_natCast {k : ℕ} (small : k < 2 ^ 53) : magnitude k = k := by
  rcases k.eq_zero_or_pos with rfl | positive
  · exact magnitude_zero
  · have length : Int.log 2 (k : ℚ) ≤ 52 := by
      rw [Int.log_natCast]
      exact_mod_cast Nat.lt_succ_iff.mp (Nat.log_lt_of_lt_pow positive.ne' small)
    have fine : exponent k ≤ 0 := by
      unfold exponent
      omega
    exact_mod_cast grid_intCast fine k

theorem rounded_nonneg (nonneg : 0 ≤ x) : rounded x = magnitude x := if_neg (not_lt.mpr nonneg)

theorem ofRat_of_lt (nonneg : 0 ≤ x) (below : magnitude x < limit) : ofRat x = finite (magnitude x) := by
  have above : -limit < magnitude x := (neg_neg_of_pos limit_pos).trans_le (magnitude_nonneg nonneg)
  unfold ofRat
  dsimp only
  rw [rounded_nonneg nonneg,if_neg (not_le.mpr below),if_neg (not_le.mpr above)]

theorem rounded_neg (q : ℚ) : rounded (-q) = -rounded q := by
  unfold rounded
  split_ifs with left right
  · linarith
  · rw [neg_neg]
  · rw [neg_neg]
  · obtain rfl : q = 0 := by linarith
    rw [neg_zero,magnitude_zero,neg_zero]

theorem ofRat_neg (q : ℚ) : ofRat (-q) = (ofRat q).neg := by
  have positive := limit_pos
  unfold ofRat
  dsimp only
  rw [rounded_neg]
  split_ifs <;> first | rfl | (exfalso; linarith)

theorem magnitude_of_ofRat (nonneg : 0 ≤ x) (exact_ : ofRat x = finite x) : magnitude x = x := by
  unfold ofRat at exact_
  dsimp only at exact_
  split_ifs at exact_
  rwa [Double.finite.injEq,rounded_nonneg nonneg] at exact_

/-- A quotient of numbers below `2 ^ 53` loses nothing that rounding down would have kept. -/
theorem floor_div (nonneg : 0 ≤ x) (some_ : 0 < n) (exact_ : magnitude x = x) (small : x + n < 2 ^ 53) :
    (ofRat (x / n)).floor = finite (⌊x / n⌋₊ : ℕ) := by
  have divisor : (0 : ℚ) < n := by exact_mod_cast some_
  have quotient : 0 ≤ x / n := div_nonneg nonneg divisor.le
  have down := Nat.floor_le quotient
  have up := Nat.lt_floor_add_one (x / n)
  have product : ((⌊x / n⌋₊ + 1 : ℕ) : ℚ) * n < 2 ^ 53 := by
    have scaled := mul_le_mul_of_nonneg_right down divisor.le
    rw [div_mul_cancel₀ _ divisor.ne'] at scaled
    push_cast
    linarith
  have product' : (⌊x / n⌋₊ + 1) * n < 2 ^ 53 := by exact_mod_cast product
  have least : ⌊x / n⌋₊ < 2 ^ 53 := by
    calc ⌊x / n⌋₊ < ⌊x / n⌋₊ + 1 := Nat.lt_succ_self _
      _ ≤ (⌊x / n⌋₊ + 1) * n := Nat.le_mul_of_pos_right _ some_
      _ < 2 ^ 53 := product'
  have above : (⌊x / n⌋₊ : ℚ) ≤ magnitude (x / n) := by
    rcases ⌊x / n⌋₊.eq_zero_or_pos with zero | positive
    · rw [zero,Nat.cast_zero]
      exact magnitude_nonneg quotient
    · rw [← magnitude_natCast least]
      exact magnitude_mono (by exact_mod_cast positive) down
  have below : magnitude (x / n) < (⌊x / n⌋₊ + 1 : ℕ) := by
    rcases nonneg.eq_or_lt with rfl | positive
    · rw [zero_div,magnitude_zero]
      positivity
    · have exact' : magnitude (((⌊x / n⌋₊ + 1 : ℕ) : ℤ) * n) = ((⌊x / n⌋₊ + 1 : ℕ) : ℤ) * n := by
        exact_mod_cast magnitude_natCast product'
      have less : x / n < ((⌊x / n⌋₊ + 1 : ℕ) : ℤ) := by exact_mod_cast up
      exact_mod_cast magnitude_div_lt positive some_ exact_ exact' less
  have reach : ((⌊x / n⌋₊ + 1 : ℕ) : ℚ) ≤ limit := by
    calc ((⌊x / n⌋₊ + 1 : ℕ) : ℚ) ≤ 2 ^ 53 := by exact_mod_cast least
      _ ≤ limit := by
        rw [limit,← zpow_natCast]
        exact zpow_le_zpow_right₀ (by norm_num) (by norm_num)
  rw [ofRat_of_lt quotient (below.trans_le reach),floor]
  have whole : ⌊magnitude (x / n)⌋ = (⌊x / n⌋₊ : ℤ) := by
    rw [Int.floor_eq_iff]
    exact_mod_cast And.intro above below
  rw [whole]
  rfl

end Whole

section Integers
variable {t n : ℕ}

/-- Rounding to the nearest moves a quotient of integers below `2 ^ 53` by less than its distance
to the next whole number. -/
theorem magnitude_div_natCast_lt {m : ℕ} (positive : 0 < t) (small : t < 2 ^ 53) (some_ : 0 < n) (short : n < 2 ^ 53)
    (less : t < m * n) : magnitude ((t : ℚ) / n) < m := by
  have divisor : (0 : ℚ) < n := by exact_mod_cast some_
  have quotient : (0 : ℚ) < t / n := div_pos (by exact_mod_cast positive) divisor
  have leading : ((2 : ℚ) ^ Int.log 2 ((t : ℚ) / n)) ≤ t / n := by
    exact_mod_cast Int.zpow_log_le_self (by norm_num : 1 < 2) quotient
  have normal : exponent ((t : ℚ) / n) = Int.log 2 ((t : ℚ) / n) - 52 := by
    have least : ((2 : ℕ) : ℚ) ^ (-53 : ℤ) ≤ t / n := by
      have one : (1 : ℚ) ≤ t := by exact_mod_cast positive
      have bound : (n : ℚ) ≤ 2 ^ 53 := by exact_mod_cast short.le
      rw [zpow_neg,le_div_iff₀ divisor,inv_mul_le_iff₀ (by positivity)]
      norm_num
      linarith
    have log := (Int.zpow_le_iff_le_log (by norm_num : 1 < 2) quotient).mp least
    unfold exponent
    omega
  have unit : (0 : ℚ) < 2 ^ exponent ((t : ℚ) / n) := zpow_pos (by norm_num) _
  have fine : (2 : ℚ) ^ exponent ((t : ℚ) / n) * 2 ^ 52 ≤ t / n := by
    rw [normal,zpow_sub₀ (by norm_num)]
    norm_num
    exact leading
  have half := mul_le_mul_of_nonneg_right (nearestEven_le_half ((t : ℚ) / n / 2 ^ exponent ((t : ℚ) / n))) unit.le
  rw [add_mul,div_mul_cancel₀ _ unit.ne'] at half
  by_contra above
  rw [not_lt,magnitude,grid] at above
  have next : (t : ℚ) + 1 ≤ m * n := by exact_mod_cast less
  have bound : (t : ℚ) < 2 ^ 53 := by exact_mod_cast small
  have moved : (m : ℚ) ≤ t / n * (1 + 1 / 2 ^ 53) := by
    norm_num at fine half above ⊢
    linarith
  have scaled := mul_le_mul_of_nonneg_right moved divisor.le
  rw [mul_right_comm,div_mul_cancel₀ _ divisor.ne'] at scaled
  norm_num at scaled
  linarith

/-- `Math.floor(t / n)` of safe integers. -/
theorem floor_div_natCast (small : t < 2 ^ 53) (some_ : 0 < n) (short : n < 2 ^ 53) :
    (ofRat ((t : ℚ) / n)).floor = finite (t / n : ℕ) := by
  have divisor : (0 : ℚ) < n := by exact_mod_cast some_
  have quotient : (0 : ℚ) ≤ t / n := div_nonneg (Nat.cast_nonneg t) divisor.le
  have least : t / n < 2 ^ 53 := (Nat.div_le_self t n).trans_lt small
  have above : ((t / n : ℕ) : ℚ) ≤ magnitude ((t : ℚ) / n) := by
    rcases (t / n).eq_zero_or_pos with zero | positive
    · rw [zero,Nat.cast_zero]
      exact magnitude_nonneg quotient
    · rw [← magnitude_natCast least]
      exact magnitude_mono (by exact_mod_cast positive) Nat.cast_div_le
  have below : magnitude ((t : ℚ) / n) < (t / n + 1 : ℕ) := by
    rcases t.eq_zero_or_pos with rfl | positive
    · rw [Nat.cast_zero,zero_div,magnitude_zero]
      positivity
    · exact magnitude_div_natCast_lt positive small some_ short (Nat.lt_mul_of_div_lt (Nat.lt_succ_self _) some_)
  have reach : ((t / n + 1 : ℕ) : ℚ) ≤ limit := by
    calc ((t / n + 1 : ℕ) : ℚ) ≤ 2 ^ 53 := by exact_mod_cast least
      _ ≤ limit := by
        rw [limit,← zpow_natCast]
        exact zpow_le_zpow_right₀ (by norm_num) (by norm_num)
  rw [ofRat_of_lt quotient (below.trans_le reach),floor]
  have whole : ⌊magnitude ((t : ℚ) / n)⌋ = (t / n : ℕ) := by
    rw [Int.floor_eq_iff]
    exact_mod_cast And.intro above below
  rw [whole]
  rfl

end Integers

section Differences
variable {p q : ℚ}

/-- A number is a multiple of the last place of the smallest ones. -/
theorem exact_multiple (double : ofRat q = finite q) : ∃ k : ℤ, q = k / 2 ^ 1074 := by
  have positive : ∀ {q : ℚ}, 0 ≤ q → ofRat q = finite q → ∃ k : ℤ, q = k / 2 ^ 1074 := by
    intro q nonneg double
    obtain ⟨k,multiple⟩ := grid_eq (e := exponent q) (q := q)
    have same : q = k * 2 ^ exponent q := by
      rw [← multiple]
      exact (magnitude_of_ofRat nonneg double).symm
    obtain ⟨n,place⟩ : ∃ n : ℕ, exponent q = n - (1074 : ℕ) := by
      refine ⟨(exponent q + 1074).toNat,?_⟩
      unfold exponent
      omega
    refine ⟨k * 2 ^ n,?_⟩
    rw [place,zpow_sub₀ (by norm_num),zpow_natCast,zpow_natCast] at same
    push_cast
    rw [mul_div_assoc]
    exact same
  rcases le_total 0 q with nonneg | negative
  · exact positive nonneg double
  · have double' : ofRat (-q) = finite (-q) := by rw [ofRat_neg,double,neg]
    obtain ⟨k,multiple⟩ := positive (neg_nonneg.mpr negative) double'
    exact ⟨-k,by rw [Int.cast_neg,neg_div,← multiple,neg_neg]⟩

/-- The smallest number above zero. -/
theorem ofRat_least : ofRat (1 / 2 ^ 1074) = finite (1 / 2 ^ 1074) := by
  decide +kernel

theorem sub_self (p : ℚ) : finite p - finite p = finite 0 := by
  change ofRat (p + -p) = finite 0
  rw [add_neg_cancel]
  exact_mod_cast ofRat_natCast (n := 0) (by norm_num)

theorem sub_eq_neg (p q : ℚ) : finite p - finite q = (finite q - finite p).neg := by
  change ofRat (p + -q) = (ofRat (q + -p)).neg
  rw [← ofRat_neg]
  congr 1
  ring

/-- A difference keeps its sign, however small it is. -/
theorem sub_pos_of_lt (left : ofRat p = finite p) (right : ofRat q = finite q) (less : q < p) :
    finite 0 < finite p - finite q := by
  obtain ⟨j,rfl⟩ := exact_multiple left
  obtain ⟨k,rfl⟩ := exact_multiple right
  have unit : (0 : ℚ) < 2 ^ 1074 := by positivity
  have apart : k + 1 ≤ j := by exact_mod_cast (div_lt_div_iff_of_pos_right unit).mp less
  have far : (1 : ℚ) / 2 ^ 1074 ≤ j / 2 ^ 1074 + -(k / 2 ^ 1074) := by
    rw [← sub_eq_add_neg,← sub_div]
    apply div_le_div_of_nonneg_right _ unit.le
    have apart : (k : ℚ) + 1 ≤ j := by exact_mod_cast apart
    linarith
  have above := ofRat_mono far
  rw [ofRat_least] at above
  exact lt_of_lt_of_le (finite_lt.mpr (by positivity)) above

theorem sub_neg_of_lt (left : ofRat p = finite p) (right : ofRat q = finite q) (less : p < q) :
    finite p - finite q < finite 0 := by
  have positive := sub_pos_of_lt right left less
  rw [sub_eq_neg]
  cases difference : finite q - finite p with
  | finite d =>
    rw [difference,finite_lt] at positive
    exact finite_lt.mpr (neg_neg_of_pos positive)
  | infinite negative =>
    rw [difference] at positive
    cases negative with
    | false => rfl
    | true => cases positive
  | nan =>
    rw [difference] at positive
    cases positive

/-- What a comparison by difference finds. -/
theorem difference_cases (left : ofRat p = finite p) (right : ofRat q = finite q) :
    p < q ∧ (finite p - finite q ≠ 0 ∧ finite p - finite q ≠ nan) ∧ ¬0 < finite p - finite q ∨
    p = q ∧ finite p - finite q = 0 ∨
    q < p ∧ (finite p - finite q ≠ 0 ∧ finite p - finite q ≠ nan) ∧ 0 < finite p - finite q := by
  have zero : (0 : Double) = finite 0 := by rw [ofNat_eq,Nat.cast_zero]
  rw [zero]
  rcases lt_trichotomy p q with less | rfl | more
  · have negative := sub_neg_of_lt left right less
    refine .inl ⟨less,?_⟩
    cases difference : finite p - finite q with
    | finite d =>
      rw [difference,finite_lt] at negative
      exact ⟨⟨fun same => negative.ne (Double.finite.inj same),Double.noConfusion⟩,
        fun positive => negative.not_gt (finite_lt.mp positive)⟩
    | infinite sign =>
      rw [difference] at negative
      cases sign with
      | false => cases negative
      | true => exact ⟨⟨Double.noConfusion,Double.noConfusion⟩,fun positive => by cases positive⟩
    | nan =>
      rw [difference] at negative
      cases negative
  · exact .inr (.inl ⟨rfl,sub_self p⟩)
  · have positive := sub_pos_of_lt left right more
    refine .inr (.inr ⟨more,⟨fun same => ?_,fun same => ?_⟩,positive⟩)
    · rw [same,finite_lt] at positive
      exact positive.false
    · rw [same] at positive
      cases positive

end Differences

section Order
variable {x y z : Double}

theorem le_of_lt (less : x < y) : x ≤ y := by
  change x.lt y = true at less
  change x.le y = true
  cases x with
  | finite a =>
    cases y with
    | finite b => exact finite_le.mpr (finite_lt.mp less).le
    | infinite n => exact less
    | nan => exact less
  | infinite m =>
    cases y with
    | finite b => exact less
    | infinite n =>
      rw [lt,Bool.and_eq_true] at less
      rw [Double.le,less.1,Bool.true_or]
    | nan => exact less
  | nan => cases y <;> exact less

theorem le_trans (first : x ≤ y) (second : y ≤ z) : x ≤ z := by
  change x.le y = true at first
  change y.le z = true at second
  change x.le z = true
  cases x <;> cases y <;> cases z <;> simp_all [Double.le]
  · exact first.trans second
  · rcases first with first | first
    · exact .inl first
    · exact .inr (second.resolve_left (by simp [first]))

theorem not_lt_iff (left : x ≠ nan) (right : y ≠ nan) : ¬x < y ↔ y ≤ x := by
  change ¬x.lt y = true ↔ y.le x = true
  cases x <;> cases y <;> simp_all [Double.le,lt]
  rename_i m n
  cases m <;> simp

theorem max_le_iff (number : x ≠ nan) (number' : z ≠ nan) : Double.max x y ≤ z ↔ x ≤ z ∧ y ≤ z := by
  by_cases second : y = nan
  · subst second
    rw [Double.max,if_pos (.inr rfl)]
    exact iff_of_false Bool.noConfusion fun both => by
      have le := both.2
      cases z <;> cases le
  · rw [Double.max,if_neg (not_or.mpr ⟨number,second⟩)]
    split_ifs with less
    · exact ⟨fun le => ⟨le_trans (le_of_lt less) le,le⟩,And.right⟩
    · exact ⟨fun le => ⟨le,le_trans ((not_lt_iff number second).mp less) le⟩,And.left⟩

end Order

theorem ofRat_between {l q u : ℚ} (low : ofRat l = finite l) (high : ofRat u = finite u) (le : l ≤ q) (le' : q ≤ u) :
    ∃ r, ofRat q = finite r ∧ l ≤ r ∧ r ≤ u := by
  have below := ofRat_mono le
  have above := ofRat_mono le'
  rw [low] at below
  rw [high] at above
  cases found : ofRat q with
  | finite r =>
    rw [found,finite_le] at below above
    exact ⟨r,rfl,below,above⟩
  | infinite negative =>
    rw [found] at below above
    cases negative
    · cases above
    · cases below
  | nan =>
    rw [found] at below
    cases below

end RatifyOs.Data.Double
