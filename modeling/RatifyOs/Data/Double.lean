import Mathlib.Data.Int.Log
import Mathlib.Data.Rat.Floor
import Mathlib.Tactic.Linarith
import Mathlib.Tactic.NormNum

/-! IEEE 754 binary64: exact arithmetic on the rationals, then one rounding to the nearest
multiple of the last place, ties to even. The two zeros are one. -/
namespace RatifyOs.Data

inductive Double where
  | finite (q : ℚ)
  | infinite (negative : Bool)
  | nan
  deriving DecidableEq

namespace Double

def nearestEven (m : ℚ) : ℤ :=
  let rest := m - ⌊m⌋
  if rest < 1 / 2 then ⌊m⌋
  else if 1 / 2 < rest then ⌊m⌋ + 1
  else if ⌊m⌋ % 2 = 0 then ⌊m⌋
  else ⌊m⌋ + 1

theorem floor_le_nearestEven (m : ℚ) : ⌊m⌋ ≤ nearestEven m := by
  unfold nearestEven
  dsimp only
  split_ifs <;> omega

theorem nearestEven_le (m : ℚ) : nearestEven m ≤ ⌊m⌋ + 1 := by
  unfold nearestEven
  dsimp only
  split_ifs <;> omega

theorem nearestEven_mono {m n : ℚ} (le : m ≤ n) : nearestEven m ≤ nearestEven n := by
  rcases (Int.floor_le_floor le).lt_or_eq with less | same
  · calc nearestEven m ≤ ⌊m⌋ + 1 := nearestEven_le m
      _ ≤ ⌊n⌋ := less
      _ ≤ nearestEven n := floor_le_nearestEven n
  · have rest : m - ⌊m⌋ ≤ n - ⌊n⌋ := by
      rw [same]
      linarith
    unfold nearestEven
    dsimp only
    rw [same] at rest ⊢
    split_ifs <;> first | omega | (exfalso; linarith)

@[simp] theorem nearestEven_intCast (k : ℤ) : nearestEven (k : ℚ) = k := by
  simp [nearestEven]

/-- The nearest multiple of `2 ^ e`. -/
def grid (e : ℤ) (q : ℚ) : ℚ := nearestEven (q / 2 ^ e) * 2 ^ e

theorem grid_mono (e : ℤ) {p q : ℚ} (le : p ≤ q) : grid e p ≤ grid e q := by
  have unit : (0 : ℚ) < 2 ^ e := zpow_pos (by norm_num) e
  apply mul_le_mul_of_nonneg_right _ unit.le
  exact_mod_cast nearestEven_mono (div_le_div_of_nonneg_right le unit.le)

theorem grid_zpow {e k : ℤ} (le : e ≤ k) : grid e (2 ^ k) = 2 ^ k := by
  have nonzero : (2 : ℚ) ^ e ≠ 0 := zpow_ne_zero e (by norm_num)
  obtain ⟨n,rfl⟩ := Int.le.dest le
  have whole : (2 : ℚ) ^ (e + n) / 2 ^ e = ((2 ^ n : ℤ) : ℚ) := by
    rw [zpow_add₀ (by norm_num),mul_div_cancel_left₀ _ nonzero]
    norm_num
  rw [grid,whole,nearestEven_intCast,zpow_add₀ (by norm_num)]
  push_cast
  rw [zpow_natCast]
  ring

/-- The last place of a number with 53 significant bits, and of a subnormal one. -/
def exponent (q : ℚ) : ℤ := max (Int.log 2 q - 52) (-1074)

def magnitude (q : ℚ) : ℚ := grid (exponent q) q

theorem magnitude_mono {p q : ℚ} (positive : 0 < p) (le : p ≤ q) : magnitude p ≤ magnitude q := by
  have logs : Int.log 2 p ≤ Int.log 2 q := Int.log_mono_right positive le
  rcases (show exponent p ≤ exponent q by unfold exponent; omega).lt_or_eq with less | same
  · -- The power of two below `q` is on both grids and separates the two.
    have fits : exponent p ≤ Int.log 2 q := by unfold exponent at less ⊢; omega
    have fits' : exponent q ≤ Int.log 2 q := by unfold exponent at less ⊢; omega
    have apart : Int.log 2 p + 1 ≤ Int.log 2 q := by unfold exponent at less; omega
    have below : p ≤ 2 ^ Int.log 2 q := by
      apply (Int.lt_zpow_succ_log_self (by norm_num : 1 < 2) p).le.trans
      push_cast
      exact zpow_le_zpow_right₀ (by norm_num) apart
    have above : (2 : ℚ) ^ Int.log 2 q ≤ q := by
      exact_mod_cast Int.zpow_log_le_self (by norm_num : 1 < 2) (positive.trans_le le)
    calc magnitude p ≤ grid (exponent p) (2 ^ Int.log 2 q) := grid_mono _ below
      _ = grid (exponent q) (2 ^ Int.log 2 q) := by rw [grid_zpow fits,grid_zpow fits']
      _ ≤ magnitude q := grid_mono _ above
  · rw [magnitude,magnitude,same]
    exact grid_mono _ le

def rounded (q : ℚ) : ℚ := if q < 0 then -magnitude (-q) else magnitude q

theorem magnitude_zero : magnitude 0 = 0 := by simp [magnitude,grid,nearestEven]

theorem magnitude_nonneg {q : ℚ} (nonneg : 0 ≤ q) : 0 ≤ magnitude q := by
  have start := grid_mono (exponent q) nonneg
  have zero : grid (exponent q) 0 = 0 := by simp [grid,nearestEven]
  rwa [zero] at start

theorem rounded_mono {p q : ℚ} (le : p ≤ q) : rounded p ≤ rounded q := by
  unfold rounded
  split_ifs with negative negative'
  · exact neg_le_neg (magnitude_mono (by linarith) (by linarith))
  · have left := magnitude_nonneg (show 0 ≤ -p by linarith)
    have right := magnitude_nonneg (not_lt.mp negative')
    linarith
  · exact absurd (le.trans_lt ‹q < 0›) negative
  · rcases (not_lt.mp negative).eq_or_lt with zero | positive
    · rw [← zero,magnitude_zero]
      exact magnitude_nonneg (zero ▸ le)
    · exact magnitude_mono positive le

/-- The first power of two that no number reaches. -/
def limit : ℚ := 2 ^ (1024 : ℤ)

theorem limit_pos : 0 < limit := zpow_pos (by norm_num) 1024

def ofRat (q : ℚ) : Double :=
  let r := rounded q
  if limit ≤ r then .infinite false
  else if r ≤ -limit then .infinite true
  else .finite r

def neg : Double → Double
  | finite q => finite (-q)
  | infinite negative => infinite !negative
  | nan => nan

def add : Double → Double → Double
  | finite a, finite b => ofRat (a + b)
  | finite _, infinite n => infinite n
  | infinite n, finite _ => infinite n
  | infinite m, infinite n => if m = n then infinite m else nan
  | _, _ => nan

def sub (a b : Double) : Double := add a b.neg

/-- Infinity times a finite number. -/
def scaled (negative : Bool) (q : ℚ) : Double :=
  if q = 0 then nan else infinite (negative != decide (q < 0))

def mul : Double → Double → Double
  | finite a, finite b => ofRat (a * b)
  | finite a, infinite n => scaled n a
  | infinite n, finite b => scaled n b
  | infinite m, infinite n => infinite (m != n)
  | _, _ => nan

def div : Double → Double → Double
  | finite a, finite b =>
    if b = 0 then (if a = 0 then nan else infinite (decide (a < 0))) else ofRat (a / b)
  | finite _, infinite _ => finite 0
  | infinite n, finite b => infinite (n != decide (b < 0))
  | _, _ => nan

instance : Neg Double := ⟨neg⟩
instance : Add Double := ⟨add⟩
instance : Sub Double := ⟨sub⟩
instance : Mul Double := ⟨mul⟩
instance : Div Double := ⟨div⟩

/-- No comparison with `NaN` holds. -/
def lt : Double → Double → Bool
  | finite a, finite b => a < b
  | finite _, infinite negative => !negative
  | infinite negative, finite _ => negative
  | infinite m, infinite n => m && !n
  | _, _ => false

def le : Double → Double → Bool
  | finite a, finite b => a ≤ b
  | finite _, infinite negative => !negative
  | infinite negative, finite _ => negative
  | infinite m, infinite n => m || !n
  | _, _ => false

instance : LT Double := ⟨fun a b => a.lt b⟩
instance : LE Double := ⟨fun a b => a.le b⟩
instance (a b : Double) : Decidable (a < b) := inferInstanceAs (Decidable (a.lt b = true))
instance (a b : Double) : Decidable (a ≤ b) := inferInstanceAs (Decidable (a.le b = true))
instance (n : ℕ) : OfNat Double n := ⟨finite n⟩
instance : IntCast Double := ⟨fun k => finite k⟩

def isFinite : Double → Bool
  | finite _ => true
  | _ => false

def isInteger : Double → Bool
  | finite q => q.den = 1
  | _ => false

/-- `Math.floor` -/
def floor : Double → Double
  | finite q => finite ⌊q⌋
  | x => x

/-- `Math.round`, where a tie goes up. -/
def round : Double → Double
  | finite q => finite ⌊q + 1 / 2⌋
  | x => x

def abs : Double → Double
  | finite q => finite |q|
  | infinite _ => infinite false
  | nan => nan

/-- `Math.max` of two numbers -/
protected def max (a b : Double) : Double :=
  if a = nan ∨ b = nan then nan else if a < b then b else a

@[simp] theorem finite_le {a b : ℚ} : finite a ≤ finite b ↔ a ≤ b := by simp [LE.le,le]

@[simp] theorem finite_lt {a b : ℚ} : finite a < finite b ↔ a < b := by simp [LT.lt,lt]

@[simp] theorem ofNat_eq (n : ℕ) : (OfNat.ofNat n : Double) = finite n := rfl

@[simp] theorem finite_mul (a b : ℚ) : finite a * finite b = ofRat (a * b) := rfl

theorem round_mono {x y : Double} (le : x ≤ y) : x.round ≤ y.round := by
  cases x with
  | finite a =>
    cases y with
    | finite b =>
      rw [finite_le] at le
      rw [round,round,finite_le]
      exact_mod_cast Int.floor_le_floor (add_le_add_left le (1 / 2))
    | infinite n => exact le
    | nan => exact le
  | infinite n =>
    cases y with
    | finite b => exact le
    | infinite m => exact le
    | nan => exact le
  | nan => cases y <;> exact le

theorem lt_of_lt_of_le {x y z : Double} (less : x < y) (le : y ≤ z) : x < z := by
  change x.lt y = true at less
  change y.le z = true at le
  change x.lt z = true
  cases x <;> cases y <;> cases z <;> simp_all [lt,Double.le]
  exact less.trans_le le

/-- Rounding keeps the order, and what overflows is above or below everything else. -/
theorem ofRat_mono {p q : ℚ} (le : p ≤ q) : ofRat p ≤ ofRat q := by
  have mono := rounded_mono le
  have positive := limit_pos
  unfold ofRat
  dsimp only
  split_ifs <;> first | rfl | exact finite_le.mpr mono | (exfalso; linarith)

/-- A grid at least as fine as the integers keeps them. -/
theorem grid_intCast {e : ℤ} (fine : e ≤ 0) (k : ℤ) : grid e k = k := by
  obtain ⟨n,rfl⟩ := Int.exists_eq_neg_ofNat fine
  have unit : (2 : ℚ) ^ (-(n : ℤ)) ≠ 0 := zpow_ne_zero _ (by norm_num)
  have whole : (k : ℚ) / 2 ^ (-(n : ℤ)) = ((k * 2 ^ n : ℤ) : ℚ) := by
    rw [zpow_neg,zpow_natCast,div_inv_eq_mul]
    push_cast
    rfl
  rw [grid,whole,nearestEven_intCast,← whole,div_mul_cancel₀ _ unit]

theorem ofRat_natCast {n : ℕ} (small : n < 2 ^ 53) : ofRat n = finite n := by
  have exact_ : rounded n = n := by
    rw [rounded,if_neg (not_lt.mpr (Nat.cast_nonneg n))]
    rcases n.eq_zero_or_pos with rfl | positive
    · exact magnitude_zero
    · have length : Int.log 2 (n : ℚ) ≤ 52 := by
        rw [Int.log_natCast]
        exact_mod_cast Nat.lt_succ_iff.mp (Nat.log_lt_of_lt_pow positive.ne' small)
      have fine : exponent n ≤ 0 := by
        unfold exponent
        omega
      exact_mod_cast grid_intCast fine n
  have below : (n : ℚ) < limit := by
    have reach : (2 : ℚ) ^ 53 ≤ limit := by
      rw [limit,← zpow_natCast]
      exact zpow_le_zpow_right₀ (by norm_num) (by norm_num)
    have less : (n : ℚ) < 2 ^ 53 := by exact_mod_cast small
    linarith
  have above : -limit < (n : ℚ) := by
    have positive := limit_pos
    have nonneg : (0 : ℚ) ≤ n := Nat.cast_nonneg n
    linarith
  unfold ofRat
  dsimp only
  rw [exact_,if_neg (not_le.mpr below),if_neg (not_le.mpr above)]

example : ofRat (1 / 10) + ofRat (2 / 10) ≠ ofRat (3 / 10) := by decide +kernel

end Double

end RatifyOs.Data
