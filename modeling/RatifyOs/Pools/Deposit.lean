import Mathlib.Data.List.Sort
import RatifyOs.Data.Apportion
import RatifyOs.Data.Rounding
import RatifyOs.Pools.Curve
import RatifyOs.Pools.Rebalance

/-! How a deposit is laid out over the bins of a range: the silhouette of its shape, and the exact
split of the amount. -/
namespace RatifyOs.Pools
open Data Data.Result

inductive LiquidityShape where
  | spot
  | curve
  | bidAsk
  deriving DecidableEq

inductive DepositLeg where
  | base
  | quote
  deriving DecidableEq

structure BinAllocation where
  binId : ℤ
  uiPrice : Double
  amount : ℤ
  deriving DecidableEq

/-- `Math.exp`, `x ** y` and `String(x)`. -/
structure Numbers where
  exp : Double → Double
  pow : Double → Double → Double
  text : Double → String

/-- A `BinMathError`, which is a `RangeError`. -/
def binMathError (c : Prop) [Decidable c] (message : String) : Except Thrown Unit := reject c (.range message)

def BASIS_POINT_MAX : ℕ := 10000

def MAX_BIN_STEP : ℕ := 400

def WEIGHT_SCALE : ℕ := 1000000000

section Prices
variable (numbers : Numbers)

def priceOfBin (binId binStep : ℤ) : Except Thrown Double := do
  binMathError (binStep ≤ 0 ∨ binStep > MAX_BIN_STEP) s!"binStep must be an integer in 1..{MAX_BIN_STEP}, got {binStep}"
  binMathError (binId < MIN_BIN_ID ∨ binId > MAX_BIN_ID) s!"binId must be an integer in {MIN_BIN_ID}..{MAX_BIN_ID}, got {binId}"
  return numbers.pow (1 + (binStep : Double) / .finite BASIS_POINT_MAX) binId

def uiPriceOfBin (binId binStep baseDecimals quoteDecimals : ℤ) : Except Thrown Double := do
  let price ← priceOfBin numbers binId binStep
  return price * numbers.pow 10 ((baseDecimals - quoteDecimals : ℤ) : Double)

end Prices

/-- The bins of a range, from the lowest. -/
def binsOf (range : BinRange) : List ℤ :=
  (List.range (binSpan range.lowerBinId range.upperBinId).toNat).map fun i : ℕ => range.lowerBinId + (i : ℤ)

section Weights
variable (numbers : Numbers)

/-- The middle of the silhouette: the active bin, or the edge that is next to it. -/
def centreOf (range : BinRange) (activeBinId : ℤ) : ℤ := min (max activeBinId range.lowerBinId) range.upperBinId

/-- The weight of a bin by its distance from the centre. The literals are rounded where they are written. -/
def shapeWeight (shape : LiquidityShape) (range : BinRange) (activeBinId place : ℤ) : Double :=
  match shape with
  | .spot => 1
  | .curve =>
    let sigma := Double.max ((binSpan range.lowerBinId range.upperBinId : ℤ) / 4) (.finite (1 / 2))
    let z := (place : Double) / sigma
    numbers.exp (.finite (-1 / 2) * z * z) + .ofRat (1 / 1000000000)
  | .bidAsk =>
    let centre := centreOf range activeBinId
    let reach := max (max (centre - range.lowerBinId) (range.upperBinId - centre)) 1
    (place : Double).abs / (reach : Double) + .ofRat (1 / 20)

def shapeWeights (shape : LiquidityShape) (range : BinRange) (activeBinId : ℤ) : Except Thrown (List Double) := do
  binMathError (binSpan range.lowerBinId range.upperBinId ≤ 0) s!"empty range {range.lowerBinId}..{range.upperBinId}"
  return (binsOf range).map fun binId => shapeWeight numbers shape range activeBinId (binId - centreOf range activeBinId)

def scaleWeight (floatSum w : Double) : Except Thrown ℤ := do
  binMathError (¬w.isFinite ∨ w < 0) s!"weight must be finite and non-negative, got {numbers.text w}"
  bigInt (w / floatSum * .finite WEIGHT_SCALE).round

def floatSum (weights : List Double) : Double := weights.foldl (· + ·) 0

def scaledWeights (weights : List Double) : Except Thrown (List ℤ) := weights.mapM (scaleWeight numbers (floatSum weights))

def distributeAmount (total : ℤ) (weights : List Double) : Except Thrown (List ℤ) := do
  binMathError (weights = []) "cannot distribute across zero bins"
  binMathError (total < 0) "total must be non-negative"
  binMathError (¬(floatSum weights).isFinite ∨ floatSum weights ≤ 0) "weights must sum to a finite positive number"
  if total = 0 then return weights.map fun _ => 0
  else
    let scaled ← scaledWeights numbers weights
    binMathError (scaled.sum ≤ 0) "weights round to zero at the working precision"
    return Apportion.apportion total scaled

structure DepositPlan where
  range : BinRange
  activeBinId : ℤ
  binStep : ℤ
  shape : LiquidityShape
  amount : ℤ
  side : DepositLeg
  baseDecimals : ℤ
  quoteDecimals : ℤ

/-- Quote funds the bins at and below the active one, base those at and above it. -/
def onSide (side : DepositLeg) (activeBinId b : ℤ) : Bool :=
  match side with
  | .quote => b ≤ activeBinId
  | .base => activeBinId ≤ b

def sideBins (args : DepositPlan) : List ℤ := (binsOf args.range).filter (onSide args.side args.activeBinId)

def planDeposit (args : DepositPlan) : Except Thrown (List BinAllocation) := do
  let bins := sideBins args
  match bins.head?, bins.getLast? with
  | some lowerBinId, some upperBinId =>
    let weights ← shapeWeights numbers args.shape ⟨lowerBinId,upperBinId⟩ args.activeBinId
    let amounts ← distributeAmount numbers args.amount weights
    (bins.zip amounts).mapM fun (binId,amount) => do
      let uiPrice ← uiPriceOfBin numbers binId args.binStep args.baseDecimals args.quoteDecimals
      return { binId, uiPrice, amount }
  | _, _ => return []

end Weights

section Bins
variable {range : BinRange}

theorem mem_binsOf {b : ℤ} : b ∈ binsOf range ↔ range.lowerBinId ≤ b ∧ b ≤ range.upperBinId := by
  simp only [binsOf,binSpan,List.mem_map,List.mem_range]
  constructor
  · rintro ⟨i,inside,rfl⟩
    omega
  · intro inside
    exact ⟨(b - range.lowerBinId).toNat,by omega,by omega⟩

theorem binsOf_pairwise (range : BinRange) : (binsOf range).Pairwise (· < ·) := by
  rw [binsOf,List.pairwise_map]
  exact List.pairwise_lt_range.imp fun less => by omega

theorem length_binsOf (range : BinRange) : (binsOf range).length = (binSpan range.lowerBinId range.upperBinId).toNat := by
  rw [binsOf,List.length_map,List.length_range]

/-- The part of the range on the side of a leg. -/
def sideRange (args : DepositPlan) : BinRange :=
  match args.side with
  | .quote => ⟨args.range.lowerBinId,min args.range.upperBinId args.activeBinId⟩
  | .base => ⟨max args.range.lowerBinId args.activeBinId,args.range.upperBinId⟩

theorem mem_sideBins {args : DepositPlan} {b : ℤ} : b ∈ sideBins args ↔
    args.range.lowerBinId ≤ b ∧ b ≤ args.range.upperBinId ∧ onSide args.side args.activeBinId b = true := by
  rw [sideBins,List.mem_filter,mem_binsOf,and_assoc]

theorem sideBins_nodup (args : DepositPlan) : (sideBins args).Nodup :=
  ((binsOf_pairwise args.range).imp fun less => less.ne).filter _

theorem sideBins_eq (args : DepositPlan) : sideBins args = binsOf (sideRange args) := by
  apply List.Pairwise.eq_of_mem_iff ((binsOf_pairwise args.range).filter _) (binsOf_pairwise _)
  intro b
  change b ∈ sideBins args ↔ _
  rw [mem_sideBins,mem_binsOf,sideRange]
  cases args.side
  · simp only [onSide,decide_eq_true_eq]
    omega
  · simp only [onSide,decide_eq_true_eq]
    omega

theorem ends_binsOf (some_ : range.lowerBinId ≤ range.upperBinId) :
    (binsOf range).head? = some range.lowerBinId ∧ (binsOf range).getLast? = some range.upperBinId := by
  have count : (binSpan range.lowerBinId range.upperBinId).toNat ≠ 0 := by
    rw [binSpan]
    omega
  rw [binsOf,List.head?_map,List.getLast?_map,List.head?_range,List.getLast?_range,if_neg count,if_neg count]
  refine ⟨by simp,?_⟩
  rw [Option.map_some,Option.some.injEq,binSpan]
  omega

theorem binsOf_nil (none_ : range.upperBinId < range.lowerBinId) : binsOf range = [] := by
  have count : (binSpan range.lowerBinId range.upperBinId).toNat = 0 := by
    rw [binSpan]
    omega
  rw [binsOf,count]
  rfl

end Bins

section Split
variable {numbers : Numbers}

theorem zero_le_ofRat {q : ℚ} (nonneg : 0 ≤ q) : Double.finite 0 ≤ Double.ofRat q := by
  have mono := Double.ofRat_mono nonneg
  have zero : Double.ofRat 0 = .finite 0 := by exact_mod_cast Double.ofRat_natCast (n := 0) (by norm_num)
  rwa [zero] at mono

theorem scaleWeight_nonneg {sum : ℚ} {w : Double} {n : ℤ} (positive : 0 < sum)
    (scaled : scaleWeight numbers (.finite sum) w = .ok n) : 0 ≤ n := by
  simp only [scaleWeight,binMathError,bind_eq_ok,reject_eq_ok,not_or,not_not,bigInt_eq_ok] at scaled
  obtain ⟨_,⟨finite,least⟩,value⟩ := scaled
  cases w with
  | finite q =>
    have nonneg : 0 ≤ q := by
      rw [show (0 : Double) = .finite (0 : ℕ) from rfl,Double.finite_lt] at least
      exact_mod_cast not_lt.mp least
    have ratio : Double.finite q / .finite sum = .ofRat (q / sum) := by
      change Double.div _ _ = _
      rw [Double.div,if_neg positive.ne']
    have low := zero_le_ofRat (div_nonneg nonneg positive.le)
    rw [ratio] at value
    cases found : Double.ofRat (q / sum) with
    | finite r =>
      rw [found,Double.finite_le] at low
      rw [found,Double.finite_mul] at value
      have low' := zero_le_ofRat (mul_nonneg low (Nat.cast_nonneg WEIGHT_SCALE))
      cases found' : Double.ofRat (r * WEIGHT_SCALE) with
      | finite t =>
        rw [found',Double.finite_le] at low'
        rw [found',Double.round,Double.finite.injEq,Int.cast_inj] at value
        rw [← value]
        exact Int.floor_nonneg.mpr (by linarith)
      | infinite negative =>
        rw [found'] at value
        cases value
      | nan =>
        rw [found'] at low'
        cases low'
    | infinite negative =>
      rw [found] at value
      change (Double.scaled negative (WEIGHT_SCALE : ℚ)).round = _ at value
      rw [Double.scaled,if_neg (by norm_num [WEIGHT_SCALE])] at value
      cases value
    | nan =>
      rw [found] at low
      cases low
  | infinite negative => cases finite
  | nan => cases finite

theorem scaledWeights_nonneg {weights : List Double} {scaled : List ℤ} {sum : ℚ} (positive : 0 < sum)
    (known : floatSum weights = .finite sum) (ok : scaledWeights numbers weights = .ok scaled) :
    scaled.length = weights.length ∧ ∀ w ∈ scaled, 0 ≤ w := by
  rw [scaledWeights,known] at ok
  refine ⟨(mapM_eq_ok.mp ok).length_eq.symm,fun n there => ?_⟩
  obtain ⟨w,_,made⟩ := mem_of_mapM ok n there
  exact scaleWeight_nonneg positive made

theorem floatSum_positive {weights : List Double} (sums : (floatSum weights).isFinite = true ∧ ¬floatSum weights ≤ 0) :
    ∃ sum, floatSum weights = .finite sum ∧ 0 < sum := by
  cases known : floatSum weights with
  | finite sum =>
    rw [known,show (0 : Double) = .finite (0 : ℕ) from rfl,Double.finite_le] at sums
    exact ⟨sum,rfl,by exact_mod_cast not_le.mp sums.2⟩
  | infinite negative =>
    rw [known] at sums
    cases sums.1
  | nan =>
    rw [known] at sums
    cases sums.1

theorem zeros_exact {weights : List ℤ} : Apportion.Exact 0 weights (weights.map fun _ => 0) := by
  refine ⟨List.length_map _,?_,?_,?_,?_,?_⟩
  · simp
  · simp
  · intro i w x value there
    rw [List.getElem?_map,value,Option.map_some,Option.some.injEq] at there
    exact .inl (by rw [← there,zero_mul,Int.zero_ediv])
  · intro i x value there
    rw [List.getElem?_map,value,Option.map_some,Option.some.injEq] at there
    exact there.symm
  · intro i j v w value _ there
    rw [List.getElem?_map,value,Option.map_some,Option.some.injEq,zero_mul,Int.zero_ediv] at there
    cases there

/-- Every list of weights that passes the checks is split exactly. -/
theorem distributeAmount_exact {total : ℤ} {weights : List Double} {scaled : List ℤ} (least : 0 ≤ total)
    (sums : (floatSum weights).isFinite = true ∧ ¬floatSum weights ≤ 0) (ok : scaledWeights numbers weights = .ok scaled)
    (positive : 0 < scaled.sum) :
    ∃ out, distributeAmount numbers total weights = .ok out ∧ Apportion.Exact total scaled out := by
  obtain ⟨sum,known,sum_pos⟩ := floatSum_positive sums
  obtain ⟨length,nonneg⟩ := scaledWeights_nonneg sum_pos known ok
  have some_ : weights ≠ [] := by
    rintro rfl
    rw [List.length_nil,List.length_eq_zero_iff] at length
    rw [length,List.sum_nil] at positive
    exact absurd positive (lt_irrefl 0)
  simp only [distributeAmount,binMathError,bind_eq_ok,reject_eq_ok,not_or,not_not]
  by_cases zero : total = 0
  · refine ⟨weights.map fun _ => 0,⟨(),some_,(),not_lt.mpr least,(),sums,if_pos zero⟩,?_⟩
    have same : (weights.map fun _ => (0 : ℤ)) = scaled.map fun _ => 0 := by
      rw [List.map_const',List.map_const',length]
    rw [zero,same]
    exact zeros_exact
  · refine ⟨Apportion.apportion total scaled,⟨(),some_,(),not_lt.mpr least,(),sums,?_⟩,Apportion.apportion_exact positive nonneg least⟩
    rw [if_neg zero,bind_eq_ok]
    refine ⟨scaled,ok,?_⟩
    rw [bind_eq_ok]
    exact ⟨(),reject_eq_ok.mpr (not_le.mpr positive),rfl⟩

theorem distributeAmount_ok {total : ℤ} {weights : List Double} {out : List ℤ}
    (ok : distributeAmount numbers total weights = .ok out) : out.length = weights.length ∧ out.sum = total ∧ ∀ x ∈ out, 0 ≤ x := by
  simp only [distributeAmount,binMathError,bind_eq_ok,reject_eq_ok,not_or,not_not] at ok
  obtain ⟨_,_,_,least,_,sums,ok⟩ := ok
  split_ifs at ok with zero
  · rw [pure_eq_ok] at ok
    subst ok
    exact ⟨List.length_map _,by simp [zero],by simp⟩
  · simp only [bind_eq_ok,reject_eq_ok,pure_eq_ok,not_le] at ok
    obtain ⟨scaled,made,_,positive,rfl⟩ := ok
    obtain ⟨sum,known,sum_pos⟩ := floatSum_positive sums
    obtain ⟨length,nonneg⟩ := scaledWeights_nonneg sum_pos known made
    have exact_ := Apportion.apportion_exact positive nonneg (not_lt.mp least)
    exact ⟨exact_.length.trans length,exact_.sum,exact_.nonneg⟩

end Split

section Silhouettes

/-- What `Math.exp` promises below zero, and at it. -/
structure Numbers.Documented (numbers : Numbers) : Prop where
  one : numbers.exp (.finite 0) = .finite 1
  unit : ∀ q ≤ (0 : ℚ), ∃ r, numbers.exp (.finite q) = .finite r ∧ 0 ≤ r ∧ r ≤ 1

/-- A weight that the sums below can bear. -/
def Bounded (w : Double) : Prop := ∃ q, w = .finite q ∧ 0 ≤ q ∧ q ≤ 2

def Heavy (w : Double) : Prop := ∃ q, w = .finite q ∧ 1 / 64 ≤ q

/-- The bounds below are doubles themselves. -/
theorem ofRat_bound {q : ℚ} (listed : q ∈ [0,1,2,128,1 / 64,1 / 2 ^ 27,2 ^ 20,2 ^ 21,2 ^ 40,-2 ^ 20,-2 ^ 21,-2 ^ 41]) :
    Double.ofRat q = .finite q := by
  have all : ∀ q ∈ ([0,1,2,128,1 / 64,1 / 2 ^ 27,2 ^ 20,2 ^ 21,2 ^ 40,-2 ^ 20,-2 ^ 21,-2 ^ 41] : List ℚ),
      Double.ofRat q = .finite q := by decide +kernel
  exact all q listed

theorem ofRat_zero : Double.ofRat 0 = .finite 0 := ofRat_bound (by simp)

theorem finite_div {a b : ℚ} (nonzero : b ≠ 0) : Double.finite a / .finite b = .ofRat (a / b) := by
  change Double.div _ _ = _
  rw [Double.div,if_neg nonzero]

theorem exponent_nonpos {sigma place : ℚ} (wide : 1 / 2 ≤ sigma) (low : -2 ^ 20 ≤ place) (high : place ≤ 2 ^ 20) :
    ∃ e ≤ 0, .finite (-1 / 2) * (.finite place / .finite sigma) * (.finite place / .finite sigma) = Double.finite e := by
  have positive : 0 < sigma := by linarith
  rw [finite_div positive.ne']
  rcases le_total 0 place with right | left
  · have top : place / sigma ≤ 2 ^ 21 := by
      rw [div_le_iff₀ positive]
      linarith
    obtain ⟨z,known,z_low,z_high⟩ := Double.ofRat_between (u := 2 ^ 21) ofRat_zero (ofRat_bound (by simp))
      (div_nonneg right positive.le) top
    obtain ⟨y,known',y_low,y_high⟩ := Double.ofRat_between (l := -2 ^ 20) (q := -1 / 2 * z) (ofRat_bound (by simp)) ofRat_zero
      (by linarith) (by linarith)
    obtain ⟨e,known_,_,below⟩ := Double.ofRat_between (l := -2 ^ 41) (q := y * z) (ofRat_bound (by simp)) ofRat_zero
      (by nlinarith) (by nlinarith)
    exact ⟨e,below,by rw [known,Double.finite_mul,known',Double.finite_mul,known_]⟩
  · have bottom : -2 ^ 21 ≤ place / sigma := by
      rw [le_div_iff₀ positive]
      linarith
    obtain ⟨z,known,z_low,z_high⟩ := Double.ofRat_between (l := -2 ^ 21) (ofRat_bound (by simp)) ofRat_zero bottom
      (div_nonpos_of_nonpos_of_nonneg left positive.le)
    obtain ⟨y,known',y_low,y_high⟩ := Double.ofRat_between (u := 2 ^ 20) (q := -1 / 2 * z) ofRat_zero (ofRat_bound (by simp))
      (by linarith) (by linarith)
    obtain ⟨e,known_,_,below⟩ := Double.ofRat_between (l := -2 ^ 41) (q := y * z) (ofRat_bound (by simp)) ofRat_zero
      (by nlinarith) (by nlinarith)
    exact ⟨e,below,by rw [known,Double.finite_mul,known',Double.finite_mul,known_]⟩

theorem exponent_centre {sigma : ℚ} (wide : 1 / 2 ≤ sigma) :
    .finite (-1 / 2) * (.finite 0 / .finite sigma) * (.finite 0 / .finite sigma) = Double.finite 0 := by
  rw [finite_div (by linarith),zero_div,ofRat_zero,Double.finite_mul,mul_zero,ofRat_zero,Double.finite_mul,mul_zero,ofRat_zero]

theorem add_bounded {a b : ℚ} (a_low : 0 ≤ a) (a_high : a ≤ 1) (b_low : 0 ≤ b) (b_high : b ≤ 1) :
    Bounded (.finite a + .finite b) := by
  obtain ⟨r,known,low,high⟩ := Double.ofRat_between (l := 0) (q := a + b) (u := 2) ofRat_zero (ofRat_bound (by simp))
    (by linarith) (by linarith)
  exact ⟨r,known,low,high⟩

theorem add_heavy {a b : ℚ} (low : 1 / 64 ≤ a + b) (high : a + b ≤ 2) : Heavy (.finite a + .finite b) := by
  obtain ⟨r,known,low,_⟩ := Double.ofRat_between (l := 1 / 64) (q := a + b) (u := 2) (ofRat_bound (by simp)) (ofRat_bound (by simp))
    low high
  exact ⟨r,known,low⟩

theorem sigma_wide {span : ℤ} (positive : 0 < span) (small : span ≤ 2 ^ 20) :
    ∃ sigma, Double.max ((span : Double) / 4) (.finite (1 / 2)) = .finite sigma ∧ 1 / 2 ≤ sigma := by
  have quarter : (span : Double) / 4 = .ofRat (span / (4 : ℕ)) := finite_div (by norm_num)
  have low : (0 : ℚ) ≤ span / (4 : ℕ) := div_nonneg (by exact_mod_cast positive.le) (Nat.cast_nonneg 4)
  have high : (span : ℚ) / (4 : ℕ) ≤ 2 ^ 20 := by
    have most : (span : ℚ) ≤ 2 ^ 20 := by exact_mod_cast small
    push_cast
    linarith
  obtain ⟨r,known,_,_⟩ := Double.ofRat_between (u := 2 ^ 20) ofRat_zero (ofRat_bound (by simp)) low high
  rw [quarter,known]
  unfold Double.max
  rw [if_neg (by simp)]
  simp only [Double.finite_lt]
  split
  · exact ⟨1 / 2,rfl,le_rfl⟩
  · rename_i wide
    exact ⟨r,rfl,not_lt.mp wide⟩

theorem literal_bounds : ∃ c d, Double.ofRat (1 / 1000000000) = .finite c ∧ (0 ≤ c ∧ c ≤ 1) ∧
    Double.ofRat (1 / 20) = .finite d ∧ (1 / 64 ≤ d ∧ d ≤ 1) := by
  obtain ⟨c,known,low,high⟩ := Double.ofRat_between (l := 0) (q := 1 / 1000000000) (u := 1) ofRat_zero (ofRat_bound (by simp))
    (by norm_num) (by norm_num)
  obtain ⟨d,known',low',high'⟩ := Double.ofRat_between (l := 1 / 64) (q := 1 / 20) (u := 1) (ofRat_bound (by simp)) (ofRat_bound (by simp))
    (by norm_num) (by norm_num)
  exact ⟨c,d,known,⟨low,high⟩,known',low',high'⟩

/-- The weight of a bin of a range that fits, and that of the centre or of an edge. -/
theorem shapeWeight_bounded (documented : numbers.Documented) (shape : LiquidityShape) {range : BinRange} {activeBinId binId : ℤ}
    (inside : binId ∈ binsOf range) (small : binSpan range.lowerBinId range.upperBinId ≤ 2 ^ 20) :
    let w := shapeWeight numbers shape range activeBinId (binId - centreOf range activeBinId)
    Bounded w ∧ (binId = centreOf range activeBinId → Heavy w) := by
  rw [mem_binsOf] at inside
  obtain ⟨c,d,epsilon,⟨c_low,c_high⟩,floor_,⟨d_low,d_high⟩⟩ := literal_bounds
  have span : 0 < binSpan range.lowerBinId range.upperBinId := by
    rw [binSpan]
    omega
  have near : -2 ^ 20 ≤ binId - centreOf range activeBinId ∧ binId - centreOf range activeBinId ≤ 2 ^ 20 := by
    rw [binSpan] at small
    unfold centreOf
    omega
  cases shape with
  | spot => exact ⟨⟨1,rfl,by norm_num,by norm_num⟩,fun _ => ⟨1,rfl,by norm_num⟩⟩
  | curve =>
    obtain ⟨sigma,known,wide⟩ := sigma_wide span small
    simp only [shapeWeight,known,epsilon]
    constructor
    · have left : (-2 ^ 20 : ℚ) ≤ (binId - centreOf range activeBinId : ℤ) := by exact_mod_cast near.1
      have right : ((binId - centreOf range activeBinId : ℤ) : ℚ) ≤ 2 ^ 20 := by exact_mod_cast near.2
      obtain ⟨e,below,value⟩ := exponent_nonpos wide left right
      obtain ⟨r,answer,low,high⟩ := documented.unit e below
      change Bounded (numbers.exp (.finite (-1 / 2) * (.finite ((binId - centreOf range activeBinId : ℤ) : ℚ) / .finite sigma) *
        (.finite ((binId - centreOf range activeBinId : ℤ) : ℚ) / .finite sigma)) + .finite c)
      rw [value,answer]
      exact add_bounded low high c_low c_high
    · intro centre
      rw [centre,sub_self]
      change Heavy (numbers.exp (.finite (-1 / 2) * (.finite ((0 : ℤ) : ℚ) / .finite sigma) *
        (.finite ((0 : ℤ) : ℚ) / .finite sigma)) + .finite c)
      rw [Int.cast_zero,exponent_centre wide,documented.one]
      exact add_heavy (by linarith) (by linarith)
  | bidAsk =>
    simp only [shapeWeight,floor_]
    have reach : (0 : ℚ) < (max (max (centreOf range activeBinId - range.lowerBinId) (range.upperBinId - centreOf range activeBinId)) 1 : ℤ) := by
      exact_mod_cast lt_of_lt_of_le one_pos (le_max_right _ _)
    have within : |binId - centreOf range activeBinId| ≤
        max (max (centreOf range activeBinId - range.lowerBinId) (range.upperBinId - centreOf range activeBinId)) 1 := by
      rw [abs_le]
      omega
    generalize max (max (centreOf range activeBinId - range.lowerBinId) (range.upperBinId - centreOf range activeBinId)) 1 = width
      at reach within ⊢
    have ratio : ((binId - centreOf range activeBinId : ℤ) : Double).abs / (width : Double) =
        .ofRat (|((binId - centreOf range activeBinId : ℤ) : ℚ)| / width) := finite_div reach.ne'
    have high : |((binId - centreOf range activeBinId : ℤ) : ℚ)| / width ≤ 1 := by
      rw [div_le_one reach]
      exact_mod_cast within
    obtain ⟨r,known,r_low,r_high⟩ := Double.ofRat_between (l := 0) (u := 1) ofRat_zero (ofRat_bound (by simp))
      (div_nonneg (abs_nonneg _) reach.le) high
    rw [ratio,known]
    exact ⟨add_bounded r_low r_high (by linarith) d_high,fun _ => add_heavy (by linarith) (by linarith)⟩

theorem shapeWeights_ok (documented : numbers.Documented) (shape : LiquidityShape) {range : BinRange}
    (some_ : range.lowerBinId ≤ range.upperBinId) (small : binSpan range.lowerBinId range.upperBinId ≤ 2 ^ 20) (activeBinId : ℤ) :
    ∃ weights, shapeWeights numbers shape range activeBinId = .ok weights ∧ (∀ w ∈ weights, Bounded w) ∧ ∃ w ∈ weights, Heavy w := by
  have span : ¬binSpan range.lowerBinId range.upperBinId ≤ 0 := by
    rw [binSpan]
    omega
  have centre : centreOf range activeBinId ∈ binsOf range := by
    rw [mem_binsOf,centreOf]
    omega
  refine ⟨_,by rw [shapeWeights,binMathError,reject,if_neg span]; rfl,?_,?_⟩
  · simp only [List.forall_mem_map]
    exact fun binId inside => (shapeWeight_bounded documented shape inside small).1
  · exact ⟨_,List.mem_map_of_mem centre,(shapeWeight_bounded documented shape centre small).2 rfl⟩

end Silhouettes

section Plan
variable {numbers : Numbers}

/-- The sum of weights that are bounded, and of one that is heavy. -/
theorem foldl_bounded {weights : List Double} (bounded : ∀ w ∈ weights, Bounded w) {a : ℚ} {k : ℕ} (low : 0 ≤ a)
    (high : a ≤ ((2 * k : ℕ) : ℚ)) (small : k + weights.length ≤ 2 ^ 20) :
    ∃ s : ℚ, weights.foldl (· + ·) (.finite a) = .finite s ∧ 0 ≤ s ∧ s ≤ ((2 * (k + weights.length) : ℕ) : ℚ) ∧
      ((1 / 64 ≤ a ∨ ∃ w ∈ weights, Heavy w) → 1 / 64 ≤ s) := by
  induction weights generalizing a k with
  | nil => exact ⟨a,rfl,low,high,fun heavy => heavy.elim id fun ⟨_,there,_⟩ => by cases there⟩
  | cons w weights ih =>
    obtain ⟨⟨q,rfl,q_low,q_high⟩,others⟩ := List.forall_mem_cons.mp bounded
    rw [List.length_cons] at small
    have reach : Double.ofRat ((2 * (k + 1) : ℕ) : ℚ) = .finite (2 * (k + 1) : ℕ) := Double.ofRat_natCast (by omega)
    have top : a + q ≤ (2 * (k + 1) : ℕ) := by
      push_cast at high ⊢
      linarith
    obtain ⟨r,known,r_low,r_high⟩ := Double.ofRat_between ofRat_zero reach (add_nonneg low q_low) top
    have heavier (heavy : 1 / 64 ≤ a ∨ 1 / 64 ≤ q) : 1 / 64 ≤ r := by
      obtain ⟨r',known',r_low',_⟩ := Double.ofRat_between (l := 1 / 64) (ofRat_bound (by simp)) reach
        (by rcases heavy with heavy | heavy <;> linarith) top
      rw [known,Double.finite.injEq] at known'
      rwa [known']
    obtain ⟨s,sum,s_low,s_high,s_heavy⟩ := ih others r_low r_high (by omega)
    refine ⟨s,?_,s_low,?_,fun heavy => s_heavy ?_⟩
    · rw [List.foldl_cons,← sum,← known]
      rfl
    · rw [List.length_cons]
      exact s_high.trans (by exact_mod_cast (by omega : 2 * (k + 1 + weights.length) ≤ 2 * (k + (weights.length + 1))))
    · rcases heavy with heavy | ⟨w,there,heavy⟩
      · exact .inl (heavier (.inl heavy))
      · rcases List.mem_cons.mp there with rfl | there
        · obtain ⟨q',same,heavy⟩ := heavy
          cases same
          exact .inl (heavier (.inr heavy))
        · exact .inr ⟨w,there,heavy⟩

/-- A bounded weight scales, and a heavy one to more than nothing. -/
theorem scaleWeight_ok {sum : ℚ} (low : 1 / 64 ≤ sum) (high : sum ≤ ((2 ^ 21 : ℕ) : ℚ)) {w : Double} (bounded : Bounded w) :
    ∃ n, scaleWeight numbers (.finite sum) w = .ok n ∧ 0 ≤ n ∧ (Heavy w → 0 < n) := by
  obtain ⟨q,rfl,q_low,q_high⟩ := bounded
  have positive : 0 < sum := by linarith
  have ratio_low : 0 ≤ q / sum := div_nonneg q_low positive.le
  have ratio_high : q / sum ≤ 128 := by
    rw [div_le_iff₀ positive]
    linarith
  obtain ⟨r,known,r_low,r_high⟩ := Double.ofRat_between (u := 128) ofRat_zero (ofRat_bound (by simp)) ratio_low ratio_high
  have scaled_high : r * WEIGHT_SCALE ≤ 2 ^ 40 := by
    rw [WEIGHT_SCALE]
    push_cast
    linarith
  obtain ⟨t,known',t_low,t_high⟩ := Double.ofRat_between (u := 2 ^ 40) ofRat_zero (ofRat_bound (by simp))
    (mul_nonneg r_low (Nat.cast_nonneg WEIGHT_SCALE)) scaled_high
  refine ⟨⌊t + 1 / 2⌋,?_,Int.floor_nonneg.mpr (by linarith),?_⟩
  · simp only [scaleWeight,binMathError,bind_eq_ok,reject_eq_ok,not_or,not_not,bigInt_eq_ok]
    refine ⟨(),⟨rfl,?_⟩,?_⟩
    · rw [show (0 : Double) = .finite (0 : ℕ) from rfl,Double.finite_lt,Nat.cast_zero]
      exact not_lt.mpr q_low
    · rw [finite_div positive.ne',known,Double.finite_mul,known']
      rfl
  · rintro ⟨q',same,heavy⟩
    cases same
    have ratio_least : 1 / 2 ^ 27 ≤ q / sum := by
      rw [le_div_iff₀ positive]
      push_cast at high
      linarith
    obtain ⟨r',again,r_least,_⟩ := Double.ofRat_between (l := 1 / 2 ^ 27) (u := 128) (ofRat_bound (by simp)) (ofRat_bound (by simp))
      ratio_least ratio_high
    rw [known,Double.finite.injEq] at again
    subst again
    have scaled_least : 1 ≤ r * WEIGHT_SCALE := by
      rw [WEIGHT_SCALE]
      push_cast
      linarith
    obtain ⟨t',again,t_least,_⟩ := Double.ofRat_between (l := 1) (u := 2 ^ 40) (ofRat_bound (by simp)) (ofRat_bound (by simp))
      scaled_least scaled_high
    rw [known',Double.finite.injEq] at again
    subst again
    exact Int.floor_pos.mpr (by linarith)

/-- Weights that are bounded, one of them heavy, pass every check of the split. -/
theorem distributeAmount_total {total : ℤ} (least : 0 ≤ total) {weights : List Double} (bounded : ∀ w ∈ weights, Bounded w)
    (heavy : ∃ w ∈ weights, Heavy w) (small : weights.length ≤ 2 ^ 20) :
    ∃ out, distributeAmount numbers total weights = .ok out := by
  obtain ⟨sum,known,_,high,low⟩ := foldl_bounded bounded (a := 0) (k := 0) le_rfl (by norm_num) (by omega)
  have low := low (.inr heavy)
  rw [Nat.zero_add] at high
  have top : sum ≤ ((2 ^ 21 : ℕ) : ℚ) := high.trans (by exact_mod_cast (by omega : 2 * weights.length ≤ 2 ^ 21))
  have known : floatSum weights = .finite sum := by
    rw [floatSum,← known]
    rfl
  have each (w) (there : w ∈ weights) := @scaleWeight_ok numbers _ low top _ (bounded w there)
  obtain ⟨scaled,made⟩ := (exists_mapM_eq_ok (scaleWeight numbers (.finite sum)) weights).mpr fun w there =>
    (each w there).imp fun n both => both.1
  have positive : 0 < scaled.sum := by
    obtain ⟨w,there,some_⟩ := heavy
    obtain ⟨n,value,_,more⟩ := each w there
    obtain ⟨i,inside,rfl⟩ := List.mem_iff_getElem.mp there
    have related := mapM_eq_ok.mp made
    have inside' : i < scaled.length := related.length_eq ▸ inside
    have same := List.forall₂_iff_get.mp related |>.2 i inside inside'
    rw [List.get_eq_getElem,value,Except.ok.injEq] at same
    have nonneg : ∀ m ∈ scaled, 0 ≤ m := fun m there =>
      (mem_of_mapM made m there).elim fun w both => scaleWeight_nonneg (by linarith) both.2
    calc 0 < n := more some_
      _ = scaled.get ⟨i,inside'⟩ := same
      _ ≤ scaled.sum := List.single_le_sum nonneg _ (List.get_mem _ _)
  have sums : (floatSum weights).isFinite = true ∧ ¬floatSum weights ≤ 0 := by
    rw [known,show (0 : Double) = .finite (0 : ℕ) from rfl,Double.finite_le,Nat.cast_zero]
    exact ⟨rfl,not_le.mpr (by linarith)⟩
  obtain ⟨out,done,_⟩ := @distributeAmount_exact numbers _ _ _ least sums (by rw [scaledWeights,known]; exact made) positive
  exact ⟨out,done⟩

theorem length_shapeWeights {shape : LiquidityShape} {activeBinId : ℤ} {range : BinRange} {weights : List Double}
    (ok : shapeWeights numbers shape range activeBinId = .ok weights) : weights.length = (binsOf range).length := by
  simp only [shapeWeights,binMathError,bind_eq_ok,reject_eq_ok,pure_eq_ok] at ok
  obtain ⟨_,_,rfl⟩ := ok
  exact List.length_map _

theorem planDeposit_nil {args : DepositPlan} (none_ : sideBins args = []) : planDeposit numbers args = .ok [] := by
  rw [planDeposit,none_]
  rfl

/-- A plan over some bin is a split of the amount by the weights of its side of the range. -/
theorem planDeposit_some {args : DepositPlan} (some_ : sideBins args ≠ []) : planDeposit numbers args = (do
    let weights ← shapeWeights numbers args.shape (sideRange args) args.activeBinId
    let amounts ← distributeAmount numbers args.amount weights
    ((sideBins args).zip amounts).mapM fun (binId,amount) => do
      let uiPrice ← uiPriceOfBin numbers binId args.binStep args.baseDecimals args.quoteDecimals
      return { binId, uiPrice, amount }) := by
  have filled : (sideRange args).lowerBinId ≤ (sideRange args).upperBinId := by
    by_contra none_
    exact some_ (by rw [sideBins_eq,binsOf_nil (not_le.mp none_)])
  obtain ⟨first,last⟩ := ends_binsOf filled
  rw [← sideBins_eq] at first last
  simp only [planDeposit,first,last]

theorem rows_of_plan {args : DepositPlan} {rows : List (ℤ × ℤ)} {plan : List BinAllocation}
    (ok : (rows.mapM fun (binId,amount) => do
      let uiPrice ← uiPriceOfBin numbers binId args.binStep args.baseDecimals args.quoteDecimals
      return ({ binId, uiPrice, amount } : BinAllocation)) = .ok plan) :
    plan.map (fun row => (row.binId,row.amount)) = rows := by
  rw [mapM_eq_ok] at ok
  induction ok with
  | nil => rfl
  | @cons row allocation rows plan made _ ih =>
    obtain ⟨binId,amount⟩ := row
    simp only [bind_eq_ok,pure_eq_ok] at made
    obtain ⟨uiPrice,_,rfl⟩ := made
    rw [List.map_cons,ih]

theorem planDeposit_ok {args : DepositPlan} {plan : List BinAllocation} (ok : planDeposit numbers args = .ok plan) :
    plan.map (·.binId) = sideBins args ∧ (∀ row ∈ plan, 0 ≤ row.amount) ∧
      (sideBins args ≠ [] → (plan.map (·.amount)).sum = args.amount) := by
  by_cases none_ : sideBins args = []
  · rw [planDeposit_nil none_,Except.ok.injEq] at ok
    subst ok
    exact ⟨none_.symm,by simp,fun some_ => absurd none_ some_⟩
  · simp only [planDeposit_some none_,bind_eq_ok] at ok
    obtain ⟨weights,shaped,amounts,split_,ok⟩ := ok
    obtain ⟨length,sum,nonneg⟩ := distributeAmount_ok split_
    have rows := rows_of_plan ok
    have same : (sideBins args).length = amounts.length := by
      rw [length,length_shapeWeights shaped,sideBins_eq]
    have ids : plan.map (·.binId) = sideBins args := by
      rw [← List.map_fst_zip same.le,← rows,List.map_map]
      rfl
    have parts : plan.map (·.amount) = amounts := by
      rw [← List.map_snd_zip same.ge,← rows,List.map_map]
      rfl
    refine ⟨ids,?_,fun _ => by rw [parts,sum]⟩
    intro row there
    exact nonneg _ (parts ▸ List.mem_map_of_mem there)

theorem uiPriceOfBin_ok {binId binStep : ℤ} (step : 1 ≤ binStep ∧ binStep ≤ MAX_BIN_STEP)
    (low : MIN_BIN_ID ≤ binId) (high : binId ≤ MAX_BIN_ID) (baseDecimals quoteDecimals : ℤ) :
    ∃ price, uiPriceOfBin numbers binId binStep baseDecimals quoteDecimals = .ok price := by
  have price : priceOfBin numbers binId binStep = .ok (numbers.pow (1 + (binStep : Double) / .finite BASIS_POINT_MAX) binId) := by
    simp only [priceOfBin,binMathError,bind_eq_ok,reject_eq_ok]
    exact ⟨(),by omega,(),by omega,rfl⟩
  exact ⟨_,by rw [uiPriceOfBin,price]; rfl⟩

theorem planDeposit_total (documented : numbers.Documented) {args : DepositPlan} (low : MIN_BIN_ID ≤ args.range.lowerBinId)
    (high : args.range.upperBinId ≤ MAX_BIN_ID) (step : 1 ≤ args.binStep ∧ args.binStep ≤ MAX_BIN_STEP)
    (least : 0 ≤ args.amount) : ∃ plan, planDeposit numbers args = .ok plan := by
  by_cases none_ : sideBins args = []
  · exact ⟨[],planDeposit_nil none_⟩
  · have filled : (sideRange args).lowerBinId ≤ (sideRange args).upperBinId := by
      by_contra empty
      exact none_ (by rw [sideBins_eq,binsOf_nil (not_le.mp empty)])
    have small : binSpan (sideRange args).lowerBinId (sideRange args).upperBinId ≤ 2 ^ 20 := by
      rw [MIN_BIN_ID] at low
      rw [MAX_BIN_ID] at high
      unfold binSpan sideRange
      cases args.side
      · dsimp only
        omega
      · dsimp only
        omega
    obtain ⟨weights,shaped,bounded,heavy⟩ := shapeWeights_ok documented args.shape filled small args.activeBinId
    have few : weights.length ≤ 2 ^ 20 := by
      rw [length_shapeWeights shaped,length_binsOf]
      omega
    obtain ⟨amounts,split_⟩ := @distributeAmount_total numbers _ least _ bounded heavy few
    obtain ⟨plan,made⟩ := (exists_mapM_eq_ok (fun row : ℤ × ℤ => do
      let uiPrice ← uiPriceOfBin numbers row.1 args.binStep args.baseDecimals args.quoteDecimals
      return ({ binId := row.1, uiPrice, amount := row.2 } : BinAllocation)) ((sideBins args).zip amounts)).mpr (by
        rintro ⟨binId,amount⟩ there
        obtain ⟨lower,upper,_⟩ := mem_sideBins.mp (List.of_mem_zip there).1
        obtain ⟨price,known⟩ := @uiPriceOfBin_ok numbers _ _ step (low.trans lower) (upper.trans high)
          args.baseDecimals args.quoteDecimals
        exact ⟨_,by rw [known]; rfl⟩)
    refine ⟨plan,?_⟩
    rw [planDeposit_some none_,shaped]
    change (distributeAmount numbers args.amount weights >>= _) = _
    rw [split_]
    exact made

/-- Weights that pass the checks of a split are split exactly, and a plan lays the amount out over the
bins on its side of the active one, each once. In the bounds of a pool there always is a plan. -/
theorem deposit_exact (numbers : Numbers) :
    (∀ (total : ℤ) (weights : List Double) (scaled : List ℤ), 0 ≤ total →
      (floatSum weights).isFinite = true ∧ ¬floatSum weights ≤ 0 → scaledWeights numbers weights = .ok scaled → 0 < scaled.sum →
        ∃ out, distributeAmount numbers total weights = .ok out ∧ Apportion.Exact total scaled out) ∧
    (∀ (args : DepositPlan) (plan : List BinAllocation), planDeposit numbers args = .ok plan →
      (plan.map (·.binId)).Nodup ∧ (∀ row ∈ plan, 0 ≤ row.amount) ∧
      (∀ b, b ∈ plan.map (·.binId) ↔ args.range.lowerBinId ≤ b ∧ b ≤ args.range.upperBinId ∧ onSide args.side args.activeBinId b = true) ∧
      ((∃ b, args.range.lowerBinId ≤ b ∧ b ≤ args.range.upperBinId ∧ onSide args.side args.activeBinId b = true) →
        (plan.map (·.amount)).sum = args.amount)) ∧
    (numbers.Documented → ∀ args : DepositPlan, MIN_BIN_ID ≤ args.range.lowerBinId → args.range.upperBinId ≤ MAX_BIN_ID →
      1 ≤ args.binStep ∧ args.binStep ≤ MAX_BIN_STEP → 0 ≤ args.amount → ∃ plan, planDeposit numbers args = .ok plan) := by
  refine ⟨?_,?_,?_⟩
  · intro total weights scaled least sums ok positive
    exact distributeAmount_exact least sums ok positive
  · intro args plan ok
    obtain ⟨ids,nonneg,sum⟩ := planDeposit_ok ok
    refine ⟨ids ▸ sideBins_nodup args,nonneg,fun b => by rw [ids,mem_sideBins],?_⟩
    rintro ⟨b,inside⟩
    exact sum (List.ne_nil_of_mem (mem_sideBins.mpr inside))
  · intro documented args low high step least
    exact planDeposit_total documented low high step least

end Plan

namespace Sample

/-- `exp` is `(1 - x/n)^-n`, and powers of whole exponents are exact before they are rounded. -/
def numbers : Numbers where
  exp x := match x with
    | .finite q => .ofRat (1 / (1 - q / 1024) ^ 1024)
    | x => x
  pow x y := match x,y with
    | .finite a,.finite b => if b.den = 1 then .ofRat (a ^ b.num) else .nan
    | _,_ => .nan
  text _ := ""

theorem numbers_documented : numbers.Documented where
  one := by decide +kernel
  unit q below := by
    have base : 1 ≤ 1 - q / 1024 := by linarith
    have power : 1 ≤ (1 - q / 1024) ^ 1024 := one_le_pow₀ base
    obtain ⟨r,known,low,high⟩ := Double.ofRat_between (l := 0) (q := 1 / (1 - q / 1024) ^ 1024) (u := 1) ofRat_zero
      (ofRat_bound (by simp)) (by positivity) (by rw [div_le_one (by positivity)]; exact power)
    exact ⟨r,known,low,high⟩

def depositPlan : DepositPlan where
  range := ⟨100,104⟩
  activeBinId := 102
  binStep := 25
  shape := .bidAsk
  amount := 1000
  side := .quote
  baseDecimals := 6
  quoteDecimals := 9

theorem deposit_exact_sample : ∃ out plan, distributeAmount numbers 1000 [1,1,1] = .ok out ∧
    Apportion.Exact 1000 [333333333,333333333,333333333] out ∧ planDeposit numbers depositPlan = .ok plan ∧
    (plan.map (·.binId)).Nodup ∧ (plan.map (·.amount)).sum = 1000 := by
  obtain ⟨split_,laid,total⟩ := deposit_exact numbers
  obtain ⟨out,ok,exact_⟩ := split_ 1000 [1,1,1] [333333333,333333333,333333333] (by decide) (by decide +kernel)
    (by decide +kernel) (by decide)
  obtain ⟨plan,made⟩ := total numbers_documented depositPlan (by decide) (by decide) (by decide) (by decide)
  obtain ⟨once,_,_,sum⟩ := laid depositPlan plan made
  exact ⟨out,plan,ok,exact_,made,once,sum ⟨101,by decide⟩⟩

end Sample

end RatifyOs.Pools
