import Mathlib.Algebra.Order.Ring.Int
import Mathlib.Tactic.Positivity
import RatifyOs.Pools.Withdraw

/-! The bonding curve of pump.fun: a constant product over virtual reserves, and the integer
arithmetic of the program that quotes a buy and a sell. -/
namespace RatifyOs.Pools
open Data Data.Result

structure CurveReserves where
  virtualSolReserves : ℤ
  virtualTokenReserves : ℤ
  realSolReserves : ℤ
  realTokenReserves : ℤ
  tokenTotalSupply : ℤ
  complete : Bool

namespace CurveReserves

/-- The invariant `k` of the curve. -/
def product (r : CurveReserves) : ℤ := r.virtualSolReserves * r.virtualTokenReserves

/-- Virtual reserves are seeded above zero. -/
structure Seeded (r : CurveReserves) : Prop where
  sol : 0 < r.virtualSolReserves
  token : 0 < r.virtualTokenReserves

end CurveReserves

/-- A `CurveMathError`, which is a `RangeError`. -/
def curveMathError (c : Prop) [Decidable c] (message : String) : Except Thrown Unit := reject c (.range message)

def assertPositive (name : String) (v : ℤ) : Except Thrown Unit := curveMathError (v ≤ 0) s!"{name} must be positive, got {v}"

def number (v : ℤ) : Double := .ofRat v

section Quoting
variable (r : CurveReserves)

def tokensForSol (solIn : ℤ) : Except Thrown ℤ := do
  assertPositive "virtualSolReserves" r.virtualSolReserves
  assertPositive "virtualTokenReserves" r.virtualTokenReserves
  if solIn ≤ 0 then return 0
  else
    let k := r.virtualSolReserves * r.virtualTokenReserves
    let newSol := r.virtualSolReserves + solIn
    let newTokens := k.tdiv newSol + 1
    let out := if r.virtualTokenReserves > newTokens then r.virtualTokenReserves - newTokens else 0
    return if out < r.realTokenReserves then out else r.realTokenReserves

def solCostForTokens (tokenAmount : ℤ) : Except Thrown ℤ := do
  assertPositive "virtualSolReserves" r.virtualSolReserves
  assertPositive "virtualTokenReserves" r.virtualTokenReserves
  if tokenAmount ≤ 0 then return 0
  else
    curveMathError (tokenAmount ≥ r.virtualTokenReserves) "token amount would drain the virtual token reserve"
    let k := r.virtualSolReserves * r.virtualTokenReserves
    let newSol := k.tdiv (r.virtualTokenReserves - tokenAmount) + 1
    return newSol - r.virtualSolReserves

def solForTokens (tokenAmount : ℤ) : Except Thrown ℤ := do
  assertPositive "virtualSolReserves" r.virtualSolReserves
  assertPositive "virtualTokenReserves" r.virtualTokenReserves
  if tokenAmount ≤ 0 then return 0
  else return (tokenAmount * r.virtualSolReserves).tdiv (r.virtualTokenReserves + tokenAmount)

def priceImpact (sol tokens : ℤ) : Double :=
  let spot := number r.virtualSolReserves / number r.virtualTokenReserves
  let effective := number sol / number tokens
  if 0 < spot then (effective - spot) / spot * 100 else 0

structure BuyQuote where
  tokenAmount : ℤ
  solCostLamports : ℤ
  feeLamports : ℤ
  totalLamports : ℤ
  maxSolCostLamports : ℤ
  feeBps : ℤ
  spotPriceLamports : Double
  priceImpactPct : Double
  deriving DecidableEq

def quoteBuyForSolBudget (solBudgetLamports feeBps : ℤ) (slippageBps : Double) : Except Thrown BuyQuote := do
  curveMathError (solBudgetLamports ≤ 0) "sol budget must be positive"
  curveMathError (feeBps < 0) "feeBps must be non-negative"
  curveMathError (¬slippageBps.isFinite ∨ slippageBps < 0) "slippageBps must be finite and non-negative"
  curveMathError r.complete "curve has completed — it no longer accepts buys"
  let curveBudget := (solBudgetLamports * 10000).tdiv (10000 + feeBps)
  let tokenAmount ← tokensForSol r curveBudget
  curveMathError (tokenAmount ≤ 0) "budget too small to buy a single token unit"
  let solCostLamports ← solCostForTokens r tokenAmount
  let feeLamports := (solCostLamports * feeBps).tdiv 10000
  let totalLamports := solCostLamports + feeLamports
  let factor ← bigInt (10000 + slippageBps.round)
  let maxSolCostLamports := (totalLamports * factor).tdiv 10000
  return {
    tokenAmount, solCostLamports, feeLamports, totalLamports, maxSolCostLamports, feeBps
    spotPriceLamports := number r.virtualSolReserves / number r.virtualTokenReserves
    priceImpactPct := priceImpact r solCostLamports tokenAmount }

structure SellQuote where
  tokenAmount : ℤ
  grossSolLamports : ℤ
  feeLamports : ℤ
  netSolLamports : ℤ
  minSolOutputLamports : ℤ
  feeBps : ℤ
  spotPriceLamports : Double
  priceImpactPct : Double
  deriving DecidableEq

def quoteSell (tokenAmount feeBps : ℤ) (slippageBps : Double) : Except Thrown SellQuote := do
  curveMathError (tokenAmount ≤ 0) "token amount must be positive"
  curveMathError (feeBps < 0) "feeBps must be non-negative"
  curveMathError (¬slippageBps.isFinite ∨ slippageBps < 0) "slippageBps must be finite and non-negative"
  curveMathError (10000 ≤ slippageBps) "slippageBps must be below 100%"
  curveMathError r.complete "curve has completed — it no longer accepts sells"
  let grossSolLamports ← solForTokens r tokenAmount
  let feeLamports := (grossSolLamports * feeBps).tdiv 10000
  let netSolLamports := grossSolLamports - feeLamports
  let factor ← bigInt (10000 - slippageBps.round)
  let minSolOutputLamports := (netSolLamports * factor).tdiv 10000
  return {
    tokenAmount, grossSolLamports, feeLamports, netSolLamports, minSolOutputLamports, feeBps
    spotPriceLamports := number r.virtualSolReserves / number r.virtualTokenReserves
    priceImpactPct := priceImpact r grossSolLamports tokenAmount }

end Quoting

section Specs
variable {r : CurveReserves}

theorem assertPositive_ok {name : String} {v : ℤ} {u : Unit} : assertPositive name v = .ok u ↔ 0 < v := by
  rw [assertPositive,curveMathError,reject_eq_ok,not_le]

theorem seeded_bind {α : Type} {next : Except Thrown α} {a : α} :
    (do
      assertPositive "virtualSolReserves" r.virtualSolReserves
      assertPositive "virtualTokenReserves" r.virtualTokenReserves
      next) = .ok a ↔ r.Seeded ∧ next = .ok a := by
  simp only [bind_eq_ok,assertPositive_ok]
  constructor
  · rintro ⟨_,sol,_,token,done⟩
    exact ⟨⟨sol,token⟩,done⟩
  · rintro ⟨seeded,done⟩
    exact ⟨(),seeded.sol,(),seeded.token,done⟩

/-- The virtual token reserve once `solIn` lamports are in, unless the curve holds too few tokens. -/
def tokensLeft (r : CurveReserves) (solIn : ℤ) : ℤ :=
  max (r.virtualTokenReserves - r.realTokenReserves) (r.product / (r.virtualSolReserves + solIn) + 1)

theorem tokensForSol_ok {s t : ℤ} (ok : tokensForSol r s = .ok t) (some_ : 0 < t) :
    r.Seeded ∧ 0 < s ∧ t ≤ r.realTokenReserves ∧ r.virtualTokenReserves - t = tokensLeft r s := by
  obtain ⟨seeded,ok⟩ := seeded_bind.mp ok
  have sol := seeded.sol
  have token := seeded.token
  split at ok
  · rw [pure_eq_ok] at ok
    omega
  · rename_i positive
    rw [pure_eq_ok] at ok
    have nonneg : 0 ≤ r.virtualSolReserves * r.virtualTokenReserves := by positivity
    rw [Int.tdiv_eq_ediv_of_nonneg nonneg] at ok
    rw [tokensLeft,CurveReserves.product]
    generalize r.virtualSolReserves * r.virtualTokenReserves / (r.virtualSolReserves + s) = left at ok ⊢
    subst ok
    refine ⟨seeded,not_le.mp positive,?_,?_⟩
    · split_ifs <;> omega
    · split_ifs at some_ ⊢ <;> omega

theorem tokensForSol_total (seeded : r.Seeded) (s : ℤ) : ∃ t, tokensForSol r s = .ok t := by
  have reached (next : Except Thrown ℤ) (a : ℤ) (done : next = .ok a) := seeded_bind.mpr ⟨seeded,done⟩
  by_cases positive : s ≤ 0
  · exact ⟨0,reached _ _ (if_pos positive)⟩
  · exact ⟨_,reached _ _ (if_neg positive)⟩

theorem solCostForTokens_ok {t cost : ℤ} : solCostForTokens r t = .ok cost ↔
    r.Seeded ∧ (t ≤ 0 ∧ cost = 0 ∨
      0 < t ∧ t < r.virtualTokenReserves ∧ cost = r.product / (r.virtualTokenReserves - t) + 1 - r.virtualSolReserves) := by
  refine seeded_bind.trans (and_congr_right fun seeded => ?_)
  have sol := seeded.sol
  have token := seeded.token
  have nonneg : 0 ≤ r.virtualSolReserves * r.virtualTokenReserves := by positivity
  split
  · rename_i none_
    rw [pure_eq_ok]
    omega
  · rename_i some_
    simp only [curveMathError,bind_eq_ok,reject_eq_ok,pure_eq_ok,ge_iff_le,not_le,Int.tdiv_eq_ediv_of_nonneg nonneg,
      CurveReserves.product]
    constructor
    · rintro ⟨_,below,rfl⟩
      exact .inr ⟨by omega,below,rfl⟩
    · rintro (⟨none_,_⟩ | ⟨_,below,rfl⟩)
      · exact absurd none_ some_
      · exact ⟨(),below,rfl⟩

theorem solForTokens_ok {t proceeds : ℤ} : solForTokens r t = .ok proceeds ↔
    r.Seeded ∧ (t ≤ 0 ∧ proceeds = 0 ∨
      0 < t ∧ proceeds = t * r.virtualSolReserves / (r.virtualTokenReserves + t)) := by
  refine seeded_bind.trans (and_congr_right fun seeded => ?_)
  have sol := seeded.sol
  split
  · rename_i none_
    rw [pure_eq_ok]
    omega
  · rename_i some_
    have nonneg : 0 ≤ t * r.virtualSolReserves := mul_nonneg (by omega) sol.le
    rw [pure_eq_ok,Int.tdiv_eq_ediv_of_nonneg nonneg]
    omega

/-- What is left over `d` times over does not reach `k`. -/
theorem le_of_lt_mul {k c d : ℤ} (positive : 0 < d) : k / d + 1 ≤ c ↔ k < c * d := by
  rw [Int.add_one_le_iff,Int.ediv_lt_iff_lt_mul positive]

theorem cost_le (seeded : r.Seeded) {t s : ℤ} (positive : 0 < s) (some_ : 0 < t)
    (left : r.virtualTokenReserves - t = tokensLeft r s) :
    ∃ cost, solCostForTokens r t = .ok cost ∧ 0 < cost ∧ cost ≤ s := by
  have sol := seeded.sol
  have token := seeded.token
  have product : 0 < r.product := mul_pos sol token
  have budget : 0 < r.virtualSolReserves + s := by omega
  -- the reserve after the trade is above what the budget alone would leave
  have above : r.product < (r.virtualSolReserves + s) * (r.virtualTokenReserves - t) := by
    rw [mul_comm,← le_of_lt_mul budget,left]
    exact le_max_right _ _
  have rest : 0 < r.virtualTokenReserves - t := pos_of_mul_pos_right (product.trans above) budget.le
  refine ⟨_,solCostForTokens_ok.mpr ⟨seeded,.inr ⟨some_,by omega,rfl⟩⟩,?_,?_⟩
  · have least : r.virtualSolReserves ≤ r.product / (r.virtualTokenReserves - t) := by
      rw [Int.le_ediv_iff_mul_le rest,CurveReserves.product]
      exact mul_le_mul_of_nonneg_left (by omega) sol.le
    omega
  · have most := (le_of_lt_mul rest).mpr above
    omega

/-- What holds of every quote that is returned, with the factor of its slippage. -/
structure BuyQuote.Returned (r : CurveReserves) (solBudgetLamports feeBps : ℤ) (slippageBps : Double) (factor : ℤ)
    (quote : BuyQuote) : Prop where
  budget : 0 < solBudgetLamports
  fee : 0 ≤ feeBps
  accepted : slippageBps.isFinite ∧ ¬slippageBps < 0
  live : ¬r.complete
  tokens : tokensForSol r (solBudgetLamports * 10000 / (10000 + feeBps)) = .ok quote.tokenAmount
  some_ : 0 < quote.tokenAmount
  cost : solCostForTokens r quote.tokenAmount = .ok quote.solCostLamports
  slipped : bigInt (10000 + slippageBps.round) = .ok factor
  total : quote.totalLamports = quote.solCostLamports + (quote.solCostLamports * feeBps).tdiv 10000
  max : quote.maxSolCostLamports = (quote.totalLamports * factor).tdiv 10000

theorem quoteBuyForSolBudget_ok {solBudgetLamports feeBps : ℤ} {slippageBps : Double} {quote : BuyQuote}
    (ok : quoteBuyForSolBudget r solBudgetLamports feeBps slippageBps = .ok quote) :
    ∃ factor, quote.Returned r solBudgetLamports feeBps slippageBps factor := by
  simp only [quoteBuyForSolBudget,curveMathError,bind_eq_ok,reject_eq_ok,pure_eq_ok,not_or,not_not,not_le,
    not_lt] at ok
  obtain ⟨_,budget,_,fee,_,accepted,_,live,tokens,bought,_,some_,cost,charged,factor,slipped,rfl⟩ := ok
  have nonneg : 0 ≤ solBudgetLamports * 10000 := by omega
  rw [Int.tdiv_eq_ediv_of_nonneg nonneg] at bought
  exact ⟨factor,budget,fee,accepted,live,bought,some_,charged,slipped,rfl,rfl⟩

theorem bigInt_eq_ok {x : Double} {n : ℤ} : bigInt x = .ok n ↔ x = .finite n := by
  unfold bigInt
  split
  · rename_i q
    split_ifs with whole
    · rw [Except.ok.injEq,Double.finite.injEq,← (Rat.den_eq_one_iff q).mp whole]
      exact_mod_cast Iff.rfl
    · rw [Double.finite.injEq]
      constructor
      · nofun
      · rintro rfl
        exact absurd (Rat.den_intCast n) whole
  · rename_i other
    constructor
    · nofun
    · exact fun whole => absurd whole (other n)

theorem le_factor {slippageBps : Double} (accepted : slippageBps.isFinite ∧ ¬slippageBps < 0) {factor : ℤ}
    (slipped : bigInt (10000 + slippageBps.round) = .ok factor) : 10000 ≤ factor := by
  cases slippageBps with
  | finite q =>
    have nonneg : (0 : ℚ) ≤ q := by
      have least := accepted.2
      rw [show (0 : Double) = .finite (0 : ℕ) from rfl,Double.finite_lt] at least
      exact_mod_cast not_lt.mp least
    have rounds : (0 : ℤ) ≤ ⌊q + 1 / 2⌋ := Int.floor_nonneg.mpr (by linarith)
    have least : Double.ofRat (10000 : ℕ) ≤ Double.ofRat ((10000 : ℕ) + ⌊q + 1 / 2⌋) := by
      apply Double.ofRat_mono
      exact_mod_cast le_add_of_nonneg_right rounds
    rw [bigInt_eq_ok] at slipped
    change Double.ofRat ((10000 : ℕ) + ⌊q + 1 / 2⌋) = _ at slipped
    rw [slipped,Double.ofRat_natCast (by norm_num),Double.finite_le] at least
    exact_mod_cast least
  | infinite n => cases accepted.1
  | nan => cases accepted.1

theorem total_eq {cost feeBps : ℤ} (costs : 0 ≤ cost) (fee : 0 ≤ feeBps) :
    cost + (cost * feeBps).tdiv 10000 = cost * (10000 + feeBps) / 10000 := by
  rw [Int.tdiv_eq_ediv_of_nonneg (mul_nonneg costs fee),mul_add,Int.add_ediv_of_dvd_left (Dvd.intro_left _ rfl),
    Int.mul_ediv_cancel _ (by decide)]

theorem total_le {cost feeBps budget : ℤ} (costs : 0 ≤ cost) (fee : 0 ≤ feeBps)
    (within : cost ≤ budget * 10000 / (10000 + feeBps)) : cost + (cost * feeBps).tdiv 10000 ≤ budget := by
  rw [total_eq costs fee]
  apply Int.ediv_le_of_le_mul (by decide)
  calc cost * (10000 + feeBps) ≤ budget * 10000 / (10000 + feeBps) * (10000 + feeBps) := by gcongr
    _ ≤ budget * 10000 := Int.ediv_mul_le _ (by omega)

namespace BuyQuote.Returned
variable {budget feeBps : ℤ} {slippageBps : Double} {factor : ℤ} {quote : BuyQuote}

theorem costs (returned : quote.Returned r budget feeBps slippageBps factor) :
    0 < quote.solCostLamports ∧ quote.solCostLamports ≤ budget * 10000 / (10000 + feeBps) := by
  obtain ⟨seeded,positive,_,left⟩ := tokensForSol_ok returned.tokens returned.some_
  obtain ⟨cost,charged,least,most⟩ := cost_le seeded positive returned.some_ left
  rw [returned.cost,Except.ok.injEq] at charged
  exact charged ▸ ⟨least,most⟩

theorem total_bounds (returned : quote.Returned r budget feeBps slippageBps factor) :
    0 < quote.totalLamports ∧ quote.totalLamports ≤ budget := by
  obtain ⟨least,most⟩ := returned.costs
  rw [returned.total]
  refine ⟨?_,total_le least.le returned.fee most⟩
  have fee : 0 ≤ (quote.solCostLamports * feeBps).tdiv 10000 := Int.tdiv_nonneg (mul_nonneg least.le returned.fee) (by decide)
  omega

theorem total_le_max (returned : quote.Returned r budget feeBps slippageBps factor) :
    quote.totalLamports ≤ quote.maxSolCostLamports := by
  have least := returned.total_bounds.1.le
  have factor := le_factor returned.accepted returned.slipped
  rw [returned.max,Int.tdiv_eq_ediv_of_nonneg (mul_nonneg least (by omega)),Int.le_ediv_iff_mul_le (by decide)]
  exact mul_le_mul_of_nonneg_left factor least

end BuyQuote.Returned

end Specs

section Trades

/-- A trade on the curve, in base units of the token. -/
inductive CurveTrade where
  | buy (tokenAmount : ℕ)
  | sell (tokenAmount : ℕ)

/-- The curve, and the lamports that trades have moved into it and out of it. -/
structure Till where
  reserves : CurveReserves
  takenIn : ℤ
  paidOut : ℤ

def Till.trade (till : Till) : CurveTrade → Except Thrown Till
  | .buy tokenAmount => do
    let cost ← solCostForTokens till.reserves tokenAmount
    return {
      reserves := { till.reserves with
        virtualSolReserves := till.reserves.virtualSolReserves + cost
        virtualTokenReserves := till.reserves.virtualTokenReserves - tokenAmount
        realSolReserves := till.reserves.realSolReserves + cost
        realTokenReserves := till.reserves.realTokenReserves - tokenAmount }
      takenIn := till.takenIn + cost
      paidOut := till.paidOut }
  | .sell tokenAmount => do
    let proceeds ← solForTokens till.reserves tokenAmount
    return {
      reserves := { till.reserves with
        virtualSolReserves := till.reserves.virtualSolReserves - proceeds
        virtualTokenReserves := till.reserves.virtualTokenReserves + tokenAmount
        realSolReserves := till.reserves.realSolReserves - proceeds
        realTokenReserves := till.reserves.realTokenReserves + tokenAmount }
      takenIn := till.takenIn
      paidOut := till.paidOut + proceeds }

/-- From `till` to `till'`: the invariant of the curve has not decreased, and the lamports are accounted for. -/
structure Till.Moves (till till' : Till) : Prop where
  seeded : till'.reserves.Seeded
  product : till.reserves.product ≤ till'.reserves.product
  lamports : till'.reserves.virtualSolReserves - till.reserves.virtualSolReserves =
    (till'.takenIn - till.takenIn) - (till'.paidOut - till.paidOut)

namespace Till.Moves
variable {till mid till' : Till}

theorem refl (seeded : till.reserves.Seeded) : till.Moves till := ⟨seeded,le_rfl,by omega⟩

theorem trans (first : till.Moves mid) (rest : mid.Moves till') : till.Moves till' := by
  refine ⟨rest.seeded,first.product.trans rest.product,?_⟩
  have here := first.lamports
  have there := rest.lamports
  omega

/-- Back at its token reserve, the curve holds no less than it started with. -/
theorem paid_le (moves : till.Moves till') (seeded : till.reserves.Seeded)
    (back : till'.reserves.virtualTokenReserves = till.reserves.virtualTokenReserves) :
    till'.paidOut - till.paidOut ≤ till'.takenIn - till.takenIn := by
  have product := moves.product
  rw [CurveReserves.product,CurveReserves.product,back] at product
  have held := le_of_mul_le_mul_right product seeded.token
  have lamports := moves.lamports
  omega

end Till.Moves

/-- Rounding is in favour of the curve, in either direction. -/
theorem Till.trade_moves {till till' : Till} (seeded : till.reserves.Seeded) {trade : CurveTrade}
    (done : till.trade trade = .ok till') : till.Moves till' := by
  have sol := seeded.sol
  have token := seeded.token
  cases trade with
  | buy tokenAmount =>
    simp only [Till.trade,bind_eq_ok,pure_eq_ok] at done
    obtain ⟨cost,charged,rfl⟩ := done
    obtain ⟨_,⟨none_,rfl⟩ | ⟨some_,below,rfl⟩⟩ := solCostForTokens_ok.mp charged
    · obtain rfl : tokenAmount = 0 := by omega
      simpa using Till.Moves.refl seeded
    · have rest : 0 < till.reserves.virtualTokenReserves - tokenAmount := by omega
      have product : 0 < till.reserves.product := mul_pos sol token
      have newSol : 0 < till.reserves.product / (till.reserves.virtualTokenReserves - tokenAmount) + 1 :=
        Int.lt_add_one_of_le (Int.ediv_nonneg product.le rest.le)
      have grown : till.reserves.product ≤
          (till.reserves.product / (till.reserves.virtualTokenReserves - tokenAmount) + 1) *
            (till.reserves.virtualTokenReserves - tokenAmount) := (Int.lt_ediv_add_one_mul_self _ rest).le
      refine ⟨⟨?_,rest⟩,?_,?_⟩
      · dsimp only
        omega
      · rwa [← add_sub_cancel till.reserves.virtualSolReserves (_ + 1)] at grown
      · dsimp only
        omega
  | sell tokenAmount =>
    simp only [Till.trade,bind_eq_ok,pure_eq_ok] at done
    obtain ⟨proceeds,paid,rfl⟩ := done
    obtain ⟨_,⟨none_,rfl⟩ | ⟨some_,paid⟩⟩ := solForTokens_ok.mp paid
    · obtain rfl : tokenAmount = 0 := by omega
      simpa using Till.Moves.refl seeded
    · have rest : 0 < till.reserves.virtualTokenReserves + tokenAmount := by omega
      have most : proceeds * (till.reserves.virtualTokenReserves + tokenAmount) ≤ tokenAmount * till.reserves.virtualSolReserves := by
        rw [paid]
        exact Int.ediv_mul_le _ rest.ne'
      have product : till.reserves.virtualSolReserves * till.reserves.virtualTokenReserves ≤
          (till.reserves.virtualSolReserves - proceeds) * (till.reserves.virtualTokenReserves + tokenAmount) := by
        linarith
      refine ⟨⟨?_,rest⟩,product,?_⟩
      · exact pos_of_mul_pos_left ((mul_pos sol token).trans_le product) rest.le
      · dsimp only
        omega

theorem Till.trades_move {trades : List CurveTrade} {till till' : Till} (seeded : till.reserves.Seeded)
    (done : trades.foldlM Till.trade till = .ok till') : till.Moves till' := by
  induction trades generalizing till with
  | nil =>
    rw [List.foldlM_nil,pure_eq_ok] at done
    exact done ▸ .refl seeded
  | cons trade trades ih =>
    simp only [List.foldlM_cons,bind_eq_ok] at done
    obtain ⟨mid,first,rest⟩ := done
    have moves := Till.trade_moves seeded first
    exact moves.trans (ih moves.seeded rest)

end Trades

/-- What a quote promises, and that no sequence of trades takes lamports out of the curve. -/
theorem curve_sound :
    (∀ (r : CurveReserves) (s : ℤ), r.Seeded →
      ∃ t cost, tokensForSol r s = .ok t ∧ solCostForTokens r t = .ok cost ∧ cost ≤ max s 0) ∧
    (∀ (r : CurveReserves) (solBudgetLamports feeBps : ℤ) (slippageBps : Double) (quote : BuyQuote),
      quoteBuyForSolBudget r solBudgetLamports feeBps slippageBps = .ok quote →
        0 < quote.tokenAmount ∧ quote.tokenAmount ≤ r.realTokenReserves ∧ quote.totalLamports ≤ solBudgetLamports ∧
          quote.totalLamports ≤ quote.maxSolCostLamports) ∧
    (∀ (till till' : Till) (trades : List CurveTrade), till.reserves.Seeded → trades.foldlM Till.trade till = .ok till' →
      till.reserves.product ≤ till'.reserves.product ∧
        (till'.reserves.virtualTokenReserves = till.reserves.virtualTokenReserves →
          till'.paidOut - till.paidOut ≤ till'.takenIn - till.takenIn)) := by
  refine ⟨fun r s seeded => ?_,fun r budget feeBps slippageBps quote ok => ?_,fun till till' trades seeded done => ?_⟩
  · obtain ⟨t,bought⟩ := tokensForSol_total seeded s
    by_cases some_ : 0 < t
    · obtain ⟨_,positive,_,left⟩ := tokensForSol_ok bought some_
      obtain ⟨cost,charged,_,most⟩ := cost_le seeded positive some_ left
      exact ⟨t,cost,bought,charged,most.trans (le_max_left s 0)⟩
    · exact ⟨t,0,bought,solCostForTokens_ok.mpr ⟨seeded,.inl ⟨not_lt.mp some_,rfl⟩⟩,le_max_right s 0⟩
  · obtain ⟨factor,returned⟩ := quoteBuyForSolBudget_ok ok
    obtain ⟨_,_,real,_⟩ := tokensForSol_ok returned.tokens returned.some_
    exact ⟨returned.some_,real,returned.total_bounds.2,returned.total_le_max⟩
  · have moves := Till.trades_move seeded done
    exact ⟨moves.product,moves.paid_le seeded⟩

namespace Sample

def curve : CurveReserves := ⟨1000,1000,0,800,1000,false⟩

theorem curve_seeded : curve.Seeded := ⟨by decide,by decide⟩

theorem curve_sound_sample :
    (∃ t cost, tokensForSol curve 100 = .ok t ∧ solCostForTokens curve t = .ok cost ∧ cost ≤ max 100 0) ∧
    (∃ quote, quoteBuyForSolBudget curve 100 100 50 = .ok quote ∧ 0 < quote.tokenAmount ∧
      quote.tokenAmount ≤ curve.realTokenReserves ∧ quote.totalLamports ≤ 100 ∧
        quote.totalLamports ≤ quote.maxSolCostLamports) ∧
    (∃ till, [CurveTrade.buy 90,.sell 90].foldlM Till.trade ⟨curve,0,0⟩ = .ok till ∧
      curve.product ≤ till.reserves.product ∧ till.paidOut - 0 ≤ till.takenIn - 0) := by
  obtain ⟨quotes,returns,trades⟩ := curve_sound
  refine ⟨quotes curve 100 curve_seeded,?_,?_⟩
  · have answered : (quoteBuyForSolBudget curve 100 100 50).isOk = true := by decide +kernel
    obtain ⟨quote,quoted⟩ := Data.Result.isOk_iff.mp answered
    exact ⟨quote,quoted,returns curve 100 100 50 quote quoted⟩
  · have traded : [CurveTrade.buy 90,.sell 90].foldlM Till.trade ⟨curve,0,0⟩ =
        .ok ⟨⟨1001,1000,1,800,1000,false⟩,99,98⟩ := rfl
    obtain ⟨product,back⟩ := trades ⟨curve,0,0⟩ _ _ curve_seeded traded
    exact ⟨_,traded,product,back rfl⟩

/-- A budget below zero buys nothing and costs nothing, which is more than the budget. -/
theorem negative_budget : ¬∀ (r : CurveReserves) (s t cost : ℤ), r.Seeded → tokensForSol r s = .ok t →
    solCostForTokens r t = .ok cost → cost ≤ s := by
  intro all
  have costs := all curve (-1) 0 0 curve_seeded rfl rfl
  omega

end Sample

end RatifyOs.Pools
