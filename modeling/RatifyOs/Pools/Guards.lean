import RatifyOs.Pools.Curve
import RatifyOs.Pools.Rebalance

/-! The guards that stand in front of the kernel for liquidity and bonding-curve actions. What
they are missing is a refusal. -/
namespace RatifyOs.Pools
open Data Data.Result Kernel

/-- A refusal as data: the guards return it, and the tools throw it. -/
structure Refusal where
  code : PoolGuardCode
  message : String
  deriving DecidableEq

/-- `if (refusal) throwRefusal(refusal)` -/
def throwRefusal : Option Refusal → Except Thrown Unit
  | some r => .error (.pool r.code r.message)
  | none => .ok ()

/-- `if (c) return refuse(code,message)` -/
def refusal (c : Prop) [Decidable c] (code : PoolGuardCode) (message : String) : Option Refusal :=
  if c then some ⟨code,message⟩ else none

def first (checks : List (Option Refusal)) : Option Refusal := checks.findSome? id

structure QuoteLimits where
  maxSpendPerAction : ℤ
  maxLpPositionQuote : ℤ
  minPoolLiquidityQuote : ℤ

structure PoolGuardConfig where
  sol : QuoteLimits
  usdc : QuoteLimits
  maxConcurrentPositions : Double
  maxBaseLegPctOfHoldings : Double
  maxRugHeat : Double
  maxCurveSlippageBps : Double
  minCurveRealSolLamports : ℤ
  authorityAllowlist : List String
  allowToken2022 : Bool
  maxLevelSpan : Double

def MAX_LEVELS_PER_POSITION : ℕ := 70

structure MintRecord where
  mint : String
  isToken2022 : Bool
  freezeAuthority : Option String
  mintAuthority : Option String

structure RugHeat where
  score : Double
  reasons : List String

structure DepositPool extends ActivePool where
  name : Option String
  baseMint : String
  baseDecimals : ℕ
  levelStepBps : ℕ
  liquidityQuote : Option ℤ

structure HeldPosition extends LpPosition where
  positionAddress : String
  baseAmount : ℤ
  quoteAmount : ℤ

def limitsFor (cfg : PoolGuardConfig) (mint : String) : Option QuoteLimits :=
  match quoteBucketFor mint with
  | some .sol => some cfg.sol
  | some .usdc => some cfg.usdc
  | none => none

section Guards
variable (numberText : Double → String) (cfg : PoolGuardConfig)

/-- A token that is no quote asset is not capped here. -/
def guardSpend (input : TokenAmount) : Option Refusal :=
  if input.amount ≤ 0 then some ⟨.spendCap,"input amount must be positive"⟩
  else match limitsFor cfg input.mint with
    | none => none
    | some limits => refusal (input.amount > limits.maxSpendPerAction) .spendCap
        s!"spend {input.amount} exceeds the per-action cap {limits.maxSpendPerAction}"

def guardTokenAuthorities (mints : List (Option MintRecord)) : Option Refusal :=
  if mints = [] then some ⟨.mintAuthority,"no mint records supplied — cannot verify authorities"⟩
  else mints.findSome? authorities
where
  authorities : Option MintRecord → Option Refusal
    | none => some ⟨.mintAuthority,"mint record unavailable — refusing rather than assuming it is clean"⟩
    | some info =>
      if ¬cfg.allowToken2022 ∧ info.isToken2022 then
        some ⟨.token2022,s!"{info.mint} is a Token-2022 mint (transfer fees/hooks); refused"⟩
      else if info.mint ∈ cfg.authorityAllowlist then none
      else if (present info.mintAuthority).isSome then
        some ⟨.mintAuthority,s!"{info.mint} still has a live mint authority (supply can be inflated)"⟩
      else refusal ((present info.freezeAuthority).isSome) .freezeAuthority
        s!"{info.mint} still has a live freeze authority (your tokens can be frozen)"

def guardRugHeat (heat : Option RugHeat) : Option Refusal :=
  match heat.filter fun heat => heat.score.isFinite with
  | none => some ⟨.rugHeat,"no rug-heat reading available — refusing rather than trading blind"⟩
  | some heat => refusal (cfg.maxRugHeat ≤ heat.score) .rugHeat
      s!"rug-heat {numberText heat.score}/100 is at or above the {numberText cfg.maxRugHeat} rejection threshold"

def unsupportedQuote (pool : DepositPool) : String :=
  s!"pool quote asset {pool.quoteMint} is not a supported quote asset (SOL/USDC)"

def guardPoolLiquidity (pool : DepositPool) : Option Refusal :=
  match limitsFor cfg pool.quoteMint with
  | none => some ⟨.liquidityFloor,unsupportedQuote pool⟩
  | some limits =>
    match pool.liquidityQuote with
    | none => some ⟨.liquidityFloor,"pool TVL unavailable — refusing rather than assuming it is deep enough"⟩
    | some liquidityQuote => refusal (liquidityQuote < limits.minPoolLiquidityQuote) .liquidityFloor
        s!"pool TVL {liquidityQuote} is below the {limits.minPoolLiquidityQuote} floor"

structure LpSizingSubject where
  pool : DepositPool
  addQuote : ℤ
  existingPositionQuote : ℤ
  openPositions : List HeldPosition
  isNewPosition : Bool

def guardLpSizing (s : LpSizingSubject) : Option Refusal :=
  match limitsFor cfg s.pool.quoteMint with
  | none => some ⟨.positionCap,unsupportedQuote s.pool⟩
  | some limits =>
    if s.addQuote < 0 ∨ s.existingPositionQuote < 0 then some ⟨.positionCap,"position amounts must be non-negative"⟩
    else
      let after := s.existingPositionQuote + s.addQuote
      if after > limits.maxLpPositionQuote then
        some ⟨.positionCap,s!"position would hold {after} quote, above the {limits.maxLpPositionQuote} cap"⟩
      else refusal (s.isNewPosition ∧ cfg.maxConcurrentPositions ≤ .finite s.openPositions.length) .maxPositions
        s!"already holding {s.openPositions.length} positions (max {numberText cfg.maxConcurrentPositions})"

/-- `BigInt` throws for a percentage that is no finite number. -/
def guardBaseLeg (baseAmount : ℤ) (baseHoldings : Option ℤ) : Except Thrown (Option Refusal) := do
  if baseAmount ≤ 0 then return none
  else if cfg.maxBaseLegPctOfHoldings ≤ 0 then
    return some ⟨.baseLegCap,"two-sided deposits are disabled (maxBaseLegPctOfHoldings = 0)"⟩
  else match baseHoldings with
    | none => return some ⟨.baseLegCap,"wallet holding of the base mint is unknown — cannot bound the second leg"⟩
    | some holdings =>
      if holdings ≤ 0 then return some ⟨.baseLegCap,"wallet holds none of the base mint"⟩
      else
        let percent ← bigInt cfg.maxBaseLegPctOfHoldings.floor
        let allowed := (holdings * percent).tdiv 100
        return refusal (baseAmount > allowed) .baseLegCap
          s!"base leg {baseAmount} exceeds {numberText cfg.maxBaseLegPctOfHoldings}% of holdings ({allowed})"

/-- `Math.min` of two numbers -/
def minimum (a b : Double) : Double := if a = .nan ∨ b = .nan then .nan else if b < a then b else a

/-- Every level is a whole number here. -/
def guardLevelRange (lowerLevel upperLevel : ℤ) : Option Refusal :=
  if upperLevel < lowerLevel then
    some ⟨.rangeInvalid,s!"upperLevel {upperLevel} is below lowerLevel {lowerLevel}"⟩
  else
    let span := upperLevel - lowerLevel + 1
    let cap := minimum cfg.maxLevelSpan (.finite MAX_LEVELS_PER_POSITION)
    refusal (cap < .finite span) .rangeInvalid s!"range spans {span} levels, above the {numberText cap} maximum"

def guardCurveSlippage (slippageBps : Double) : Option Refusal :=
  if ¬slippageBps.isFinite ∨ slippageBps < 0 then
    some ⟨.slippage,s!"slippage must be a finite non-negative bps value, got {numberText slippageBps}"⟩
  else refusal (cfg.maxCurveSlippageBps < slippageBps) .slippage
    s!"slippage {numberText slippageBps}bps exceeds the {numberText cfg.maxCurveSlippageBps}bps bound"

def guardCurveLiquidity (realSolReserves : Option ℤ) (complete : Bool) : Option Refusal :=
  if complete then
    some ⟨.migrated,"this curve has completed and migrated — route it through the Jupiter swap path"⟩
  else match realSolReserves with
    | none => some ⟨.liquidityFloor,"curve reserves unavailable — refusing rather than trading blind"⟩
    | some realSolReserves => refusal (realSolReserves < cfg.minCurveRealSolLamports) .liquidityFloor
        s!"curve holds {realSolReserves} lamports, below the {cfg.minCurveRealSolLamports} floor"

structure LpOpenSubject extends LpSizingSubject where
  input : TokenAmount
  baseAmount : ℤ
  baseHoldings : Option ℤ
  mints : List (Option MintRecord)
  rugHeat : Option RugHeat
  lowerLevel : ℤ
  upperLevel : ℤ

/-- All of the checks are evaluated before the first refusal is picked. -/
def guardLpOpen (s : LpOpenSubject) : Except Thrown (Option Refusal) := do
  let baseLeg ← guardBaseLeg numberText cfg s.baseAmount s.baseHoldings
  return first [
    guardTokenAuthorities cfg s.mints,
    guardRugHeat numberText cfg s.rugHeat,
    guardPoolLiquidity cfg s.pool,
    guardSpend cfg s.input,
    guardLpSizing numberText cfg s.toLpSizingSubject,
    baseLeg,
    guardLevelRange numberText cfg s.lowerLevel s.upperLevel]

structure CurveTradeSubject where
  input : TokenAmount
  slippageBps : Double
  realSolReserves : Option ℤ
  complete : Bool
  mints : List (Option MintRecord)
  rugHeat : Option RugHeat

def guardCurveBuy (s : CurveTradeSubject) : Option Refusal := first [
  guardTokenAuthorities cfg s.mints,
  guardRugHeat numberText cfg s.rugHeat,
  guardCurveLiquidity cfg s.realSolReserves s.complete,
  guardCurveSlippage numberText cfg s.slippageBps,
  guardSpend cfg s.input]

end Guards

theorem throwRefusal_ok {r : Option Refusal} {u : Unit} : throwRefusal r = .ok u ↔ r = none := by
  cases r <;> simp [throwRefusal]

theorem first_eq_none {checks : List (Option Refusal)} : first checks = none ↔ ∀ check ∈ checks, check = none := by
  simp [first]

theorem refusal_eq_none {c : Prop} [Decidable c] {code : PoolGuardCode} {message : String} :
    refusal c code message = none ↔ ¬c := by
  unfold refusal
  split <;> simp_all

end RatifyOs.Pools
