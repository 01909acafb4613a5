import RatifyOs.Data.Double
import RatifyOs.Kernel.Guards

/-! Perp intents, positions and the policy they are checked against. -/
namespace RatifyOs.Perps
open Data

abbrev PerpSide := Kernel.Side

inductive PerpOrderType where
  | market
  | limit
  deriving DecidableEq

inductive PerpMarketStatus where
  | active
  | reduceOnly
  | halted
  | unknown
  deriving DecidableEq

def PerpMarketStatus.text : PerpMarketStatus → String
  | active => "active"
  | reduceOnly => "reduce-only"
  | halted => "halted"
  | unknown => "unknown"

def sideText : PerpSide → String
  | .long => "long"
  | .short => "short"

structure TokenAmount where
  mint : String
  amount : ℤ
  decimals : Double
  deriving DecidableEq

structure PerpPosition where
  symbol : String
  side : PerpSide
  baseAmount : ℤ
  notional : TokenAmount
  collateral : TokenAmount
  deriving DecidableEq

inductive PerpIntentKind where
  | perpOpen
  | perpIncrease
  | perpReduce
  | perpClose
  deriving DecidableEq

namespace PerpIntentKind

def isReducingKind : PerpIntentKind → Bool
  | perpReduce | perpClose => true
  | _ => false

def isOpeningKind : PerpIntentKind → Bool
  | perpOpen | perpIncrease => true
  | _ => false

def text : PerpIntentKind → String
  | perpOpen => "perp_open"
  | perpIncrease => "perp_increase"
  | perpReduce => "perp_reduce"
  | perpClose => "perp_close"

end PerpIntentKind

structure PerpLeg where
  venue : String
  market : String
  accountSubId : Double
  side : PerpSide
  orderType : PerpOrderType
  limitPrice : Option Double
  reduceOnly : Bool
  leverage : Double
  slippageBps : Double
  expectedBaseAmount : ℤ
  minBaseAmount : ℤ
  collateral : TokenAmount
  notional : TokenAmount
  entryPrice : Double
  markPrice : Double
  oraclePrice : Double
  maintenanceMarginRatio : Double
  marketStatus : PerpMarketStatus
  venueLiquidationPrice : Option Double
  fundingBpsPerHour : Option Double
  deriving DecidableEq

structure PerpIntent where
  kind : PerpIntentKind
  source : String
  unsignedTxBase64 : String
  recentBlockhash : String
  lastValidBlockHeight : Double
  priorityFeeLamports : Double
  input : TokenAmount
  perp : PerpLeg
  deriving DecidableEq

/-- Base units, as `toBaseUnits` makes them: none is negative. -/
structure PerpsCaps where
  maxCollateralPerPosition : ℕ
  maxNotionalPerPosition : ℕ
  maxPortfolioNotional : ℕ
  deriving DecidableEq

structure PerpsPolicy where
  perpsEnabled : Bool
  windDownOnly : Bool
  maxLeverage : Double
  minLiquidationDistanceBps : Double
  maxFundingRateBpsPerHour : Double
  maxAdverseFundingBpsPerHour : Double
  maxSlippageBps : Double
  maxOracleDivergenceBps : Double
  liquidationToleranceBps : Double
  maxOpenPositions : Double
  capsSol : PerpsCaps
  capsUsdc : PerpsCaps
  marketAllowlist : Option (List String)
  marketDenylist : List String
  allowedCollateralMints : List String
  deriving DecidableEq

def capsFor (policy : PerpsPolicy) : Kernel.QuoteBucket → PerpsCaps
  | .sol => policy.capsSol
  | .usdc => policy.capsUsdc

/-- Leverage as integer basis points. -/
def leverageToBps (leverage : Double) : Option Double :=
  if leverage.isFinite = false ∨ leverage ≤ 0 then none
  else
    let bps := (leverage * 10000).round
    if 0 < bps then some bps else none

inductive PerpGuardCode where
  | perpsDisabled
  | killSwitch
  | windDownOnly
  | invalidPerpIntent
  | marketDenied
  | marketNotTradeable
  | collateralMintDenied
  | collateralNotCappable
  | leverageExceeded
  | collateralCapExceeded
  | notionalCapExceeded
  | portfolioExposureExceeded
  | positionCountExceeded
  | exposureUnknown
  | liquidationTooClose
  | liquidationUnknown
  | fundingRateUnsane
  | fundingRateAdverse
  | fundingRateUnknown
  | oracleDivergence
  | slippageExceeded
  | noPosition
  | positionSideMismatch
  | sizeExceedsPosition
  | accountNotInitialized
  deriving DecidableEq

/-- A part of a message; how a number is written is left to the language. -/
inductive Piece where
  | text (s : String)
  | number (x : Double)
  | fixed (x : Double) (digits : ℕ)
  | amount (a : ℤ) (decimals : Double)
  deriving DecidableEq

instance : Coe String Piece := ⟨.text⟩

inductive Detail where
  | text (s : String)
  | number (x : Option Double)
  | bigint (n : ℤ)
  deriving DecidableEq

structure PerpViolation where
  code : PerpGuardCode
  message : List Piece
  details : Option (List (String × Detail)) := none
  deriving DecidableEq

/-- What a guard throws: a `PerpGuardError`, or the language's own error. -/
inductive Thrown where
  | guard (violation : PerpViolation)
  | range (message : String)
  deriving DecidableEq

/-- `BigInt(x)` -/
def bigInt : Double → Except Thrown ℤ
  | .finite q => if q.den = 1 then .ok q.num else .error (.range "not an integer")
  | _ => .error (.range "not an integer")

/-- Notional in the input leg's base units; a division of `bigint`s drops what is behind
the point. -/
def notionalFromCollateral (collateralBaseUnits : ℤ) (leverage : Double) : Except Thrown (Option ℤ) := do
  match leverageToBps leverage with
  | none => return none
  | some bps =>
    if collateralBaseUnits < 0 then return none
    else return some ((collateralBaseUnits * (← bigInt bps)).tdiv 10000)

structure PortfolioExposure where
  openPositions : ℕ
  notionalByBucket : Kernel.QuoteBucket → ℤ
  collateralByBucket : Kernel.QuoteBucket → ℤ
  stale : Bool
  staleReason : Option String
  unbucketed : ℕ

/-- The absolute notional that a position adds to a bucket. -/
def notionalIn (bucket : Kernel.QuoteBucket) (p : PerpPosition) : ℤ :=
  if Kernel.quoteBucketFor p.notional.mint = some bucket ∧
    (Kernel.quoteBucketFor p.collateral.mint).isSome then |p.notional.amount| else 0

def collateralIn (bucket : Kernel.QuoteBucket) (p : PerpPosition) : ℤ :=
  if (Kernel.quoteBucketFor p.notional.mint).isSome ∧
    Kernel.quoteBucketFor p.collateral.mint = some bucket then |p.collateral.amount| else 0

def isUnbucketed (p : PerpPosition) : Bool :=
  (Kernel.quoteBucketFor p.notional.mint).isNone || (Kernel.quoteBucketFor p.collateral.mint).isNone

def exposureFrom (positions : List PerpPosition) : PortfolioExposure :=
  let unbucketed := positions.countP isUnbucketed
  { openPositions := positions.length
    notionalByBucket := fun bucket => (positions.map (notionalIn bucket)).sum
    collateralByBucket := fun bucket => (positions.map (collateralIn bucket)).sum
    stale := unbucketed > 0
    staleReason := if unbucketed > 0 then
      some (toString unbucketed ++ " position(s) use a collateral asset with no spend-cap bucket") else none
    unbucketed }

structure PerpGuardContext where
  policy : PerpsPolicy
  killSwitch : Bool
  executionEnabled : Bool
  exposure : PortfolioExposure
  position : Option PerpPosition
  accountInitialized : Bool
  dryRun : Bool

end RatifyOs.Perps
