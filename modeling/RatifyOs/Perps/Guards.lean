import RatifyOs.Data.Result
import RatifyOs.Perps.Types

/-! The perps guards: every rule is a function of the intent and the context, and the first
violation is thrown. -/
namespace RatifyOs.Perps
open Data Data.Result

/-! Liquidation maths. -/

def isUsablePrice (x : Double) : Bool := x.isFinite ∧ 0 < x

def modelLiquidationPrice (side : PerpSide) (entryPrice leverage maintenanceMarginRatio : Double) :
    Option Double :=
  let m := maintenanceMarginRatio
  if isUsablePrice entryPrice = false then none
  else if leverage.isFinite = false ∨ leverage ≤ 0 then none
  else if m.isFinite = false ∨ m < 0 ∨ 1 ≤ m then none
  else
    let price := match side with
      | .long => entryPrice * (1 - 1 / leverage) / (1 - m)
      | .short => entryPrice * (1 + 1 / leverage) / (1 + m)
    if price.isFinite = false ∨ price < 0 then none else some price

/-- Distance from a reference price to the liquidation price; a position that is already
past liquidation has none. -/
def liquidationDistanceBps (side : PerpSide) (referencePrice liquidationPrice : Double) : Option Double :=
  if isUsablePrice referencePrice = false then none
  else if liquidationPrice.isFinite = false ∨ liquidationPrice < 0 then none
  else
    let signedGap := match side with
      | .long => referencePrice - liquidationPrice
      | .short => liquidationPrice - referencePrice
    if signedGap < 0 then none
    else
      let bps := signedGap / referencePrice * 10000
      if bps.isFinite then some bps.floor else none

inductive LiquidationSource where
  | venue
  | model
  deriving DecidableEq

def LiquidationSource.text : LiquidationSource → String
  | venue => "venue"
  | model => "model"

structure ReconciledLiquidation where
  liquidationPrice : Option Double
  distanceBps : Option Double
  source : LiquidationSource
  ambiguity : Option String
  disagreementBps : Option Double
  disagrees : Bool
  deriving DecidableEq

/-- The estimate that puts liquidation closest to the current price. -/
def reconcileLiquidation (side : PerpSide) (referencePrice : Double) (venuePrice modelPrice : Option Double)
    (toleranceBps : Double) : ReconciledLiquidation :=
  let none_ (why : String) : ReconciledLiquidation := ⟨none,none,.model,some why,none,false⟩
  if isUsablePrice referencePrice = false then none_ "reference price is missing or non-positive"
  else
    match venuePrice.bind (liquidationDistanceBps side referencePrice),
      modelPrice.bind (liquidationDistanceBps side referencePrice) with
    | none,none => none_ "neither the venue nor the model produced a usable liquidation price"
    | some venueDist,some modelDist =>
      let disagreementBps := (venueDist - modelDist).abs
      let disagrees := decide (toleranceBps < disagreementBps)
      if venueDist ≤ modelDist then ⟨venuePrice,some venueDist,.venue,none,some disagreementBps,disagrees⟩
      else ⟨modelPrice,some modelDist,.model,none,some disagreementBps,disagrees⟩
    | some venueDist,none => ⟨venuePrice,some venueDist,.venue,none,none,false⟩
    | none,some modelDist => ⟨modelPrice,some modelDist,.model,none,none,false⟩

def oracleDivergenceBps (markPrice oraclePrice : Double) : Option Double :=
  if isUsablePrice markPrice = false ∨ isUsablePrice oraclePrice = false then none
  else some ((markPrice - oraclePrice).abs / oraclePrice * 10000).floor

/-! The rules. -/

abbrev Verdict := Except Thrown (Option PerpViolation)

abbrev Rule := PerpIntent → PerpGuardContext → Verdict

def pass : Verdict := .ok none

def v (code : PerpGuardCode) (message : List Piece) (details : Option (List (String × Detail)) := none) : Verdict :=
  .ok (some ⟨code,message,details⟩)

/-- What depends on Unicode tables. -/
structure Locale where
  toUpperCase : String → String
  trim : String → String

def bucketOf (i : PerpIntent) : Option Kernel.QuoteBucket := Kernel.quoteBucketFor i.perp.collateral.mint

def bucketText : Kernel.QuoteBucket → String
  | .sol => "sol"
  | .usdc => "usdc"

/-- Kill switch and wind-down both mean that risk may only go down. -/
def armState : Rule := fun i ctx =>
  if ctx.killSwitch ∧ i.kind.isOpeningKind then
    v .killSwitch ["kill switch is engaged — perp exposure may only be reduced"]
  else if ¬ctx.dryRun ∧ ¬ctx.executionEnabled then
    v .perpsDisabled ["execution is disabled — Aetheria is in dry-run. Use /enable to arm."]
  else if ¬ctx.policy.perpsEnabled ∧ i.kind.isOpeningKind then
    v .perpsDisabled ["perps are not enabled — only reducing an existing position is permitted"]
  else if ctx.policy.windDownOnly ∧ i.kind.isOpeningKind then
    v .windDownOnly ["wind-down mode is active — reduce-only intents may proceed, opens may not"]
  else pass

def accountReady : Rule := fun i ctx =>
  if ctx.accountInitialized then pass
  else v .accountNotInitialized ["no ",i.perp.venue," subaccount ",.number i.perp.accountSubId,
      " — initialise it as a separate, explicit step"]
    (some [("venue",.text i.perp.venue),("subAccountId",.number (some i.perp.accountSubId))])

def marketAllowed (locale : Locale) : Rule := fun i ctx =>
  let market := locale.toUpperCase i.perp.market
  if ctx.policy.marketDenylist.any (fun m => locale.toUpperCase m = market) then
    v .marketDenied ["market ",i.perp.market," is on the denylist"]
  else if ctx.policy.marketAllowlist.any (fun allow => ¬allow.any fun m => locale.toUpperCase m = market) then
    v .marketDenied ["market ",i.perp.market," is not on the allowlist"]
  else pass

def marketTradeable : Rule := fun i _ =>
  let status := i.perp.marketStatus
  if status = .active then pass
  -- A reduce-only market still permits getting smaller.
  else if status = .reduceOnly ∧ i.kind.isReducingKind then pass
  else v .marketNotTradeable ["market ",i.perp.market," status is '",status.text,"'"]
    (some [("status",.text status.text)])

def collateralAllowed : Rule := fun i ctx =>
  let mint := i.perp.collateral.mint
  if ctx.policy.allowedCollateralMints = [] then
    v .collateralMintDenied ["no collateral mint is permitted for perps"]
  else if mint ∉ ctx.policy.allowedCollateralMints then
    v .collateralMintDenied ["collateral mint ",mint," is not permitted as perp margin"]
      (some [("mint",.text mint)])
  else pass

def collateralCappable : Rule := fun i _ =>
  match bucketOf i with
  | some _ => pass
  | none => v .collateralNotCappable ["collateral ",i.perp.collateral.mint,
      " has no spend-cap bucket — cannot be bounded without a price oracle"]
    (some [("mint",.text i.perp.collateral.mint)])

def slippageWithinClamp : Rule := fun i ctx =>
  if i.perp.slippageBps ≤ ctx.policy.maxSlippageBps then pass
  else v .slippageExceeded ["slippage ",.number i.perp.slippageBps,"bps exceeds max ",
      .number ctx.policy.maxSlippageBps,"bps"]
    (some [("requested",.number (some i.perp.slippageBps)),("max",.number (some ctx.policy.maxSlippageBps))])

/-- Reduce and close must actually reduce. -/
def reduceIsAReduction (locale : Locale) : Rule := fun i ctx =>
  if ¬i.kind.isReducingKind then pass
  else
    match ctx.position with
    | none => v .noPosition ["no open ",i.perp.market," position to ",
        if i.kind = .perpClose then "close" else "reduce"]
    | some pos =>
      if locale.toUpperCase pos.symbol ≠ locale.toUpperCase i.perp.market then
        v .positionSideMismatch ["position context is for a different market"]
      else if pos.side = i.perp.side then
        v .positionSideMismatch ["a ",sideText i.perp.side," order does not reduce a ",sideText pos.side,
            " position — it increases it"]
          (some [("positionSide",.text (sideText pos.side)),("orderSide",.text (sideText i.perp.side))])
      else if i.perp.expectedBaseAmount > pos.baseAmount then
        v .sizeExceedsPosition
          ["order size exceeds the position it targets — this would flip the side, not reduce it"]
          (some [("orderBase",.bigint i.perp.expectedBaseAmount),("positionBase",.bigint pos.baseAmount)])
      else pass

/-- An increase must face the same way as any existing position. -/
def increaseMatchesPosition : Rule := fun i ctx =>
  if i.kind ≠ .perpIncrease then pass
  else
    match ctx.position with
    | none => v .noPosition ["no open ",i.perp.market," position to increase"]
    | some pos =>
      if pos.side ≠ i.perp.side then
        v .positionSideMismatch ["cannot increase a ",sideText pos.side," position with a ",
            sideText i.perp.side," order"]
          (some [("positionSide",.text (sideText pos.side)),("orderSide",.text (sideText i.perp.side))])
      else pass

def leverageWithinCap : Rule := fun i ctx =>
  if ¬i.kind.isOpeningKind then pass
  else if ctx.policy.maxLeverage < i.perp.leverage then
    v .leverageExceeded ["leverage ",.number i.perp.leverage,"× exceeds the ",.number ctx.policy.maxLeverage,"× cap"]
      (some [("leverage",.number (some i.perp.leverage)),("max",.number (some ctx.policy.maxLeverage))])
  else pass

def collateralWithinCap : Rule := fun i ctx =>
  match bucketOf i with
  | none => pass
  | some bucket =>
    let collateral := i.perp.collateral
    let cap : ℤ := (capsFor ctx.policy bucket).maxCollateralPerPosition
    if collateral.amount = 0 then pass
    else if collateral.amount > cap then
      v .collateralCapExceeded ["collateral ",.amount collateral.amount collateral.decimals,
          " exceeds the per-position cap of ",.amount cap collateral.decimals]
        (some [("bucket",.text (bucketText bucket)),("amount",.bigint collateral.amount),("cap",.bigint cap)])
    else pass

/-- The cap compares against the larger of the claimed and the derived notional. -/
def notionalWithinCap : Rule := fun i ctx =>
  if ¬i.kind.isOpeningKind then pass
  else
    match bucketOf i with
    | none => pass
    | some bucket =>
      (notionalFromCollateral i.perp.collateral.amount i.perp.leverage).bind fun
      | none => v .notionalCapExceeded ["notional could not be derived from the collateral and leverage"]
          (some [("collateral",.bigint i.perp.collateral.amount),("leverage",.number (some i.perp.leverage))])
      | some derived =>
        let claimed := i.perp.notional.amount
        let effective := max claimed derived
        let cap : ℤ := (capsFor ctx.policy bucket).maxNotionalPerPosition
        if effective > cap then
          v .notionalCapExceeded ["notional ",.amount effective i.perp.notional.decimals,
              " exceeds the per-position cap of ",.amount cap i.perp.notional.decimals]
            (some [("bucket",.text (bucketText bucket)),("claimed",.bigint claimed),("derived",.bigint derived),
              ("cap",.bigint cap)])
        else pass

def portfolioWithinCap : Rule := fun i ctx =>
  if ¬i.kind.isOpeningKind then pass
  else
    match bucketOf i with
    | none => pass
    | some bucket =>
      if ctx.exposure.stale then
        v .exposureUnknown ["portfolio perp exposure is unknown (",ctx.exposure.staleReason.getD "stale snapshot",
          ") — refusing to add to an unbounded total"]
      else do
        let derived := (← notionalFromCollateral i.perp.collateral.amount i.perp.leverage).getD i.perp.notional.amount
        let adding := max i.perp.notional.amount derived
        let current := ctx.exposure.notionalByBucket bucket
        let cap : ℤ := (capsFor ctx.policy bucket).maxPortfolioNotional
        if current + adding > cap then
          v .portfolioExposureExceeded ["total perp notional ",.amount (current + adding) i.perp.notional.decimals,
              " would exceed the ",.amount cap i.perp.notional.decimals," portfolio cap"]
            (some [("bucket",.text (bucketText bucket)),("current",.bigint current),("adding",.bigint adding),
              ("cap",.bigint cap)])
        else pass

def positionCountWithinCap : Rule := fun i ctx =>
  if i.kind ≠ .perpOpen then pass -- an increase reuses an existing slot
  else if ctx.exposure.stale then
    v .exposureUnknown ["portfolio snapshot is stale — cannot count open positions"]
  else if ctx.position.isSome then pass -- already holding this market: not a new slot
  else
    let held : Double := .finite ctx.exposure.openPositions
    if ctx.policy.maxOpenPositions ≤ held then
      v .positionCountExceeded ["already holding ",.number held," perp positions (max ",
          .number ctx.policy.maxOpenPositions,")"]
        (some [("open",.number (some held)),("max",.number (some ctx.policy.maxOpenPositions))])
    else pass

def liquidationDistanceOk : Rule := fun i ctx =>
  if ¬i.kind.isOpeningKind then pass
  else
    let p := i.perp
    let model := modelLiquidationPrice p.side p.entryPrice p.leverage p.maintenanceMarginRatio
    let reconciled := reconcileLiquidation p.side p.entryPrice p.venueLiquidationPrice model
      ctx.policy.liquidationToleranceBps
    match reconciled.ambiguity,reconciled.distanceBps with
    | none,some distanceBps =>
      if distanceBps < ctx.policy.minLiquidationDistanceBps then
        v .liquidationTooClose ["entry sits ",.number distanceBps,"bps from liquidation, inside the ",
            .number ctx.policy.minLiquidationDistanceBps,"bps floor"]
          (some [("distanceBps",.number (some distanceBps)),
            ("min",.number (some ctx.policy.minLiquidationDistanceBps)),
            ("liquidationPrice",.number reconciled.liquidationPrice),("source",.text reconciled.source.text)])
      else pass
    | ambiguity,_ =>
      v .liquidationUnknown ["liquidation price is unusable: ",ambiguity.getD "no distance could be computed"]
        (some [("venue",.number p.venueLiquidationPrice),("model",.number model)])

def oracleAgreesWithMark : Rule := fun i ctx =>
  if ¬i.kind.isOpeningKind then pass
  else
    match oracleDivergenceBps i.perp.markPrice i.perp.oraclePrice with
    | none => v .oracleDivergence ["mark or oracle price is unusable"]
    | some div =>
      if ctx.policy.maxOracleDivergenceBps < div then
        v .oracleDivergence ["mark and oracle diverge by ",.number div,"bps (max ",
            .number ctx.policy.maxOracleDivergenceBps,"bps)"]
          (some [("divergenceBps",.number (some div)),("max",.number (some ctx.policy.maxOracleDivergenceBps))])
      else pass

/-- A reading out of bounds is refused, then the side that pays is checked. -/
def fundingSane : Rule := fun i ctx =>
  if ¬i.kind.isOpeningKind then pass
  else
    match i.perp.fundingBpsPerHour.filter (·.isFinite) with
    | none => v .fundingRateUnknown ["no funding-rate reading for this market — refusing to open blind"]
    | some f =>
      if ctx.policy.maxFundingRateBpsPerHour < f.abs then
        v .fundingRateUnsane ["funding ",.fixed f 3,"bps/h is beyond the ",
            .number ctx.policy.maxFundingRateBpsPerHour,"bps/h sanity bound"]
          (some [("fundingBpsPerHour",.number (some f)),("max",.number (some ctx.policy.maxFundingRateBpsPerHour))])
      else
        let adverse := if i.perp.side = .long then f else -f
        if ctx.policy.maxAdverseFundingBpsPerHour < adverse then
          v .fundingRateAdverse ["a ",sideText i.perp.side," here pays ",.fixed adverse 3,"bps/h funding, above the ",
              .number ctx.policy.maxAdverseFundingBpsPerHour,"bps/h budget"]
            (some [("adverseBpsPerHour",.number (some adverse)),
              ("max",.number (some ctx.policy.maxAdverseFundingBpsPerHour))])
        else pass

def PERP_RULES (locale : Locale) : List Rule :=
  [armState,accountReady,marketAllowed locale,marketTradeable,collateralAllowed,collateralCappable,
    slippageWithinClamp,reduceIsAReduction locale,increaseMatchesPosition,leverageWithinCap,collateralWithinCap,
    notionalWithinCap,portfolioWithinCap,positionCountWithinCap,liquidationDistanceOk,oracleAgreesWithMark,
    fundingSane]

/-- `if (c) return bad(why)` -/
def bad (c : Prop) [Decidable c] (why : String) : Except Thrown Unit :=
  if c then .error (.guard ⟨.invalidPerpIntent,["perp intent failed structural validation: ",why],none⟩)
  else .ok ()

def positive (x : Double) : Bool := x.isFinite ∧ 0 < x

/-- Runtime structural validation. -/
def assertPerpIntentShape (i : PerpIntent) : Except Thrown Unit := do
  bad (i.source = "") "missing source"
  bad (i.unsignedTxBase64 = "") "missing built transaction"
  bad (i.recentBlockhash = "") "missing recent blockhash"
  bad (¬i.lastValidBlockHeight.isInteger ∨ i.lastValidBlockHeight ≤ 0) "missing block height"
  bad (¬i.priorityFeeLamports.isFinite ∨ i.priorityFeeLamports < 0) "invalid priority fee"
  let input := i.input
  bad (input.mint = "") "missing input mint"
  bad (input.amount < 0) "invalid collateral amount"
  bad (¬input.decimals.isInteger) "invalid collateral decimals"
  let p := i.perp
  bad (p.venue = "") "missing venue"
  bad (p.market = "") "missing market"
  bad (¬positive p.leverage) "invalid leverage"
  bad (¬p.slippageBps.isInteger ∨ p.slippageBps < 0) "invalid slippage"
  bad (p.expectedBaseAmount ≤ 0) "invalid expected base size"
  bad (p.minBaseAmount < 0) "invalid minimum base size"
  bad (p.minBaseAmount > p.expectedBaseAmount) "minimum base size exceeds the expected size"
  bad (p.collateral.mint ≠ input.mint ∨ p.collateral.amount ≠ input.amount)
    "perp collateral does not match the intent input leg"
  bad (p.notional.amount < 0) "invalid notional"
  bad (p.notional.mint ≠ input.mint) "notional is not denominated in the input leg"
  bad (¬positive p.entryPrice) "invalid entry price"
  bad (¬positive p.markPrice) "invalid mark price"
  bad (¬positive p.oraclePrice) "invalid oracle price"
  bad (¬p.maintenanceMarginRatio.isFinite ∨ p.maintenanceMarginRatio < 0 ∨ 1 ≤ p.maintenanceMarginRatio)
    "invalid maintenance margin ratio"
  bad (p.orderType = .limit ∧ ¬p.limitPrice.any positive) "limit order without a usable limit price"
  bad (p.reduceOnly ≠ i.kind.isReducingKind)
    ("reduceOnly=" ++ toString p.reduceOnly ++ " is inconsistent with kind " ++ i.kind.text)

/-- The first violation is thrown. -/
def runRules (intent : PerpIntent) (ctx : PerpGuardContext) : List Rule → Except Thrown Unit
  | [] => return
  | rule :: rules => do
    match ← rule intent ctx with
    | some violation => throw (.guard violation)
    | none => runRules intent ctx rules

def perpGuards (locale : Locale) (intent : PerpIntent) (ctx : PerpGuardContext) : Except Thrown Unit := do
  assertPerpIntentShape intent
  runRules intent ctx (PERP_RULES locale)

theorem perpGuards_ok {locale : Locale} {intent : PerpIntent} {ctx : PerpGuardContext}
    (ok : perpGuards locale intent ctx = .ok ()) :
    assertPerpIntentShape intent = .ok () ∧ ∀ rule ∈ PERP_RULES locale, rule intent ctx = pass := by
  simp only [perpGuards,bind_eq_ok] at ok
  obtain ⟨_,shape,passed⟩ := ok
  refine ⟨shape,?_⟩
  generalize PERP_RULES locale = rules at passed ⊢
  clear shape
  induction rules with
  | nil => simp
  | cons rule rules ih =>
    simp only [runRules,bind_eq_ok] at passed
    obtain ⟨violation,first,rest⟩ := passed
    cases violation with
    | some violation => simp at rest
    | none =>
      intro other inside
      rcases List.mem_cons.mp inside with rfl | later
      · exact first
      · exact ih rest other later

end RatifyOs.Perps
