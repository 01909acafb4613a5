import RatifyOs.Data.Result
import RatifyOs.Perps.Guards

/-! The positions that the Drift adapter reports, and their two readers: the settlement
baseline and the snapshot of the guards. -/
namespace RatifyOs.Perps
open Data Data.Result

structure PerpsVenueError where
  venue : String
  message : String
  deriving DecidableEq

/-! What the SDK answers; an `Except String` is a call that may throw. -/

/-- The text of a `BN`, where there is one. -/
abbrev Bn := Option String

structure DriftPerpMarketAccount where
  marketIndex : ℕ
  name : List ℤ
  marginRatioInitial : Double
  marginRatioMaintenance : Double

structure DriftPerpPosition where
  marketIndex : ℕ
  baseAssetAmount : Bn
  deriving DecidableEq

structure DriftUser where
  getUserAccount : Except String (List DriftPerpPosition)
  getTotalCollateral : Except String Bn

structure DriftClient where
  getPerpMarketAccounts : Except String (List DriftPerpMarketAccount)
  getOracleDataForPerpMarket : ℕ → Except String Bn
  getUser : ℕ → Except String DriftUser
  /-- whether there is an account -/
  getUserAccount : ℕ → Except String Bool

structure DriftVenue where
  /-- absent until `connect` has been awaited -/
  client : Option DriftClient

def DRIFT_VENUE_ID : String := "drift"
def DRIFT_SETTLEMENT_MINT : String := "EPjFWdd5AufqSSqeM2qN1xzybapC8G4wEGGkZwyTDt1v"
def USDC_DECIMALS : Double := 6
def BASE_PRECISION : ℤ := 1000000000
def PRICE_PRECISION : Double := 1000000
def MARGIN_PRECISION : Double := 10000

def decimal (digits : List Char) : Option ℕ :=
  if digits ≠ [] ∧ digits.all Char.isDigit then some (Nat.ofDigitChars 10 digits 0) else none

def bnToBigInt (value : Bn) : Option ℤ :=
  value.bind fun text =>
    match text.toList with
    | '-' :: digits => (decimal digits).map fun n => -(n : ℤ)
    | digits => (decimal digits).map fun n => (n : ℤ)

def bnToNumber (value : Bn) (precision : Double) : Option Double :=
  (bnToBigInt value).bind fun raw =>
    let n := Double.ofRat raw / precision
    if n.isFinite then some n else none

/-- A negative price means that there is none. -/
def priceFrom (value : Bn) : Option Double :=
  (bnToBigInt value).bind fun raw => if raw < 0 then none else bnToNumber value PRICE_PRECISION

def splitSignedBase (signed : ℤ) : PerpSide × ℤ :=
  if signed < 0 then (.short,-signed) else (.long,signed)

def notionalQuoteUnits (baseUnits pricePrecisionPrice : ℤ) : ℤ :=
  (|baseUnits| * pricePrecisionPrice).tdiv BASE_PRECISION

def quoteAmount (amount : ℤ) : TokenAmount := ⟨DRIFT_SETTLEMENT_MINT,amount,USDC_DECIMALS⟩

def marginRatioToFraction (ratio : Double) : Option Double :=
  if ratio.isInteger = false ∨ ratio < 0 then none
  else
    let f := ratio / MARGIN_PRECISION
    if f.isFinite ∧ 0 ≤ f ∧ f < 1 then some f else none

def maxLeverageFromInitialMargin (initialMarginFraction : Double) : Option Double :=
  if initialMarginFraction ≤ 0 then none
  else
    let l := 1 / initialMarginFraction
    if l.isFinite ∧ 0 < l then some l else none

structure PerpMarket where
  symbol : String
  venueMarketIndex : ℕ
  maxLeverage : Double
  initialMarginRatio : Double
  maintenanceMarginRatio : Double

section Adapter
variable (locale : Locale)

def decodeMarketName (name : List ℤ) : Option String :=
  let s := locale.trim (String.ofList ((name.filter fun c => 0 < c ∧ c < 128).map fun c => Char.ofNat c.toNat))
  if s ≠ "" then some (locale.toUpperCase s) else none

/-- A market that cannot be converted safely is dropped. -/
def toPerpMarket (account : DriftPerpMarketAccount) : Option PerpMarket := do
  let symbol ← decodeMarketName locale account.name
  let initial ← marginRatioToFraction account.marginRatioInitial
  let maintenance ← marginRatioToFraction account.marginRatioMaintenance
  let maxLeverage ← maxLeverageFromInitialMargin initial
  return ⟨symbol,account.marketIndex,maxLeverage,initial,maintenance⟩

def call {α : Type} (result : Except String α) (what : String) : Except PerpsVenueError α :=
  match result with
  | .ok value => .ok value
  | .error message => .error ⟨DRIFT_VENUE_ID,what ++ " failed: " ++ message⟩

def safe {α : Type} (result : Except String α) : Option α := result.toOption

namespace DriftVenue
variable (venue : DriftVenue)

def ready : Except PerpsVenueError DriftClient :=
  required venue.client ⟨DRIFT_VENUE_ID,"DriftVenue.connect() must be awaited before use"⟩

def listMarkets : Except PerpsVenueError (List PerpMarket) := do
  let client ← venue.ready
  let accounts ← call client.getPerpMarketAccounts "getPerpMarketAccounts"
  return accounts.filterMap (toPerpMarket locale)

/-- What the loop makes of one position. -/
def position (client : DriftClient) (user : DriftUser) (markets : List PerpMarket) (raw : DriftPerpPosition) :
    Except PerpsVenueError (Option PerpPosition) :=
  match bnToBigInt raw.baseAssetAmount with
  | none => .ok none
  | some signed =>
    if signed = 0 then .ok none
    else
      match markets.find? fun m => m.venueMarketIndex = raw.marketIndex with
      | none => .ok none
      | some market => do
        let price ← call (client.getOracleDataForPerpMarket raw.marketIndex) "getOracleDataForPerpMarket"
        match bnToBigInt price,priceFrom price with
        | some priceUnits,some markPrice =>
          if markPrice ≤ 0 then return none
          else
            let (side,magnitude) := splitSignedBase signed
            let notionalUnits := notionalQuoteUnits magnitude priceUnits
            let collateralUnits := ((safe user.getTotalCollateral).bind bnToBigInt).getD 0
            return some ⟨market.symbol,side,magnitude,quoteAmount notionalUnits,quoteAmount collateralUnits⟩
        | _,_ => return none

def positions (client : DriftClient) (user : DriftUser) (markets : List PerpMarket) :
    List DriftPerpPosition → Except PerpsVenueError (List PerpPosition)
  | [] => .ok []
  | raw :: raws => do
    let found ← position client user markets raw
    let rest ← positions client user markets raws
    return found.toList ++ rest

def getPositions (subAccountId : ℕ) : Except PerpsVenueError (List PerpPosition) := do
  let client ← venue.ready
  let user ← call (client.getUser subAccountId) "getUser"
  let perpPositions ← call user.getUserAccount "getUserAccount"
  let markets ← venue.listMarkets locale
  positions client user markets perpPositions

def getAccountStatus (subAccountId : ℕ) : Except PerpsVenueError Bool := do
  let client ← venue.ready
  let found := (safe (client.getUserAccount subAccountId)).getD false
  let total := do
    let user ← safe (client.getUser subAccountId)
    bnToBigInt (← safe user.getTotalCollateral)
  return found && total.isSome

end DriftVenue

structure PerpPositionRef where
  venue : String
  market : String
  subAccountId : ℕ

def signedBase (p : PerpPosition) : ℤ :=
  match p.side with
  | .long => p.baseAmount
  | .short => -p.baseAmount

/-- Absence is flat, failure is loud. -/
def readPosition (venue : DriftVenue) (ref : PerpPositionRef) : Except PerpsVenueError ℤ := do
  reject (ref.venue ≠ DRIFT_VENUE_ID) ⟨DRIFT_VENUE_ID,
    "cannot read a '" ++ ref.venue ++ "' position from the '" ++ DRIFT_VENUE_ID ++ "' venue"⟩
  let positions ← venue.getPositions locale ref.subAccountId
  match positions.find? fun p => p.symbol = ref.market with
  | none => return 0
  | some p => return signedBase p

/-- An exposure snapshot that every opening guard will refuse. -/
def staleExposure (reason : String) : PortfolioExposure where
  openPositions := 0
  notionalByBucket := fun _ => 0
  collateralByBucket := fun _ => 0
  stale := true
  staleReason := some reason
  unbucketed := 0

structure PerpsSnapshot where
  positions : List PerpPosition
  exposure : PortfolioExposure
  accountInitialized : Bool

/-- Every failure is mapped to a snapshot that fails closed. -/
def readSnapshot (venue : DriftVenue) (subAccountId : ℕ) : PerpsSnapshot :=
  let accountInitialized := (venue.getAccountStatus subAccountId).toOption.getD false
  match venue.getPositions locale subAccountId with
  | .ok positions => ⟨positions,exposureFrom positions,accountInitialized⟩
  | .error err => ⟨[],staleExposure ("could not read positions: " ++ err.message),accountInitialized⟩

end Adapter

end RatifyOs.Perps
