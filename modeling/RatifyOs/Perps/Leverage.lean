import RatifyOs.Perps.Guards

/-! How far the leverage cap binds what an opening intent puts at risk. -/
namespace RatifyOs.Perps
open Data Data.Result

/-- `amount` is at most the collateral times the cap, up to the rounding to basis points. -/
def LeverageBound (maxLeverage : Double) (collateral amount : ℤ) : Prop :=
  match leverageToBps maxLeverage with
  | some (.finite bps) => amount ≤ (collateral * ⌊bps⌋).tdiv 10000
  | some _ => True
  | none => maxLeverage = .infinite false

theorem leverageBound_max {maxLeverage : Double} {collateral a b : ℤ} :
    LeverageBound maxLeverage collateral (max a b) ↔
      LeverageBound maxLeverage collateral a ∧ LeverageBound maxLeverage collateral b := by
  unfold LeverageBound
  split
  · exact max_le_iff
  · simp
  · simp

theorem bad_eq_ok {c : Prop} [Decidable c] {why : String} {u : Unit} : bad c why = .ok u ↔ ¬c := by
  unfold bad
  split <;> simp_all

/-- The leverage of an intent of the right shape is positive, and the collateral is not negative. -/
theorem shape_leverage {i : PerpIntent} (ok : assertPerpIntentShape i = .ok ()) :
    (∃ q, i.perp.leverage = .finite q ∧ 0 < q) ∧ 0 ≤ i.perp.collateral.amount ∧ 0 ≤ i.perp.notional.amount ∧
      i.perp.notional.mint = i.perp.collateral.mint := by
  simp only [assertPerpIntentShape,bind_eq_ok,bad_eq_ok] at ok
  obtain ⟨_,_,_,_,_,_,_,_,_,_,_,_,_,nonneg,_,_,_,_,_,_,_,leverage,_,_,_,_,_,_,_,_,_,same,_,notional,_,mint,_⟩ := ok
  refine ⟨?_,?_,?_,?_⟩
  · cases found : i.perp.leverage with
    | finite q => exact ⟨q,rfl,by simpa [positive,found,Double.isFinite] using leverage⟩
    | infinite n => simp [positive,found,Double.isFinite] at leverage
    | nan => simp [positive,found,Double.isFinite] at leverage
  · simp only [not_or,not_not] at same
    omega
  · omega
  · simp only [not_or,not_not] at same mint
    rw [mint,same.1]

theorem leverageWithinCap_pass {i : PerpIntent} {ctx : PerpGuardContext} (opening : i.kind.isOpeningKind)
    (passed : leverageWithinCap i ctx = pass) : ¬ctx.policy.maxLeverage < i.perp.leverage := by
  intro above
  simp [leverageWithinCap,opening,above,v,pass] at passed

/-- An opening intent that the notional cap lets through has a derived notional within it. -/
theorem notionalWithinCap_pass {i : PerpIntent} {ctx : PerpGuardContext} {bucket : Kernel.QuoteBucket}
    (opening : i.kind.isOpeningKind) (bucketed : bucketOf i = some bucket)
    (passed : notionalWithinCap i ctx = pass) :
    ∃ derived, notionalFromCollateral i.perp.collateral.amount i.perp.leverage = .ok (some derived) ∧
      max i.perp.notional.amount derived ≤ (capsFor ctx.policy bucket).maxNotionalPerPosition := by
  unfold notionalWithinCap at passed
  rw [if_neg (not_not.mpr opening)] at passed
  simp only [bucketed] at passed
  cases reached : notionalFromCollateral i.perp.collateral.amount i.perp.leverage with
  | error e => simp [reached,Except.bind,pass] at passed
  | ok result =>
    cases result with
    | none => simp [reached,Except.bind,v,pass] at passed
    | some derived =>
      refine ⟨derived,rfl,?_⟩
      by_contra above
      simp only [reached,Except.bind,gt_iff_lt,if_pos (not_le.mp above),v,pass,Except.ok.injEq,reduceCtorEq] at passed

theorem collateralCappable_pass {i : PerpIntent} {ctx : PerpGuardContext} (passed : collateralCappable i ctx = pass) :
    ∃ bucket, bucketOf i = some bucket := by
  unfold collateralCappable at passed
  cases found : bucketOf i with
  | none => simp [found,v,pass] at passed
  | some bucket => exact ⟨bucket,rfl⟩

theorem leverageToBps_mono {q m : ℚ} (positive : 0 < q) (le : q ≤ m) {bps : Double}
    (low : leverageToBps (.finite q) = some bps) :
    ∃ high, leverageToBps (.finite m) = some high ∧ bps ≤ high := by
  have scaled : (Double.finite q * 10000).round ≤ (Double.finite m * 10000).round := by
    apply Double.round_mono
    apply Double.ofRat_mono
    exact mul_le_mul_of_nonneg_right le (Nat.cast_nonneg _)
  unfold leverageToBps at low ⊢
  rw [if_neg (by simp [Double.isFinite,positive])] at low
  rw [if_neg (by simp [Double.isFinite,positive.trans_le le])]
  dsimp only at low ⊢
  split at low
  · rename_i above
    rw [Option.some.injEq] at low
    subst low
    exact ⟨_,if_pos (Double.lt_of_lt_of_le above scaled),scaled⟩
  · simp at low

theorem notionalFromCollateral_ok {collateral derived : ℤ} {leverage : Double}
    (ok : notionalFromCollateral collateral leverage = .ok (some derived)) :
    ∃ bps : ℤ, leverageToBps leverage = some (.finite bps) ∧ derived = (collateral * bps).tdiv 10000 := by
  unfold notionalFromCollateral at ok
  cases reached : leverageToBps leverage with
  | none => simp [reached] at ok
  | some bps =>
    rw [reached] at ok
    dsimp only at ok
    split at ok
    · simp at ok
    · cases bps with
      | infinite n => simp [bigInt,bind,Except.bind] at ok
      | nan => simp [bigInt,bind,Except.bind] at ok
      | finite b =>
        by_cases whole : b.den = 1
        · simp only [bigInt,if_pos whole,bind_eq_ok,Except.ok.injEq,pure_eq_ok,Option.some.injEq] at ok
          obtain ⟨n,rfl,value⟩ := ok
          refine ⟨b.num,?_,value.symm⟩
          rw [Rat.den_eq_one_iff b |>.mp whole]
        · simp [bigInt,whole,bind,Except.bind] at ok

/-- The derived notional of an intent that passes is within the leverage cap. -/
theorem derived_bounded {locale : Locale} {i : PerpIntent} {ctx : PerpGuardContext} {derived : ℤ}
    (opening : i.kind.isOpeningKind) (ok : perpGuards locale i ctx = .ok ())
    (number : ctx.policy.maxLeverage ≠ .nan)
    (reached : notionalFromCollateral i.perp.collateral.amount i.perp.leverage = .ok (some derived)) :
    LeverageBound ctx.policy.maxLeverage i.perp.collateral.amount derived := by
  obtain ⟨shape,rules⟩ := perpGuards_ok ok
  obtain ⟨⟨q,leverage,positive⟩,nonneg,_⟩ := shape_leverage shape
  have within := leverageWithinCap_pass opening (rules leverageWithinCap (by simp [PERP_RULES]))
  obtain ⟨bps,low,rfl⟩ := notionalFromCollateral_ok reached
  rw [leverage] at low within
  unfold LeverageBound
  cases cap : ctx.policy.maxLeverage with
  | nan => exact absurd cap number
  | infinite negative =>
    cases negative with
    | false => simp [leverageToBps,Double.isFinite]
    | true =>
      rw [cap] at within
      exact absurd rfl within
  | finite m =>
    rw [cap,Double.finite_lt,not_lt] at within
    obtain ⟨high,up,le⟩ := leverageToBps_mono positive within low
    rw [up]
    cases high with
    | nan => trivial
    | infinite n => trivial
    | finite b =>
      rw [Double.finite_le] at le
      have floors : bps ≤ ⌊b⌋ := Int.le_floor.mpr le
      have product : i.perp.collateral.amount * bps ≤ i.perp.collateral.amount * ⌊b⌋ :=
        mul_le_mul_of_nonneg_left floors nonneg
      exact Int.tdiv_le_tdiv (by norm_num) product

/-- What an accepted opening intent puts at risk is within the leverage cap exactly when
the notional that the venue states is. -/
theorem leverage_bounded_iff (locale : Locale) (i : PerpIntent) (ctx : PerpGuardContext)
    (opening : i.kind.isOpeningKind) (ok : perpGuards locale i ctx = .ok ()) :
    (∃ derived, notionalFromCollateral i.perp.collateral.amount i.perp.leverage = .ok (some derived) ∧
      LeverageBound ctx.policy.maxLeverage i.perp.collateral.amount (max i.perp.notional.amount derived)) ↔
      LeverageBound ctx.policy.maxLeverage i.perp.collateral.amount i.perp.notional.amount := by
  obtain ⟨_,rules⟩ := perpGuards_ok ok
  obtain ⟨bucket,bucketed⟩ := collateralCappable_pass (rules collateralCappable (by simp [PERP_RULES]))
  obtain ⟨derived,reached,_⟩ :=
    notionalWithinCap_pass opening bucketed (rules notionalWithinCap (by simp [PERP_RULES]))
  constructor
  · rintro ⟨derived,_,bounded⟩
    exact (leverageBound_max.mp bounded).1
  · intro stated
    refine ⟨derived,reached,leverageBound_max.mpr ⟨stated,?_⟩⟩
    apply derived_bounded opening ok _ reached
    intro nan
    simp [LeverageBound,nan,leverageToBps,Double.isFinite] at stated

/-! A position is increased by sixty times the margin that is posted for it. -/
namespace Sample

def USDC_MINT : String := "EPjFWdd5AufqSSqeM2qN1xzybapC8G4wEGGkZwyTDt1v"

def usdc (amount : ℤ) : TokenAmount := ⟨USDC_MINT,amount,6⟩

def caps : PerpsCaps := ⟨200000000,600000000,2000000000⟩

def policy : PerpsPolicy where
  perpsEnabled := true
  windDownOnly := false
  maxLeverage := 3
  minLiquidationDistanceBps := 2000
  maxFundingRateBpsPerHour := 5
  maxAdverseFundingBpsPerHour := 2
  maxSlippageBps := 100
  maxOracleDivergenceBps := 100
  liquidationToleranceBps := 500
  maxOpenPositions := 3
  capsSol := ⟨1000000000,3000000000,10000000000⟩
  capsUsdc := caps
  marketAllowlist := none
  marketDenylist := []
  allowedCollateralMints := [USDC_MINT]

def position : PerpPosition := ⟨"SOL-PERP",.long,1000000000,usdc 150000000,usdc 50000000⟩

def intent (kind : PerpIntentKind) (side : PerpSide) (collateral notional : ℤ) : PerpIntent where
  kind := kind
  source := "perps"
  unsignedTxBase64 := "AQ=="
  recentBlockhash := "hash"
  lastValidBlockHeight := 250000000
  priorityFeeLamports := 200000
  input := usdc collateral
  perp := {
    venue := "fake"
    market := "SOL-PERP"
    accountSubId := 0
    side := side
    orderType := .market
    limitPrice := none
    reduceOnly := false
    leverage := 3
    slippageBps := 50
    expectedBaseAmount := 1000000000
    minBaseAmount := 995000000
    collateral := usdc collateral
    notional := usdc notional
    entryPrice := 150
    markPrice := 150
    oraclePrice := 150
    maintenanceMarginRatio := .ofRat (3 / 100)
    marketStatus := .active
    venueLiquidationPrice := none
    fundingBpsPerHour := some 0 }

def locale : Locale := ⟨id,id⟩

def context (positions : List PerpPosition) : PerpGuardContext where
  policy := policy
  killSwitch := false
  executionEnabled := true
  exposure := exposureFrom positions
  position := positions.find? (·.symbol = "SOL-PERP")
  accountInitialized := true
  dryRun := false

end Sample

open Sample in
/-- Ten of margin at a stated leverage of three, a cap of three, and a notional of six hundred. -/
theorem leverage_exceeded :
    perpGuards locale (intent .perpIncrease .long 10000000 600000000) (context [position]) = .ok () ∧
      ¬LeverageBound policy.maxLeverage 10000000 600000000 := by
  refine ⟨by decide +kernel,?_⟩
  rw [LeverageBound,show leverageToBps policy.maxLeverage = some (.finite 30000) by decide +kernel]
  decide +kernel

open Sample in
theorem leverage_bounded_open :
    ∃ derived, notionalFromCollateral 10000000 3 = .ok (some derived) ∧
      LeverageBound policy.maxLeverage 10000000 (max 30000000 derived) := by
  apply (leverage_bounded_iff locale (intent .perpOpen .long 10000000 30000000) (context []) rfl
    (by decide +kernel)).mpr
  change LeverageBound policy.maxLeverage 10000000 30000000
  rw [LeverageBound,show leverageToBps policy.maxLeverage = some (.finite 30000) by decide +kernel]
  decide +kernel

end RatifyOs.Perps
