import RatifyOs.Perps.Leverage

/-! What the guards demand of an order that makes a position smaller. -/
namespace RatifyOs.Perps
open Data Data.Result

section Rules
variable {locale : Locale} {i : PerpIntent} {ctx : PerpGuardContext}

theorem not_opening (reducing : i.kind.isReducingKind) : i.kind.isOpeningKind = false := by
  cases kind : i.kind <;> simp_all [PerpIntentKind.isReducingKind,PerpIntentKind.isOpeningKind]

theorem perpGuards_iff : perpGuards locale i ctx = .ok () ↔
    assertPerpIntentShape i = .ok () ∧ ∀ rule ∈ PERP_RULES locale, rule i ctx = pass := by
  constructor
  · exact perpGuards_ok
  · rintro ⟨shape,passed⟩
    simp only [perpGuards,bind_eq_ok]
    refine ⟨(),shape,?_⟩
    generalize PERP_RULES locale = rules at passed ⊢
    induction rules with
    | nil => rfl
    | cons rule rules ih =>
      simp only [runRules,bind_eq_ok]
      refine ⟨none,passed rule List.mem_cons_self,?_⟩
      exact ih fun other inside => passed other (List.mem_cons_of_mem _ inside)

/-- A rule about new risk lets every reducing order through. -/
theorem opening_rules_pass (ctx : PerpGuardContext) (reducing : i.kind.isReducingKind) : increaseMatchesPosition i ctx = pass ∧
    leverageWithinCap i ctx = pass ∧ notionalWithinCap i ctx = pass ∧ portfolioWithinCap i ctx = pass ∧
      positionCountWithinCap i ctx = pass ∧ liquidationDistanceOk i ctx = pass ∧ oracleAgreesWithMark i ctx = pass ∧
        fundingSane i ctx = pass := by
  have opens := not_opening reducing
  have kinds : i.kind ≠ .perpIncrease ∧ i.kind ≠ .perpOpen := by
    constructor
    · intro kind
      rw [kind] at reducing
      cases reducing
    · intro kind
      rw [kind] at reducing
      cases reducing
  simp [increaseMatchesPosition,leverageWithinCap,notionalWithinCap,portfolioWithinCap,positionCountWithinCap,
    liquidationDistanceOk,oracleAgreesWithMark,fundingSane,opens,kinds]

theorem v_ne_pass (code : PerpGuardCode) (message : List Piece) (details : Option (List (String × Detail))) :
    v code message details ≠ pass := nofun

theorem armState_reducing (reducing : i.kind.isReducingKind) (enabled : ctx.executionEnabled) : armState i ctx = pass := by
  simp [armState,not_opening reducing,enabled]

theorem marketTradeable_reducing (reducing : i.kind.isReducingKind)
    (tradeable : i.perp.marketStatus = .active ∨ i.perp.marketStatus = .reduceOnly) : marketTradeable i ctx = pass := by
  rcases tradeable with active | only
  · simp [marketTradeable,active]
  · simp [marketTradeable,only,reducing]

/-- The market is not denied, and is listed where there is a list. -/
def MarketListed (locale : Locale) (policy : PerpsPolicy) (market : String) : Prop :=
  (∀ m ∈ policy.marketDenylist, locale.toUpperCase m ≠ locale.toUpperCase market) ∧
    ∀ allow, policy.marketAllowlist = some allow → ∃ m ∈ allow, locale.toUpperCase m = locale.toUpperCase market

theorem marketAllowed_iff : marketAllowed locale i ctx = pass ↔ MarketListed locale ctx.policy i.perp.market := by
  unfold marketAllowed MarketListed
  dsimp only
  split
  · rename_i denied
    obtain ⟨m,inside,same⟩ := List.any_eq_true.mp denied
    constructor
    · exact fun passed => absurd passed (v_ne_pass _ _ _)
    · exact fun listed => absurd (of_decide_eq_true same) (listed.1 m inside)
  · rename_i free
    have free : ∀ m ∈ ctx.policy.marketDenylist, locale.toUpperCase m ≠ locale.toUpperCase i.perp.market := by
      intro m inside same
      exact free (List.any_eq_true.mpr ⟨m,inside,decide_eq_true same⟩)
    cases allowlist : ctx.policy.marketAllowlist with
    | none => simpa using free
    | some allow =>
      have listed : (allow.any fun m => locale.toUpperCase m = locale.toUpperCase i.perp.market) = true ↔
          ∃ m ∈ allow, locale.toUpperCase m = locale.toUpperCase i.perp.market := by simp
      rw [Option.any_some]
      split
      · rename_i absent
        constructor
        · exact fun passed => absurd passed (v_ne_pass _ _ _)
        · intro both
          rw [listed.mpr (both.2 allow rfl)] at absent
          cases absent
      · rename_i present
        have present := listed.mp (by simpa using present)
        refine ⟨fun _ => ⟨free,?_⟩,fun _ => rfl⟩
        rintro _ ⟨⟩
        exact present

theorem collateralAllowed_iff :
    collateralAllowed i ctx = pass ↔ i.perp.collateral.mint ∈ ctx.policy.allowedCollateralMints := by
  unfold collateralAllowed
  dsimp only
  split
  · rename_i nothing
    simp [nothing,v,pass]
  · split
    · rename_i absent
      simp [absent,v,pass]
    · rename_i present
      simpa using present

/-- The collateral that the order states is within the cap of its bucket, or there is none. -/
def CollateralWithin (policy : PerpsPolicy) (i : PerpIntent) : Prop :=
  ∃ bucket, bucketOf i = some bucket ∧
    (i.perp.collateral.amount = 0 ∨ i.perp.collateral.amount ≤ (capsFor policy bucket).maxCollateralPerPosition)

theorem collateral_iff : collateralCappable i ctx = pass ∧ collateralWithinCap i ctx = pass ↔
    CollateralWithin ctx.policy i := by
  unfold collateralCappable collateralWithinCap CollateralWithin
  cases found : bucketOf i with
  | none => simp [v,pass]
  | some bucket =>
    dsimp only
    by_cases nothing : i.perp.collateral.amount = 0
    · simp [nothing]
    · by_cases above : i.perp.collateral.amount > (capsFor ctx.policy bucket).maxCollateralPerPosition
      · simp [nothing,above,v,pass]
      · simp [nothing,above]
        omega

end Rules

/-- A well-formed order that makes a position of the account smaller, in a market that still
takes such orders, while execution is enabled. -/
structure Exit (locale : Locale) (i : PerpIntent) (ctx : PerpGuardContext) : Prop where
  shape : assertPerpIntentShape i = .ok ()
  reducing : i.kind.isReducingKind
  faces : ∃ pos, ctx.position = some pos ∧ locale.toUpperCase pos.symbol = locale.toUpperCase i.perp.market ∧
    pos.side ≠ i.perp.side ∧ i.perp.expectedBaseAmount ≤ pos.baseAmount
  slippage : i.perp.slippageBps ≤ ctx.policy.maxSlippageBps
  tradeable : i.perp.marketStatus = .active ∨ i.perp.marketStatus = .reduceOnly
  initialized : ctx.accountInitialized
  enabled : ctx.executionEnabled

theorem Exit.reduces {locale : Locale} {i : PerpIntent} {ctx : PerpGuardContext} (exit : Exit locale i ctx) :
    reduceIsAReduction locale i ctx = pass := by
  obtain ⟨pos,held,market,side,size⟩ := exit.faces
  unfold reduceIsAReduction
  rw [if_neg (not_not.mpr exit.reducing),held]
  dsimp only
  rw [if_neg (not_not.mpr market),if_neg side,if_neg (not_lt.mpr size)]

/-- An exit is accepted exactly when the lists of the policy have its market and its collateral,
and the collateral it states is within the cap. -/
theorem exit_accepted_iff (locale : Locale) (i : PerpIntent) (ctx : PerpGuardContext) (exit : Exit locale i ctx) :
    perpGuards locale i ctx = .ok () ↔ MarketListed locale ctx.policy i.perp.market ∧
      i.perp.collateral.mint ∈ ctx.policy.allowedCollateralMints ∧ CollateralWithin ctx.policy i := by
  obtain ⟨increase,leverage,notional,portfolio,count,liquidation,oracle,funding⟩ :=
    opening_rules_pass ctx exit.reducing
  have ready : accountReady i ctx = pass := by simp [accountReady,exit.initialized]
  have slippage : slippageWithinClamp i ctx = pass := by simp [slippageWithinClamp,exit.slippage]
  rw [perpGuards_iff,← marketAllowed_iff,← collateralAllowed_iff,← collateral_iff]
  constructor
  · rintro ⟨_,passed⟩
    exact ⟨passed _ (by simp [PERP_RULES]),passed _ (by simp [PERP_RULES]),passed _ (by simp [PERP_RULES]),
      passed _ (by simp [PERP_RULES])⟩
  · rintro ⟨market,mint,cappable,within⟩
    refine ⟨exit.shape,?_⟩
    simp only [PERP_RULES,List.forall_mem_cons,List.not_mem_nil,false_implies,implies_true,and_true]
    exact ⟨armState_reducing exit.reducing exit.enabled,ready,market,marketTradeable_reducing exit.reducing exit.tradeable,
      mint,cappable,slippage,exit.reduces,increase,leverage,within,notional,portfolio,count,liquidation,oracle,funding⟩

namespace Sample

/-- The whole of the position is sold, and no collateral is posted. -/
def close : PerpIntent :=
  { intent .perpClose .short 0 0 with perp := { (intent .perpClose .short 0 0).perp with reduceOnly := true } }

def exposed (policy : PerpsPolicy) : PerpGuardContext := { context [position] with policy }

theorem exit_close (p : PerpsPolicy) (slippage : close.perp.slippageBps ≤ p.maxSlippageBps) :
    Exit locale close (exposed p) where
  shape := by decide +kernel
  reducing := rfl
  faces := ⟨position,show (context [position]).position = some position by decide +kernel,rfl,by decide,by decide⟩
  slippage := slippage
  tradeable := .inl rfl
  initialized := rfl
  enabled := rfl

theorem exit_accepted_close : perpGuards locale close (exposed policy) = .ok () := by
  apply (exit_accepted_iff locale close (exposed policy) (exit_close policy (by decide +kernel))).mpr
  refine ⟨⟨fun _ inside => absurd inside List.not_mem_nil,nofun⟩,by decide +kernel,.usdc,by decide +kernel,.inl rfl⟩

/-- The operator denies the market, or takes its collateral off the list, while the position
is open. -/
theorem exit_refused : ¬∀ (locale : Locale) (i : PerpIntent) (ctx : PerpGuardContext), Exit locale i ctx →
    perpGuards locale i ctx = .ok () := by
  intro all
  have accepted := all locale close (exposed { policy with marketDenylist := ["SOL-PERP"] })
    (exit_close _ (by decide +kernel))
  revert accepted
  decide +kernel

end Sample

end RatifyOs.Perps
