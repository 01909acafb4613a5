import RatifyOs.Pools.Fee

/-! `pumpfun_buy`: what is spent on the bonding curve, and what the transaction may take. -/
namespace RatifyOs.Pools
open Data Data.Result Kernel
open Signer (littleEndian)

/-- The curve of a mint with what the tool reads of it. -/
structure CurveState extends CurveReserves where
  mint : String
  curveAddress : String
  creator : Option String
  feeBps : ℤ
  fallbackFee : Bool
  progressPct : Double
  tokenDecimals : ℕ
  tokenProgramId : String
  solPaired : Bool
  isMayhemMode : Option Bool
  isCashbackCoin : Option Bool
  feeRecipients : List String
  feeRecipient : String
  quoteMint : Option String
  rawLength : ℕ

/-! Which way a curve is traded. -/

inductive CurveRoute where
  | bondingCurve
  | jupiter
  deriving DecidableEq

structure RoutingDecision where
  route : CurveRoute
  reason : String
  refusal : Option Refusal

def routeForMissingCurve (mint : String) : RoutingDecision :=
  ⟨.jupiter,s!"{mint} has no pump.fun bonding curve — route it through swap_jupiter",none⟩

def routeForCurve (curve : CurveState) : RoutingDecision :=
  let quote := curve.quoteMint.getD "a non-SOL asset"
  if curve.complete then
    ⟨.jupiter,s!"{curve.mint} has completed its bonding curve and migrated — route it through swap_jupiter",none⟩
  else if ¬curve.solPaired then
    ⟨.bondingCurve,"curve is quoted in a non-SOL asset",some ⟨.unsupportedCurve,
      s!"{curve.mint} is quoted in {quote} and needs pump's buy_v2 path"⟩⟩
  else if curve.tokenProgramId ≠ TOKEN_PROGRAM_ID then
    ⟨.bondingCurve,"Token-2022 base mint",some ⟨.token2022,
      s!"{curve.mint} is a Token-2022 mint; the legacy buy/sell instructions do not cover it"⟩⟩
  else if curve.creator = none then
    ⟨.bondingCurve,"curve predates the creator field",some ⟨.unsupportedCurve,
      s!"{curve.mint} is a pre-creator-fee curve ({curve.rawLength}-byte account); its creator_vault cannot be derived"⟩⟩
  else if curve.isMayhemMode = some true ∨ curve.isCashbackCoin = some true then
    ⟨.bondingCurve,"mayhem/cashback coin",some ⟨.unsupportedCurve,
      s!"{curve.mint} is a mayhem/cashback coin and needs pump's buy_v2 account layout"⟩⟩
  else ⟨.bondingCurve,"live SOL-paired curve",none⟩

structure DelegationPayload where
  reason : String
  inputMint : String
  outputMint : String
  amountUi : Double
  slippageBps : Option Double
  deriving DecidableEq

structure PoolIntentMeta where
  action : IntentKind
  poolAddress : Option String
  positionAddress : Option String
  warnings : List String

structure BuiltIntent where
  intent : TradeIntent
  meta_ : PoolIntentMeta

structure BuyConfig where
  mint : String
  amountUi : Double
  slippageBps : Option Double

def DEFAULT_CURVE_SLIPPAGE_BPS : Double := 100

def DEFAULT_PRIORITY_FEE_LAMPORTS : Double := 200000

/-- What the tools are composed of, and what the chain and the signals engine answer to one call.
`numberText` is `String(x)`, `fixed` is `x.toFixed(digits)`; a mint that cannot be read is absent. -/
structure CurveEnv where
  guards : PoolGuardConfig
  priorityFeeLamports : Option Double
  web3 : Web3Builder
  numberText : Double → String
  fixed : ℕ → Double → String
  json : IntentDraft → Text
  summary : CurveState → BuyQuote → Double → String
  readCurve : String → Except Thrown (Option CurveState)
  getMintInfo : String → Option MintRecord
  readRugHeat : String → Option RugHeat
  getLatestBlockhash : Except Thrown Blockhash

section Money
variable (numberText : Double → String)

/-- `toBaseUnits` of a number that `toFixed` writes without an exponent. -/
def toBaseUnits (amount : Double) (decimals : ℕ) : Except Thrown ℤ :=
  match amount with
  | .finite q => if 0 ≤ q ∧ q < 10 ^ 21 then .ok ⌊q * 10 ^ decimals + 1 / 2⌋ else .error invalid
  | _ => .error invalid
where
  invalid : Thrown := .range s!"invalid amount for {decimals} decimals: {numberText amount}"

end Money

/-- `Math.round` of a slippage that the guards have let through. -/
def wholeBps (slippageBps : Double) : ℤ :=
  match slippageBps.round with
  | .finite q => ⌊q⌋
  | _ => 0

section Buy
variable (env : CurveEnv)

def loadCurve (mint : String) : Except Thrown (Option CurveState × RoutingDecision) := do
  match ← env.readCurve mint with
  | none => return (none,routeForMissingCurve mint)
  | some curve => return (some curve,routeForCurve curve)

def ixContext (curve : CurveState) (user : String) (seed : ℕ) : Except Thrown CurveIxContext := do
  let creator ← required (present curve.creator)
    (.pool .unsupportedCurve s!"{curve.mint}: curve has no creator field; creator_vault cannot be derived")
  let user ← env.web3.publicKey user
  let mint ← env.web3.publicKey curve.mint
  let creator ← env.web3.publicKey creator
  let feeRecipient ← pickFeeRecipient env.web3 curve.feeRecipients curve.feeRecipient seed
  return { user, mint, creator, feeRecipient }

def buyWarnings (curve : CurveState) (quote : BuyQuote) : List String :=
  (if 90 < curve.progressPct then
    [s!"curve is {env.fixed 1 curve.progressPct}% complete — it may migrate mid-flight"] else []) ++
  (if curve.fallbackFee then ["fee tier could not be read on-chain; a fallback rate was used"] else []) ++
  (if 5 < quote.priceImpactPct then [s!"high price impact {env.fixed 1 quote.priceImpactPct}%"] else [])

def buyOnCurve (ownerWallet : String) (cfg : BuyConfig) (curve : CurveState) : Except Thrown BuiltIntent := do
  let slippageBps := cfg.slippageBps.getD DEFAULT_CURVE_SLIPPAGE_BPS
  let solBudget ← toBaseUnits env.numberText cfg.amountUi SOL_DECIMALS
  throwRefusal (guardCurveBuy env.numberText env.guards {
    input := ⟨WSOL_MINT,solBudget,SOL_DECIMALS⟩
    slippageBps
    realSolReserves := some curve.realSolReserves
    complete := curve.complete
    mints := [env.getMintInfo cfg.mint]
    rugHeat := env.readRugHeat cfg.mint })
  let quote ← quoteBuyForSolBudget curve.toCurveReserves solBudget curve.feeBps slippageBps
  let latest ← env.getLatestBlockhash
  let ctxIx ← ixContext env curve ownerWallet (curve.virtualSolReserves.tmod 7).natAbs
  let payer ← env.web3.publicKey ownerWallet
  let buy ← buildBuyInstruction env.web3 ctxIx quote.tokenAmount quote.maxSolCostLamports
  let built ← buildUnsignedTx env.web3 payer [ensureUserAtaInstruction env.web3 ctxIx,buy] latest.blockhash
    (env.priorityFeeLamports.getD DEFAULT_PRIORITY_FEE_LAMPORTS)
  let intent ← toTradeIntent env.json {
    kind := .curveBuy
    source := "pumpfun_buy"
    input := ⟨WSOL_MINT,quote.maxSolCostLamports,SOL_DECIMALS⟩
    outputMint := cfg.mint
    outputProvenance := some .untrusted
    unsignedTxBase64 := built.unsignedTxBase64
    recentBlockhash := built.recentBlockhash
    lastValidBlockHeight := latest.lastValidBlockHeight
    priorityFeeLamports := built.priorityFeeLamports
    summary := env.summary curve quote slippageBps
    expectedOut := quote.tokenAmount
    minOut := quote.tokenAmount
    slippageBps := wholeBps slippageBps }
  return ⟨intent,⟨.curveBuy,some curve.curveAddress,none,buyWarnings env curve quote⟩⟩

def buildCurveBuy (ownerWallet : String) (cfg : BuyConfig) : Except Thrown (BuiltIntent ⊕ DelegationPayload) := do
  let (curve,route) ← loadCurve env cfg.mint
  match curve with
  | none => return .inr ⟨route.reason,WSOL_MINT,cfg.mint,cfg.amountUi,cfg.slippageBps⟩
  | some curve =>
    if route.route = .jupiter then return .inr ⟨route.reason,WSOL_MINT,cfg.mint,cfg.amountUi,cfg.slippageBps⟩
    else
      throwRefusal route.refusal
      let built ← buyOnCurve env ownerWallet cfg curve
      return .inl built

end Buy

/-- The `max_sol_cost` of the first `buy` among the instructions of a transaction. -/
def maxSolCost (instructions : List TransactionInstruction) : Option ℕ :=
  (instructions.find? fun ix => ix.programId = PUMP_PROGRAM_ID ∧ ix.data.take 8 = BUY_DISCRIMINATOR).map fun ix =>
    littleEndian ((ix.data.drop 16).take 8)

/-- `10000 + Math.round(slippageBps)` -/
def slippageFactor (slippageBps : Double) : ℤ :=
  match 10000 + slippageBps.round with
  | .finite q => ⌊q⌋
  | _ => 0

/-- The cap, with the slippage and then the fee taken off, still covers what the curve charges for
the tokens that the budget buys. -/
def CapCovers (curve : CurveState) (solBudget : ℤ) (slippageBps : Double) (cap : ℤ) : Prop :=
  let total := ((cap + 1) * 10000 - 1) / slippageFactor slippageBps
  let cost := ((total + 1) * 10000 - 1) / (10000 + curve.feeBps)
  curve.product < (curve.virtualSolReserves + cost) *
    tokensLeft curve.toCurveReserves (solBudget * 10000 / (10000 + curve.feeBps))

section Cap

theorem slippageFactor_eq {slippageBps : Double} {factor : ℤ} (slipped : bigInt (10000 + slippageBps.round) = .ok factor) :
    slippageFactor slippageBps = factor := by
  rw [bigInt_eq_ok] at slipped
  rw [slippageFactor,slipped]
  exact Int.floor_intCast factor

theorem scaled_le_iff {amount factor bound : ℤ} (positive : 0 < factor) :
    amount * factor / 10000 ≤ bound ↔ amount ≤ ((bound + 1) * 10000 - 1) / factor := by
  rw [Int.le_ediv_iff_mul_le positive,← Int.lt_add_one_iff,Int.ediv_lt_iff_lt_mul (by decide),Int.le_sub_one_iff]

theorem max_le_cap_iff {curve : CurveState} {solBudget : ℤ} {slippageBps : Double} {quote : BuyQuote} {factor : ℤ}
    (returned : quote.Returned curve.toCurveReserves solBudget curve.feeBps slippageBps factor) (cap : ℤ) :
    quote.maxSolCostLamports ≤ cap ↔ CapCovers curve solBudget slippageBps cap := by
  have fee := returned.fee
  have least := le_factor returned.accepted returned.slipped
  have total := returned.total_bounds.1.le
  obtain ⟨seeded,_,_,left⟩ := tokensForSol_ok returned.tokens returned.some_
  obtain ⟨_,⟨none_,_⟩ | ⟨_,below,cost⟩⟩ := solCostForTokens_ok.mp returned.cost
  · exact absurd returned.some_ (not_lt.mpr none_)
  · have rest : 0 < curve.virtualTokenReserves - quote.tokenAmount := by omega
    rw [returned.max,Int.tdiv_eq_ediv_of_nonneg (mul_nonneg total (by omega)),scaled_le_iff (by omega),returned.total,
      total_eq returned.costs.1.le fee,scaled_le_iff (by omega),cost,sub_le_iff_le_add',le_of_lt_mul rest,left]
    rw [CapCovers,slippageFactor_eq returned.slipped]

end Cap

section Committed
variable {env : CurveEnv} {ownerWallet : String} {cfg : BuyConfig}

theorem buildCurveBuy_ok {built : BuiltIntent} (ok : buildCurveBuy env ownerWallet cfg = .ok (.inl built)) :
    ∃ curve, env.readCurve cfg.mint = .ok (some curve) ∧ buyOnCurve env ownerWallet cfg curve = .ok built := by
  simp only [buildCurveBuy,loadCurve,bind_eq_ok] at ok
  obtain ⟨⟨_,_⟩,⟨curve,read,routed⟩,ok⟩ := ok
  cases curve with
  | none =>
    rw [pure_eq_ok,Prod.mk.injEq] at routed
    obtain ⟨rfl,rfl⟩ := routed
    cases ok
  | some curve =>
    rw [pure_eq_ok,Prod.mk.injEq] at routed
    obtain ⟨rfl,rfl⟩ := routed
    dsimp only at ok
    split_ifs at ok
    · cases ok
    · simp only [bind_eq_ok,pure_eq_ok,Sum.inl.injEq] at ok
      obtain ⟨_,_,_,bought,rfl⟩ := ok
      exact ⟨curve,read,bought⟩

theorem toTradeIntent_ok {json : IntentDraft → Text} {d : IntentDraft} {intent : TradeIntent}
    (ok : toTradeIntent json d = .ok intent) : intent.unsignedTxBase64 = d.unsignedTxBase64 ∧
      intent.inputMint = d.input.mint ∧ intent.inputAmount = d.input.amount ∧
        intent.outputMint = d.outputMint ∧ intent.quote = ⟨d.expectedOut,d.minOut,d.slippageBps⟩ := by
  simp only [toTradeIntent,refuse,bind_eq_ok,reject_eq_ok,pure_eq_ok] at ok
  obtain ⟨_,_,_,_,_,_,_,_,rfl⟩ := ok
  exact ⟨rfl,rfl,rfl,rfl,rfl⟩

theorem u64le_ok {v : ℤ} {bytes : Bytes} (ok : u64le v = .ok bytes) :
    bytes.length = 8 ∧ (littleEndian bytes : ℤ) = v := by
  simp only [u64le,bind_eq_ok,reject_eq_ok,pure_eq_ok,not_or,not_lt] at ok
  obtain ⟨_,⟨nonneg,small⟩,rfl⟩ := ok
  refine ⟨littleEndianBytes_length 8 _,?_⟩
  rw [littleEndian_bytes (by omega),Int.toNat_of_nonneg nonneg]

theorem maxSolCost_built {web3 : Web3Builder} {ctx : CurveIxContext} {tokenAmount maxSolCostLamports : ℤ}
    {buy : TransactionInstruction} (ok : buildBuyInstruction web3 ctx tokenAmount maxSolCostLamports = .ok buy) :
    ∃ n : ℕ, (n : ℤ) = maxSolCostLamports ∧ maxSolCost [ensureUserAtaInstruction web3 ctx,buy] = some n := by
  simp only [buildBuyInstruction,bind_eq_ok,pure_eq_ok] at ok
  obtain ⟨amount,first_,limit,second_,rfl⟩ := ok
  obtain ⟨length,_⟩ := u64le_ok first_
  obtain ⟨length',value⟩ := u64le_ok second_
  refine ⟨littleEndian limit,value,?_⟩
  have apart : ¬((ensureUserAtaInstruction web3 ctx).programId = PUMP_PROGRAM_ID ∧
      (ensureUserAtaInstruction web3 ctx).data.take 8 = BUY_DISCRIMINATOR) := fun same => absurd same.1 (by
    simp [ensureUserAtaInstruction,ASSOCIATED_TOKEN_PROGRAM_ID,PUMP_PROGRAM_ID])
  rw [maxSolCost,List.find?_cons_of_neg (by simpa using apart),List.find?_cons_of_pos]
  · have skipped : (BUY_DISCRIMINATOR ++ amount ++ limit ++ [1]).drop 16 = limit ++ [1] := by
      rw [List.append_assoc,List.drop_left' (by rw [List.length_append,length]; rfl)]
    simp only [Option.map_some,if_true,skipped]
    rw [List.take_left' length']
  · rw [decide_eq_true_eq,List.append_assoc,List.append_assoc]
    exact ⟨rfl,List.take_left' rfl⟩

end Committed

/-- The most that the transaction may take is the input of the intent, and within the cap exactly
when the cap covers the budget with the fee and the slippage on top of it. -/
theorem curve_buy_capped_iff (env : CurveEnv) (ownerWallet : String) (cfg : BuyConfig) (built : BuiltIntent)
    (ok : buildCurveBuy env ownerWallet cfg = .ok (.inl built)) (curve : CurveState)
    (read : env.readCurve cfg.mint = .ok (some curve)) (solBudget : ℤ)
    (parsed : toBaseUnits env.numberText cfg.amountUi SOL_DECIMALS = .ok solBudget) :
    ∃ payer hash limit price instructions, ∃ maxSolCostLamports : ℕ,
      env.web3.compileV0 payer hash (limit :: price :: instructions) = .ok built.intent.unsignedTxBase64 ∧
      maxSolCost instructions = some maxSolCostLamports ∧
      built.intent.inputMint = WSOL_MINT ∧ built.intent.inputAmount = maxSolCostLamports ∧
      (maxSolCostLamports ≤ env.guards.sol.maxSpendPerAction ↔
        CapCovers curve solBudget (cfg.slippageBps.getD DEFAULT_CURVE_SLIPPAGE_BPS) env.guards.sol.maxSpendPerAction) := by
  obtain ⟨_,same,bought⟩ := buildCurveBuy_ok ok
  rw [read,Except.ok.injEq,Option.some.injEq] at same
  subst same
  simp only [buyOnCurve,bind_eq_ok,pure_eq_ok,parsed,Except.ok.injEq,exists_eq_left'] at bought
  obtain ⟨_,_,quote,quoted,latest,_,ctx,_,payer,_,buy,bought,tx,compiled,intent,made,rfl⟩ := bought
  obtain ⟨wire,mint,amount,_⟩ := toTradeIntent_ok made
  obtain ⟨n,value,encoded⟩ := maxSolCost_built bought
  simp only [buildUnsignedTx,withBudget,bind_eq_ok,pure_eq_ok] at compiled
  obtain ⟨_,_,limit,_,price,_,text,compiled,rfl⟩ := compiled
  obtain ⟨factor,returned⟩ := quoteBuyForSolBudget_ok quoted
  refine ⟨payer,latest.blockhash,limit,price,_,n,?_,encoded,mint,amount.trans value.symm,?_⟩
  · rw [wire]
    exact compiled
  · rw [value]
    exact max_le_cap_iff returned _

namespace Sample

def buyGuards : PoolGuardConfig where
  sol := ⟨500000000,2000000000,50000000000⟩
  usdc := ⟨100000000,400000000,10000000000⟩
  maxConcurrentPositions := 5
  maxBaseLegPctOfHoldings := 25
  maxRugHeat := 60
  maxCurveSlippageBps := 300
  minCurveRealSolLamports := 2000000000
  authorityAllowlist := []
  allowToken2022 := false
  maxLevelSpan := 70

def liveCurve : CurveState where
  virtualSolReserves := 35000000000
  virtualTokenReserves := 920000000000000
  realSolReserves := 5000000000
  realTokenReserves := 640000000000000
  tokenTotalSupply := 1000000000000000
  complete := false
  mint := "mint"
  curveAddress := "curve"
  creator := some "creator"
  feeBps := 100
  fallbackFee := false
  progressPct := 20
  tokenDecimals := 6
  tokenProgramId := TOKEN_PROGRAM_ID
  solPaired := true
  isMayhemMode := some false
  isCashbackCoin := some false
  feeRecipients := []
  feeRecipient := "fees"
  quoteMint := none
  rawLength := 150

def buyEnv : CurveEnv where
  guards := buyGuards
  priorityFeeLamports := none
  web3 := { web3 with compileV0 := fun _ _ _ => .ok "AQAB" }
  numberText _ := ""
  fixed _ _ := ""
  json _ := []
  summary _ _ _ := "Buy"
  readCurve mint := .ok (if mint = liveCurve.mint then some liveCurve else none)
  getMintInfo mint := some ⟨mint,false,none,none⟩
  readRugHeat _ := some ⟨10,[]⟩
  getLatestBlockhash := .ok latest

def inputOf : Except Thrown (BuiltIntent ⊕ DelegationPayload) → Option ℤ
  | .ok (.inl built) => some built.intent.inputAmount
  | _ => none

theorem of_inputOf {answer : Except Thrown (BuiltIntent ⊕ DelegationPayload)} {amount : ℤ} (made : inputOf answer = some amount) :
    ∃ built, answer = .ok (.inl built) ∧ built.intent.inputAmount = amount := by
  match answer with
  | .ok (.inl built) => exact ⟨built,rfl,Option.some.inj made⟩
  | .ok (.inr _) => cases made
  | .error _ => cases made

theorem curve_buy_within : ∃ built : BuiltIntent, ∃ payer hash limit price instructions, ∃ maxSolCostLamports : ℕ,
    buyEnv.web3.compileV0 payer hash (limit :: price :: instructions) = .ok built.intent.unsignedTxBase64 ∧
      maxSolCost instructions = some maxSolCostLamports ∧
      built.intent.inputMint = WSOL_MINT ∧ built.intent.inputAmount = maxSolCostLamports ∧
      (maxSolCostLamports ≤ buyGuards.sol.maxSpendPerAction ↔
        CapCovers liveCurve 250000000 100 buyGuards.sol.maxSpendPerAction) := by
  have made : inputOf (buildCurveBuy buyEnv "wallet" ⟨"mint",.finite (1 / 4),none⟩) = some 252499998 := by decide +kernel
  obtain ⟨built,ok,_⟩ := of_inputOf made
  exact ⟨built,curve_buy_capped_iff buyEnv "wallet" ⟨"mint",.finite (1 / 4),none⟩ built ok liveCurve rfl 250000000
    (by decide +kernel)⟩

/-- The whole cap as the budget, under the default slippage. -/
theorem curve_buy_above : ¬∀ (env : CurveEnv) (ownerWallet : String) (cfg : BuyConfig) (built : BuiltIntent),
    buildCurveBuy env ownerWallet cfg = .ok (.inl built) →
      built.intent.inputAmount ≤ env.guards.sol.maxSpendPerAction := by
  intro all
  have made : inputOf (buildCurveBuy buyEnv "wallet" ⟨"mint",.finite (1 / 2),none⟩) = some 504999998 := by decide +kernel
  obtain ⟨built,ok,amount⟩ := of_inputOf made
  have within := all buyEnv "wallet" _ built ok
  rw [amount] at within
  exact absurd within (by decide)

end Sample

end RatifyOs.Pools
