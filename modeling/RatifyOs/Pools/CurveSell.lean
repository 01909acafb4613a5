import RatifyOs.Pools.CurveBuy

/-! `pumpfun_sell`: an exit to the bonding curve, by amount or by a share of the holding. -/
namespace RatifyOs.Pools
open Data Data.Result Kernel

def SELL_DISCRIMINATOR : Bytes := [51,230,133,164,1,127,131,173]

section Instruction
variable (web3 : Web3Builder) (ctx : CurveIxContext)

/-- Address, signer, writable: `sell` has its creator's vault before the token program. -/
def sellAccounts : List AccountMeta := [
  ⟨web3.findProgramAddress [.text "global"] PUMP_PROGRAM_ID,false,false⟩,
  ⟨ctx.feeRecipient,false,true⟩,
  ⟨ctx.mint,false,false⟩,
  ⟨bondingCurvePda web3 ctx,false,true⟩,
  ⟨associatedTokenAddress web3 ctx.mint (bondingCurvePda web3 ctx),false,true⟩,
  ⟨associatedTokenAddress web3 ctx.mint ctx.user,false,true⟩,
  ⟨ctx.user,true,true⟩,
  ⟨SYSTEM_PROGRAM_ID,false,false⟩,
  ⟨web3.findProgramAddress [.text "creator-vault",.key ctx.creator] PUMP_PROGRAM_ID,false,true⟩,
  ⟨TOKEN_PROGRAM_ID,false,false⟩,
  ⟨web3.findProgramAddress [.text "__event_authority"] PUMP_PROGRAM_ID,false,false⟩,
  ⟨PUMP_PROGRAM_ID,false,false⟩,
  ⟨web3.findProgramAddress [.text "fee_config",.key PUMP_PROGRAM_ID] PUMP_FEE_PROGRAM_ID,false,false⟩,
  ⟨PUMP_FEE_PROGRAM_ID,false,false⟩]

/-- `sell(amount: u64, min_sol_output: u64)` -/
def buildSellInstruction (tokenAmount minSolOutputLamports : ℤ) : Except Thrown TransactionInstruction := do
  let amount ← u64le tokenAmount
  let minSolOutput ← u64le minSolOutputLamports
  return ⟨PUMP_PROGRAM_ID,sellAccounts web3 ctx,SELL_DISCRIMINATOR ++ amount ++ minSolOutput⟩

end Instruction

/-- The shape of the trade alone: an exit is not held up by the state of the market. -/
def guardCurveSell (numberText : Double → String) (cfg : PoolGuardConfig) (input : TokenAmount) (slippageBps : Double)
    (complete : Bool) : Option Refusal :=
  if complete then
    some ⟨.migrated,"this curve has completed and migrated — route the sell through the Jupiter swap path"⟩
  else first [guardCurveSlippage numberText cfg slippageBps,guardSpend cfg input]

def fromBaseUnits (amount : ℤ) (decimals : ℕ) : Double :=
  let base : ℤ := 10 ^ decimals
  let value := number (amount.natAbs / base) + number (amount.natAbs % base) / number base
  if amount < 0 then -value else value

structure SellConfig where
  mint : String
  amountUi : Option Double
  percent : Option Double
  slippageBps : Option Double

/-- Beside what a buy reads, the wallet's holdings; one that cannot be read is absent. -/
structure SellEnv extends CurveEnv where
  getTokenBalance : String → String → Option ℤ
  sellSummary : CurveState → SellQuote → String

section Sell
variable (env : SellEnv)

/-- The share of the holdings that the config asks for. -/
def shareOf (cfg : SellConfig) (holdings : ℤ) : Except Thrown ℤ := do
  let percent ← bigInt (cfg.percent.getD 100).round
  return (holdings * percent).tdiv 100

def sellAmount (cfg : SellConfig) (holdings : ℤ) (curve : CurveState) : Except Thrown ℤ :=
  match cfg.amountUi with
  | some amountUi => toBaseUnits env.numberText amountUi curve.tokenDecimals
  | none => shareOf cfg holdings

def sellWarnings (curve : CurveState) : List String :=
  if curve.fallbackFee then ["fee tier could not be read on-chain; a fallback rate was used"] else []

def sellOnCurve (ownerWallet : String) (cfg : SellConfig) (holdings : ℤ) (curve : CurveState) :
    Except Thrown BuiltIntent := do
  let slippageBps := cfg.slippageBps.getD DEFAULT_CURVE_SLIPPAGE_BPS
  let tokenAmount ← sellAmount env cfg holdings curve
  refuse (tokenAmount ≤ 0) .spendCap "nothing to sell — wallet holds none of this token"
  refuse (tokenAmount > holdings) .spendCap s!"wallet holds {holdings} base units, cannot sell {tokenAmount}"
  throwRefusal (guardCurveSell env.numberText env.guards ⟨cfg.mint,tokenAmount,curve.tokenDecimals⟩ slippageBps curve.complete)
  let quote ← quoteSell curve.toCurveReserves tokenAmount curve.feeBps slippageBps
  let latest ← env.getLatestBlockhash
  let ctxIx ← ixContext env.toCurveEnv curve ownerWallet (curve.virtualSolReserves.tmod 7).natAbs
  let payer ← env.web3.publicKey ownerWallet
  let sell ← buildSellInstruction env.web3 ctxIx tokenAmount quote.minSolOutputLamports
  let built ← buildUnsignedTx env.web3 payer [sell] latest.blockhash
    (env.priorityFeeLamports.getD DEFAULT_PRIORITY_FEE_LAMPORTS)
  let intent ← toTradeIntent env.json {
    kind := .curveSell
    source := "pumpfun_sell"
    input := ⟨cfg.mint,tokenAmount,curve.tokenDecimals⟩
    outputMint := WSOL_MINT
    inputProvenance := some .untrusted
    outputProvenance := some .user
    unsignedTxBase64 := built.unsignedTxBase64
    recentBlockhash := built.recentBlockhash
    lastValidBlockHeight := latest.lastValidBlockHeight
    priorityFeeLamports := built.priorityFeeLamports
    summary := env.sellSummary curve quote
    expectedOut := quote.netSolLamports
    minOut := quote.minSolOutputLamports
    slippageBps := wholeBps slippageBps }
  return ⟨intent,⟨.curveSell,some curve.curveAddress,none,sellWarnings curve⟩⟩

def sellDelegation (cfg : SellConfig) (holdings : ℤ) (curve : Option CurveState) (reason : String) :
    Except Thrown DelegationPayload :=
  match cfg.amountUi with
  | some amountUi => .ok ⟨reason,cfg.mint,WSOL_MINT,amountUi,cfg.slippageBps⟩
  | none => do
    let share ← shareOf cfg holdings
    return ⟨reason,cfg.mint,WSOL_MINT,fromBaseUnits share ((curve.map (·.tokenDecimals)).getD 6),cfg.slippageBps⟩

def buildCurveSell (ownerWallet : String) (cfg : SellConfig) : Except Thrown (BuiltIntent ⊕ DelegationPayload) := do
  let (curve,route) ← loadCurve env.toCurveEnv cfg.mint
  let holdings := (env.getTokenBalance ownerWallet cfg.mint).getD 0
  match curve with
  | none => do
    let payload ← sellDelegation cfg holdings none route.reason
    return .inr payload
  | some curve =>
    if route.route = .jupiter then do
      let payload ← sellDelegation cfg holdings (some curve) route.reason
      return .inr payload
    else do
      throwRefusal route.refusal
      let built ← sellOnCurve env ownerWallet cfg holdings curve
      return .inl built

end Sell

theorem toTradeIntent_leg {json : IntentDraft → Text} {d : IntentDraft} {intent : TradeIntent}
    (ok : toTradeIntent json d = .ok intent) : intent.kind = d.kind ∧ 0 < d.input.amount := by
  simp only [toTradeIntent,refuse,bind_eq_ok,reject_eq_ok,pure_eq_ok] at ok
  obtain ⟨_,positive,_,_,_,_,_,_,rfl⟩ := ok
  exact ⟨rfl,not_le.mp positive⟩

structure Sale (cfg : SellConfig) (intent : TradeIntent) : Prop where
  kind : intent.kind = .curveSell
  inputMint : intent.inputMint = cfg.mint
  positive : 0 < intent.inputAmount
  outputMint : intent.outputMint = WSOL_MINT

theorem buildCurveSell_ok {env : SellEnv} {ownerWallet : String} {cfg : SellConfig} {built : BuiltIntent}
    (ok : buildCurveSell env ownerWallet cfg = .ok (.inl built)) : Sale cfg built.intent := by
  obtain ⟨⟨curve,route⟩,-,ok⟩ := bind_eq_ok.mp ok
  cases curve with
  | none =>
    obtain ⟨payload,-,ok⟩ := bind_eq_ok.mp ok
    cases pure_eq_ok.mp ok
  | some curve =>
    dsimp only at ok
    split_ifs at ok
    · obtain ⟨payload,-,ok⟩ := bind_eq_ok.mp ok
      cases pure_eq_ok.mp ok
    · simp only [sellOnCurve,bind_eq_ok,pure_eq_ok,Sum.inl.injEq] at ok
      obtain ⟨_,-,_,⟨amount,-,_,-,_,-,_,-,quote,-,latest,-,ctxIx,-,payer,-,sell,-,tx,-,intent,made,rfl⟩,rfl⟩ := ok
      obtain ⟨-,inputMint,inputAmount,outputMint,-⟩ := toTradeIntent_ok made
      obtain ⟨kind,positive⟩ := toTradeIntent_leg made
      exact ⟨kind,inputMint,inputAmount.symm ▸ positive,outputMint⟩

end RatifyOs.Pools
