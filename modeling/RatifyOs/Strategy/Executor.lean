import RatifyOs.Async.Crash
import RatifyOs.Kernel.Idempotency
import RatifyOs.Strategy.Runner

/-! `gatewayExecutor`: how a planned swap becomes an intent of the kernel, over what the gateway
has claimed and what has landed. -/
namespace RatifyOs.Strategy
open Async Data
open Kernel (TradeIntent ExecuteResult MintProvenance)
open Async.Program hiding pure throw

def STRATEGY_SOURCE : String := "strategy_runner"

def SOL_DECIMALS : ℕ := 9

def USDC_MINT : String := "EPjFWdd5AufqSSqeM2qN1xzybapC8G4wEGGkZwyTDt1v"

def USDT_MINT : String := "Es9vMFrzaCERmJfrF4H2FYD4KCoNkY11McCe8BenwNYB"

def QUOTE_MINTS : List String := [WSOL_MINT,USDC_MINT,USDT_MINT]

structure JupiterQuote where
  outAmount : ℤ
  otherAmountThreshold : ℤ
  slippageBps : ℤ

structure JupiterBuild where
  swapTransactionB64 : String
  lastValidBlockHeight : ℕ
  prioritizationFeeLamports : Option ℚ

/-- `numberText` is `String(x)`, and `stringify` the JSON text of the intent. -/
structure GatewayExecutorDeps where
  pinnedMints : Option (List String)
  defaultSlippageBps : Option ℕ
  numberText : Double → String
  stringify : StrategySwap → JupiterQuote → JupiterBuild → Text

inductive Act where
  | runner (op : Op)
  | getMintInfo (mint : String)
  | quote (inputMint outputMint : String) (amount : ℤ) (slippageBps : ℕ)
  | buildSwap (quote : JupiterQuote)
  | execute (intent : TradeIntent) (idempotencyKey : RunKey)

abbrev Act.Ans : Act → Type
  | runner op => op.Ans
  | getMintInfo _ => ℕ
  | quote _ _ _ _ => JupiterQuote
  | buildSwap _ => JupiterBuild
  | execute _ _ => ExecuteResult

abbrev Executor := Program Act Act.Ans String

section Swap
variable (deps : GatewayExecutorDeps)

/-- `toBaseUnits` of a number that `toFixed` writes without an exponent. -/
def toBaseUnits (amount : Double) (decimals : ℕ) : Except String ℤ :=
  match amount with
  | .finite q =>
    if 0 ≤ q ∧ q < 10 ^ 21 then .ok ⌊q * 10 ^ decimals + 1 / 2⌋ else .error invalid
  | _ => .error invalid
where
  invalid : String := s!"invalid amount for {decimals} decimals: {deps.numberText amount}"

def provenanceFor (mint : String) : MintProvenance :=
  if mint ∈ QUOTE_MINTS then .user
  else if mint ∈ deps.pinnedMints.getD [] then .user
  else .untrusted

def decimalsFor (mint : String) : Executor ℕ :=
  if mint = WSOL_MINT then return SOL_DECIMALS else call (Act.getMintInfo mint)

def short (mint : String) : String :=
  if 10 < mint.length then s!"{mint.take 4}…{mint.drop (mint.length - 4)}" else mint

def SwapKind.text : SwapKind → String
  | buy => "buy"
  | sell => "sell"
  | swap => "swap"

def buildIntent (req : StrategySwap) : Executor TradeIntent := do
  reject (!req.amountUi.isFinite ∨ req.amountUi ≤ 0)
    s!"{STRATEGY_SOURCE}: input leg must be positive (got {deps.numberText req.amountUi})"
  let inputDecimals ← decimalsFor req.inputMint
  let amount ← Program.ofExcept (toBaseUnits deps req.amountUi inputDecimals)
  reject (amount ≤ 0)
    s!"{STRATEGY_SOURCE}: {deps.numberText req.amountUi} rounds to zero base units of {req.inputMint}"
  let slippageBps := (req.slippageBps.orElse fun _ => deps.defaultSlippageBps).getD 100
  let quote ← call (Act.quote req.inputMint req.outputMint amount slippageBps)
  let build ← call (Act.buildSwap quote)
  let _ ← decimalsFor req.outputMint
  return {
    kind := .swap
    source := STRATEGY_SOURCE
    inputMint := req.inputMint
    inputAmount := amount
    outputMint := req.outputMint
    inputProvenance := provenanceFor deps req.inputMint
    outputProvenance := provenanceFor deps req.outputMint
    unsignedTxBase64 := build.swapTransactionB64
    lastValidBlockHeight := build.lastValidBlockHeight
    landMode := .selfRpc
    landHandle := none
    priorityFeeLamports := build.prioritizationFeeLamports
    quote := ⟨quote.outAmount,quote.otherAmountThreshold,quote.slippageBps⟩
    perp := none
    summary := s!"{req.kind.text} {deps.numberText req.amountUi} of {short req.inputMint} → {short req.outputMint} (autonomous strategy)"
    json := deps.stringify req quote build }

def reported (result : ExecuteResult) : StrategySwapResult :=
  match result.error with
  | some (code,message) => ⟨false,s!"{code} — {message}",none⟩
  | none => ⟨result.state = .confirmed ∨ result.simulated,result.summary,result.signature⟩

/-- It never throws: the runner counts what it reports. -/
def swap (req : StrategySwap) (idempotencyKey : RunKey) : Executor StrategySwapResult :=
  tryCatch (do
    let intent ← buildIntent deps req
    let result ← call (Act.execute intent idempotencyKey)
    return reported result) fun e => return ⟨false,e,none⟩

def acts : (op : Op) → Executor op.Ans
  | .swap req idem => swap deps req idem
  | op => call (Act.runner op)

end Swap

/-- A swap that has landed. -/
structure Landed where
  key : RunKey
  inputAmount : ℤ

/-- `claims` is the kernel's table of keys. `owed` is the strategy whose landed swap its row
does not tell of yet. -/
structure World where
  runner : State
  claims : List String
  landed : List Landed
  owed : Option String

/-- What the environment decides about an effect: also whether a transaction lands, whatever
`execute` then answers, and what the kernel's row of a claimed key says. -/
structure Luck where
  sample : Sample
  decimals : Except String ℕ
  quote : Except String JupiterQuote
  build : Except String JupiterBuild
  execute : Except String ExecuteResult
  lands : Bool
  prior : String × Kernel.TradeState × Option String

/-- What `#live` answers on a key that is taken. -/
def duplicate (prior : String × Kernel.TradeState × Option String) : ExecuteResult where
  tradeId := prior.1
  state := prior.2.1
  signature := prior.2.2
  summary := "duplicate request — this idempotency key was already used"
  error := some ("DUPLICATE_INTENT","idempotency key already used")

theorem reported_duplicate (d : Kernel.Deployment) (intent : TradeIntent) (o : Kernel.ExecuteOptions) (k : String) :
    (Kernel.live d intent o).wp (Kernel.Idempotency.without o k)
      (fun result h => h.any (Kernel.Idempotency.refused k) → ∀ prior, reported result = reported (duplicate prior))
      (fun _ h => h.any (Kernel.Idempotency.refused k) →
        ∃ error, ⟨.getTradeByIdempotency o.idempotencyKey,.error error⟩ ∈ h) [] := by
  apply wp_mono _ Kernel.Idempotency.live_refused
  · intro result h answered lost prior
    have same := answered lost
    unfold Kernel.Idempotency.isDuplicate at same
    simp only [reported,same,duplicate,Kernel.GuardCode.text]
  · exact fun _ _ lost => lost

def settledBy (op : Op) (answer : Except String op.Ans) (owed : Option String) : Option String :=
  match op, answer with
  | .save row, .ok _ => if owed = some row.id then none else owed
  | _, _ => owed

def act (luck : Luck) : (op : Act) → World → Except String op.Ans × World
  | .runner op, w =>
    let result := handle luck.sample op w.runner
    (result.1,{ w with runner := result.2, owed := settledBy op result.1 w.owed })
  | .getMintInfo _, w => (luck.decimals,w)
  | .quote _ _ _ _, w => (luck.quote,w)
  | .buildSwap _, w => (luck.build,w)
  | .execute intent key, w =>
    if key.text ∈ w.claims then (.ok (duplicate luck.prior),w)
    else
      let claimed := { w with claims := key.text :: w.claims }
      (luck.execute,if luck.lands then
        { claimed with landed := ⟨key,intent.inputAmount⟩ :: w.landed, owed := some key.strategy } else claimed)

/-- One `tick` of the runner over the gateway. -/
def spree (deps : GatewayExecutorDeps) (e : StrategyExecutor) : Executor Unit := (tick e).inline (acts deps)

def restarted (w : World) : World := { w with runner := { w.runner with running := false } }

end RatifyOs.Strategy
