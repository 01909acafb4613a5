import RatifyOs.Execution.Canonical
import RatifyOs.Execution.Ledger

/-! `TradingControl`: a trade is checked against a signed policy and against what the
ledger counts at the moment of the request. -/
namespace RatifyOs.Execution
open Data

structure PolicyAllow where
  chains : List ℤ
  accounts : List String
  tokens : List String
  routers : List String
  targets : List String
  selectors : List String
  recipients : List String

structure PolicyLimits where
  perTrade : ℤ
  assetHourly : ℤ
  assetDaily : ℤ
  strategyHourly : ℤ
  strategyDaily : ℤ
  totalExposure : ℤ
  assetExposure : ℤ
  concentrationBps : ℤ
  drawdown : ℤ
  totalLoss : ℤ

structure PolicyMarket where
  maxQuoteAge : ℤ
  maxSlippageBps : ℤ
  maxImpactBps : ℤ
  maxGas : ℤ
  maxFees : ℤ
  minLiquidity : ℤ
  maxTaxBps : ℤ
  allowProxy : Bool
  maxOracleAge : ℤ
  requireSequencerUp : Bool

structure PolicyDocument where
  version : String
  effectiveAt : ℤ
  expiresAt : ℤ
  allow : PolicyAllow
  limits : PolicyLimits
  market : PolicyMarket
  approvalClass : String
  deadManAfter : ℤ
  globalKill : Bool
  strategyKills : List String

structure SignedPolicyReference where
  policyHash : String
  signature : String
  keyId : Option String

structure TradeRequest where
  id : String
  now : ℤ
  chain : ℤ
  account : String
  tokenIn : String
  tokenOut : String
  router : String
  target : String
  selector : String
  recipient : String
  strategy : String
  amount : ℤ
  approvalAmount : ℤ
  quoteAt : ℤ
  slippageBps : ℤ
  impactBps : ℤ
  gas : ℤ
  fees : ℤ
  liquidity : ℤ
  taxBps : ℤ
  isProxy : Bool
  oracleAt : ℤ
  sequencerUp : Bool
  portfolioExposure : ℤ
  assetExposure : ℤ
  portfolioValue : ℤ
  peakValue : ℤ
  realizedLoss : ℤ
  unrealizedLoss : ℤ
  lastHeartbeat : ℤ

namespace PolicyDocument

private def bigint (n : ℤ) : Json := .obj [("$bigint",.str (toString n))]

/-- The document as `canonical` sees it, a bigint being an object of its own. -/
def json (p : PolicyDocument) : Json := .obj [
  ("version",.str p.version),("effectiveAt",bigint p.effectiveAt),("expiresAt",bigint p.expiresAt),
  ("allow",.obj [("chains",.arr (p.allow.chains.map bigint)),("accounts",.strings p.allow.accounts),
    ("tokens",.strings p.allow.tokens),("routers",.strings p.allow.routers),("targets",.strings p.allow.targets),
    ("selectors",.strings p.allow.selectors),("recipients",.strings p.allow.recipients)]),
  ("limits",.obj [("perTrade",bigint p.limits.perTrade),("assetHourly",bigint p.limits.assetHourly),
    ("assetDaily",bigint p.limits.assetDaily),("strategyHourly",bigint p.limits.strategyHourly),
    ("strategyDaily",bigint p.limits.strategyDaily),("totalExposure",bigint p.limits.totalExposure),
    ("assetExposure",bigint p.limits.assetExposure),("concentrationBps",bigint p.limits.concentrationBps),
    ("drawdown",bigint p.limits.drawdown),("totalLoss",bigint p.limits.totalLoss)]),
  ("market",.obj [("maxQuoteAge",bigint p.market.maxQuoteAge),("maxSlippageBps",bigint p.market.maxSlippageBps),
    ("maxImpactBps",bigint p.market.maxImpactBps),("maxGas",bigint p.market.maxGas),
    ("maxFees",bigint p.market.maxFees),("minLiquidity",bigint p.market.minLiquidity),
    ("maxTaxBps",bigint p.market.maxTaxBps),("allowProxy",.bool p.market.allowProxy),
    ("maxOracleAge",bigint p.market.maxOracleAge),("requireSequencerUp",.bool p.market.requireSequencerUp)]),
  ("approvalClass",.str p.approvalClass),("deadManAfter",bigint p.deadManAfter),
  ("globalKill",.bool p.globalKill),("strategyKills",.strings p.strategyKills)]

private def allowlist {α : Type} [DecidableEq α] (xs : List α) (blank : α → Bool) : Bool :=
  xs ≠ [] ∧ xs.Nodup ∧ ¬xs.any blank

def numbers (p : PolicyDocument) : List ℤ :=
  [p.limits.perTrade,p.limits.assetHourly,p.limits.assetDaily,p.limits.strategyHourly,p.limits.strategyDaily,
    p.limits.totalExposure,p.limits.assetExposure,p.limits.concentrationBps,p.limits.drawdown,p.limits.totalLoss,
    p.market.maxQuoteAge,p.market.maxSlippageBps,p.market.maxImpactBps,p.market.maxGas,p.market.maxFees,
    p.market.minLiquidity,p.market.maxTaxBps,p.market.maxOracleAge,p.deadManAfter]

/-- `validatePolicy` does not throw. -/
def validatePolicy (p : PolicyDocument) : Bool :=
  p.version = "1" ∧ 0 ≤ p.effectiveAt ∧ p.effectiveAt < p.expiresAt ∧
    allowlist p.allow.chains (fun _ => false) ∧
    (∀ xs ∈ [p.allow.accounts,p.allow.tokens,p.allow.routers,p.allow.targets,p.allow.selectors,p.allow.recipients],
      allowlist xs (· = "")) ∧
    (∀ n ∈ p.numbers, 0 ≤ n) ∧ p.limits.concentrationBps ≤ 10000 ∧ p.market.maxSlippageBps ≤ 10000 ∧
    p.market.maxImpactBps ≤ 10000 ∧ p.market.maxTaxBps ≤ 10000

theorem numbers_nonneg {p : PolicyDocument} (valid : p.validatePolicy) : ∀ n ∈ p.numbers, 0 ≤ n := by
  unfold validatePolicy at valid
  exact (of_decide_eq_true valid).2.2.2.2.2.1

def canonicalPolicy (p : PolicyDocument) : Text := "TRADING_POLICY_V1:".toList ++ canonicalSerialize p.json

end PolicyDocument

/-- The constructor throws on any other policy. -/
structure TradingControl where
  p : PolicyDocument
  ref : SignedPolicyReference
  valid : p.validatePolicy
  verify : SignedPolicyReference → String → Bool
  sha256 : Text → String

namespace TradingControl

structure Decision where
  allowed : Bool
  reasons : List String
  reservationId : Option String
  deriving DecidableEq

variable (c : TradingControl)

def signed : Bool :=
  let h := c.sha256 c.p.canonicalPolicy
  h = c.ref.policyHash ∧ c.verify c.ref h

/-- The entries that have not run out, all of them or those of one asset. -/
def held (l : ReservationLedger) (p : LedgerRow → Bool) : ℤ := ((l.rows.select p).map (·.amount)).sum

def bad (x : Bool) (s : String) : List String := if x then [s] else []

@[simp] theorem bad_eq_nil {x : Bool} {s : String} : bad x s = [] ↔ x = false := by
  cases x <;> simp [bad]

/-- The reasons against a trade in the order of the checks; `l` is the ledger after the purge. -/
def reasons (t : TradeRequest) (l : ReservationLedger) : List String :=
  let p := c.p
  let asset := held l (·.asset = t.tokenIn)
  let total := held l fun _ => true
  let u := fun w f => l.usage t.now w f + t.amount
  [bad (!c.signed) "policy_signature_invalid",
    bad ([t.now,t.chain,t.amount,t.approvalAmount,t.quoteAt,t.slippageBps,t.impactBps,t.gas,t.fees,t.liquidity,t.taxBps,
      t.oracleAt,t.portfolioExposure,t.assetExposure,t.portfolioValue,t.peakValue,t.realizedLoss,t.unrealizedLoss,
      t.lastHeartbeat].any (· < 0) || t.amount = 0) "invalid_numeric_input",
    bad (t.amount ≤ 0) "invalid_amount",
    bad (t.quoteAt > t.now) "quote_future",
    bad (t.oracleAt > t.now) "oracle_future",
    bad (t.lastHeartbeat > t.now) "heartbeat_future",
    bad (t.now < p.effectiveAt || t.now ≥ p.expiresAt) "policy_inactive",
    bad p.globalKill "global_kill_switch",
    bad (p.strategyKills.contains t.strategy) "strategy_kill_switch",
    bad (!p.allow.chains.contains t.chain) "chain_not_allowed",
    bad (!p.allow.accounts.contains t.account) "account_not_allowed",
    bad (!(p.allow.tokens.contains t.tokenIn && p.allow.tokens.contains t.tokenOut)) "token_not_allowed",
    bad (!p.allow.routers.contains t.router) "router_not_allowed",
    bad (!p.allow.targets.contains t.target) "target_not_allowed",
    bad (!p.allow.selectors.contains t.selector) "selector_not_allowed",
    bad (!p.allow.recipients.contains t.recipient) "recipient_not_allowed",
    bad (t.approvalAmount ≠ t.amount) "approval_not_exact",
    bad (t.amount > p.limits.perTrade) "per_trade_limit_exceeded",
    bad (t.now - t.quoteAt > p.market.maxQuoteAge) "quote_stale",
    bad (t.slippageBps > p.market.maxSlippageBps) "slippage_exceeded",
    bad (t.impactBps > p.market.maxImpactBps) "impact_exceeded",
    bad (t.gas > p.market.maxGas) "gas_exceeded",
    bad (t.fees > p.market.maxFees) "fees_exceeded",
    bad (t.liquidity < p.market.minLiquidity) "liquidity_too_low",
    bad (t.taxBps > p.market.maxTaxBps) "tax_exceeded",
    bad (t.isProxy && !p.market.allowProxy) "proxy_forbidden",
    bad (t.now - t.oracleAt > p.market.maxOracleAge) "oracle_stale",
    bad (p.market.requireSequencerUp && !t.sequencerUp) "sequencer_down",
    bad (t.portfolioExposure + total + t.amount > p.limits.totalExposure) "total_exposure_exceeded",
    bad (t.assetExposure + asset + t.amount > p.limits.assetExposure) "asset_exposure_exceeded",
    bad (t.portfolioValue ≤ 0 ||
      (t.assetExposure + asset + t.amount) * 10000 > p.limits.concentrationBps * t.portfolioValue) "concentration_exceeded",
    bad (t.peakValue > t.portfolioValue && t.peakValue - t.portfolioValue > p.limits.drawdown) "drawdown_exceeded",
    bad (t.realizedLoss + t.unrealizedLoss > p.limits.totalLoss) "loss_exceeded",
    bad (t.now - t.lastHeartbeat > p.deadManAfter) "dead_man_switch",
    bad (u 3600 (·.asset = t.tokenIn) > p.limits.assetHourly) "asset_hourly_limit_exceeded",
    bad (u 86400 (·.asset = t.tokenIn) > p.limits.assetDaily) "asset_daily_limit_exceeded",
    bad (u 3600 (·.strategy = t.strategy) > p.limits.strategyHourly) "strategy_hourly_limit_exceeded",
    bad (u 86400 (·.strategy = t.strategy) > p.limits.strategyDaily) "strategy_daily_limit_exceeded",
    bad (l.has t.id) "duplicate_trade_id"].flatten

/-- `evaluate`, in a transaction of its own; the purge stays whatever the decision. -/
def reserve (t : TradeRequest) (ledger : ReservationLedger) : Decision × ReservationLedger :=
  let l := ledger.expire t.now
  let r := c.reasons t l
  if r ≠ [] then (⟨false,r,none⟩,l)
  else
    let x := l.reserve ⟨t.id,t.now,t.tokenIn,t.strategy,t.amount⟩
    (if x.1 then ⟨true,[],some t.id⟩ else ⟨false,["duplicate_trade_id"],none⟩,x.2)

end TradingControl

end RatifyOs.Execution
