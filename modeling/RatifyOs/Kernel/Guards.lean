import Mathlib.Algebra.Order.Floor.Ring
import Mathlib.Data.Rat.Floor
import RatifyOs.Kernel.Store

/-! Intents, the policy, and the guards that need no network. -/
namespace RatifyOs.Kernel
open Data

inductive GuardCode where
  | executionDisabled
  | killSwitch
  | invalidIntent
  | mintNotPinned
  | mintDenied
  | token2022Unsupported
  | capExceeded
  | insufficientBalance
  | slippageExceeded
  | priorityFeeExceeded
  | priorityFeeInvalid
  | simulationFailed
  | minOutMismatch
  | duplicateIntent
  | broadcastFailed
  | confirmTimeout
  | settleShortfall
  | settleUnverifiable
  | settleUnverified
  deriving DecidableEq

def GuardCode.text : GuardCode → String
  | executionDisabled => "EXECUTION_DISABLED"
  | killSwitch => "KILL_SWITCH"
  | invalidIntent => "INVALID_INTENT"
  | mintNotPinned => "MINT_NOT_PINNED"
  | mintDenied => "MINT_DENIED"
  | token2022Unsupported => "TOKEN2022_UNSUPPORTED"
  | capExceeded => "CAP_EXCEEDED"
  | insufficientBalance => "INSUFFICIENT_BALANCE"
  | slippageExceeded => "SLIPPAGE_EXCEEDED"
  | priorityFeeExceeded => "PRIORITY_FEE_EXCEEDED"
  | priorityFeeInvalid => "PRIORITY_FEE_INVALID"
  | simulationFailed => "SIMULATION_FAILED"
  | minOutMismatch => "MIN_OUT_MISMATCH"
  | duplicateIntent => "DUPLICATE_INTENT"
  | broadcastFailed => "BROADCAST_FAILED"
  | confirmTimeout => "CONFIRM_TIMEOUT"
  | settleShortfall => "SETTLE_SHORTFALL"
  | settleUnverifiable => "SETTLE_UNVERIFIABLE"
  | settleUnverified => "SETTLE_UNVERIFIED"

/-- What is thrown: a `GuardError`, or anything else with its text. -/
inductive Failure where
  | guard (code : GuardCode) (message : String) (details : List (String × String))
  | other (message : String)
  deriving DecidableEq

namespace Failure

def message : Failure → String
  | guard _ message _ => message
  | other message => message

/-- The code, or the one given for what is no `GuardError`. -/
def codeOr (fallback : String) : Failure → String
  | guard code _ _ => code.text
  | other _ => fallback

end Failure

inductive IntentKind where
  | swap
  | perpOpen
  | perpIncrease
  | perpReduce
  | perpClose
  | lpOpen
  | lpAdd
  | lpRemove
  | lpClose
  | lpClaim
  | lpRebalance
  | curveBuy
  | curveSell
  /-- A name that is none of `INTENT_KINDS`. -/
  | unsupported (name : String)
  deriving DecidableEq

namespace IntentKind

def text : IntentKind → String
  | swap => "swap"
  | perpOpen => "perp_open"
  | perpIncrease => "perp_increase"
  | perpReduce => "perp_reduce"
  | perpClose => "perp_close"
  | lpOpen => "lp_open"
  | lpAdd => "lp_add"
  | lpRemove => "lp_remove"
  | lpClose => "lp_close"
  | lpClaim => "lp_claim"
  | lpRebalance => "lp_rebalance"
  | curveBuy => "curve_buy"
  | curveSell => "curve_sell"
  | unsupported name => name

def isIntentKind : IntentKind → Bool
  | unsupported _ => false
  | _ => true

def isPerpIntentKind : IntentKind → Bool
  | perpOpen | perpIncrease | perpReduce | perpClose => true
  | _ => false

def postsZeroCollateral : IntentKind → Bool
  | perpReduce | perpClose => true
  | _ => false

end IntentKind

inductive SettleMode where
  | tokenDelta
  | venuePosition
  deriving DecidableEq

def settleModeFor (kind : IntentKind) : SettleMode :=
  if kind.isPerpIntentKind then .venuePosition else .tokenDelta

inductive LandMode where
  | jupiterUltra
  | selfRpc
  deriving DecidableEq

def LandMode.text : LandMode → String
  | jupiterUltra => "jupiter-ultra"
  | selfRpc => "self-rpc"

inductive MintProvenance where
  | user
  | watchlist
  | untrusted
  deriving DecidableEq

structure PolicyConfig where
  executionEnabled : Bool
  killSwitch : Bool
  maxSlippageBps : ℤ
  capsSol : SpendCaps
  capsUsdc : SpendCaps
  mintAllowlist : Option (List String)
  mintDenylist : List String
  allowToken2022 : Bool
  priorityFeeMaxLamports : ℤ
  priorityFeeMaxBps : ℤ

structure QuoteSummary where
  outAmount : ℤ
  minOutAmount : ℤ
  slippageBps : ℤ

inductive Side where
  | long
  | short
  deriving DecidableEq

structure PerpSettleLeg where
  venue : String
  market : String
  accountSubId : ℤ
  side : Side
  expectedBaseAmount : ℤ
  minBaseAmount : ℤ

structure TradeIntent where
  kind : IntentKind
  source : String
  inputMint : String
  inputAmount : ℤ
  outputMint : String
  inputProvenance : MintProvenance
  outputProvenance : MintProvenance
  unsignedTxBase64 : String
  lastValidBlockHeight : ℕ
  landMode : LandMode
  landHandle : Option String
  /-- `none` is a number that is not finite. -/
  priorityFeeLamports : Option ℚ
  quote : QuoteSummary
  perp : Option PerpSettleLeg
  summary : String
  /-- `JSON.stringify(intent, bigintReplacer)` -/
  json : Text

def solQuoteMints : List String := ["So11111111111111111111111111111111111111112"]

def usdcQuoteMints : List String :=
  ["EPjFWdd5AufqSSqeM2qN1xzybapC8G4wEGGkZwyTDt1v","Es9vMFrzaCERmJfrF4H2FYD4KCoNkY11McCe8BenwNYB"]

def quoteBucketFor (mint : String) : Option QuoteBucket :=
  if mint ∈ solQuoteMints then some .sol
  else if mint ∈ usdcQuoteMints then some .usdc
  else none

/-- A division of `bigint`s drops what is behind the point. -/
def slippageBps (expected actual : ℤ) : ℤ :=
  if expected ≤ 0 then 0 else ((expected - actual) * 10000).tdiv expected

def minOutToleranceBps : ℤ := 50

structure GuardOptions where
  dryRun : Bool
  confirmedByUser : Bool

/-- `if (c) throw new GuardError(…)` -/
def refuse (c : Prop) [Decidable c] (code : GuardCode) (message : String) : Except Failure Unit :=
  if c then .error (.guard code message []) else .ok ()

theorem refuse_eq_ok {c : Prop} [Decidable c] {code : GuardCode} {message : String} {u : Unit} :
    refuse c code message = .ok u ↔ ¬c := by
  unfold refuse
  split <;> simp_all

def collateralGuard (intent : TradeIntent) : Except Failure Unit :=
  if intent.kind.postsZeroCollateral then
    refuse (intent.inputAmount < 0) .invalidIntent "input amount must not be negative"
  else refuse (intent.inputAmount ≤ 0) .invalidIntent "input amount must be positive"

def perpGuard (intent : TradeIntent) : Except Failure Unit :=
  if intent.kind.isPerpIntentKind then
    match intent.perp with
    | none => .error (.guard .invalidIntent s!"intent kind {intent.kind.text} is missing its perp leg" [])
    | some perp => do
      refuse (perp.minBaseAmount > perp.expectedBaseAmount) .invalidIntent
        "perp minimum base size exceeds the expected size"
      refuse (perp.expectedBaseAmount ≤ 0) .invalidIntent "perp expected base size must be positive"
  else refuse intent.perp.isSome .invalidIntent s!"intent kind {intent.kind.text} must not carry a perp leg"

def feeGuard (policy : PolicyConfig) (intent : TradeIntent) : Except Failure Unit := do
  let fee ← match intent.priorityFeeLamports with
    | some fee => if fee < 0 then .error (.guard .priorityFeeInvalid invalid []) else .ok fee
    | none => .error (.guard .priorityFeeInvalid invalid [])
  let feeLamports := ⌊fee⌋
  refuse (feeLamports > policy.priorityFeeMaxLamports) .priorityFeeExceeded
    s!"priority fee {feeLamports} lamports exceeds the {policy.priorityFeeMaxLamports} lamport ceiling"
  if (quoteBucketFor intent.inputMint).isSome ∧ intent.inputAmount > 0 then
    let bpsCeiling := (intent.inputAmount * policy.priorityFeeMaxBps).tdiv 10000
    refuse (feeLamports > bpsCeiling) .priorityFeeExceeded
      s!"priority fee {feeLamports} lamports exceeds {policy.priorityFeeMaxBps}bps of notional ({bpsCeiling})"
  else .ok ()
where
  invalid : String := "priority fee must be a finite, non-negative lamport amount"

def mintGuard (policy : PolicyConfig) : List String → Except Failure Unit
  | [] => .ok ()
  | mint :: mints => do
    refuse (mint ∈ policy.mintDenylist) .mintDenied s!"mint {mint} is on the denylist"
    refuse (∃ allowed ∈ policy.mintAllowlist, mint ∉ allowed) .mintDenied s!"mint {mint} is not on the allowlist"
    mintGuard policy mints

def staticGuards (policy : PolicyConfig) (intent : TradeIntent) (opts : GuardOptions) : Except Failure Unit := do
  refuse policy.killSwitch .killSwitch "kill switch is engaged — all trading is halted"
  refuse (¬opts.dryRun ∧ ¬policy.executionEnabled) .executionDisabled
    "execution is disabled — the kernel is in dry-run; arm it before trading"
  refuse (¬intent.kind.isIntentKind) .invalidIntent s!"unsupported intent kind: {intent.kind.text}"
  collateralGuard intent
  perpGuard intent
  refuse (intent.unsignedTxBase64 = "") .invalidIntent "intent is missing its built transaction"
  refuse ((intent.inputProvenance = .untrusted ∨ intent.outputProvenance = .untrusted) ∧ ¬opts.confirmedByUser)
    .mintNotPinned "a mint in this trade is not pinned by you — explicit confirmation required"
  feeGuard policy intent
  refuse (intent.quote.slippageBps > policy.maxSlippageBps) .slippageExceeded
    s!"slippage {intent.quote.slippageBps}bps exceeds max {policy.maxSlippageBps}bps"
  let impliedBps := slippageBps intent.quote.outAmount intent.quote.minOutAmount
  refuse (impliedBps > policy.maxSlippageBps + minOutToleranceBps) .minOutMismatch
    s!"route min-out implies {impliedBps}bps slippage, above the clamp"
  mintGuard policy [intent.inputMint,intent.outputMint]

end RatifyOs.Kernel
