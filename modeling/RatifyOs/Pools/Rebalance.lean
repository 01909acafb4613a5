import Mathlib.Algebra.Order.Field.Rat
import RatifyOs.Data.Run
import RatifyOs.Data.Table
import RatifyOs.Pools.Withdraw

/-! When a position is rebalanced: the ledger of past rebalances, the decision, and the calls of
`pools_rebalance` as they interleave with each other and with the chain. -/
namespace RatifyOs.Pools
open Data

/-! The ledger. Times are in milliseconds and exact. -/

def DAY_MS : ℚ := 86400000

structure RebalanceHistory where
  lastAt : Option ℚ
  countInWindow : ℕ

def EMPTY_HISTORY : RebalanceHistory := ⟨none,0⟩

structure RebalanceLedger where
  windowMs : ℚ
  byPosition : String → List ℚ

namespace RebalanceLedger

def new (windowMs : ℚ := DAY_MS) : RebalanceLedger := ⟨max 1 ⌊windowMs⌋,fun _ => []⟩

def set (ledger : RebalanceLedger) (positionAddress : String) (list : List ℚ) : RebalanceLedger :=
  { ledger with byPosition := fun address => if address = positionAddress then list else ledger.byPosition address }

def prune (ledger : RebalanceLedger) (list : List ℚ) (now : ℚ) : List ℚ :=
  list.dropWhile fun time => time < now - ledger.windowMs

def record (ledger : RebalanceLedger) (positionAddress : String) (time : ℚ) : RebalanceLedger :=
  ledger.set positionAddress (ledger.prune (ledger.byPosition positionAddress ++ [time]) time)

/-- A look into the history forgets what is behind the window. -/
def history (ledger : RebalanceLedger) (positionAddress : String) (now : ℚ) : RebalanceHistory × RebalanceLedger :=
  let list := ledger.prune (ledger.byPosition positionAddress) now
  (⟨list.max?,list.length⟩,ledger.set positionAddress list)

end RebalanceLedger

/-! The decision. -/

structure BinRange where
  lowerBinId : ℤ
  upperBinId : ℤ
  deriving DecidableEq

def MAX_BIN_PER_POSITION : ℕ := 70
def MAX_BIN_ID : ℤ := 351639
def MIN_BIN_ID : ℤ := -351639

def binSpan (lowerBinId upperBinId : ℤ) : ℤ := upperBinId - lowerBinId + 1

def isActiveInRange (range : BinRange) (activeBinId : ℤ) : Bool :=
  range.lowerBinId ≤ activeBinId ∧ activeBinId ≤ range.upperBinId

def binDrift (range : BinRange) (activeBinId : ℤ) : ℤ :=
  if range.upperBinId < activeBinId then activeBinId - range.upperBinId
  else if activeBinId < range.lowerBinId then activeBinId - range.lowerBinId
  else 0

def activePositionInRange (range : BinRange) (activeBinId : ℤ) : Option Double :=
  if isActiveInRange range activeBinId = false then none
  else
    let span := binSpan range.lowerBinId range.upperBinId
    if span ≤ 1 then some (.finite (1 / 2))
    else some ((activeBinId - range.lowerBinId : ℤ) / ((span - 1 : ℤ) : Double))

/-- The loop takes one bin at a time, from the wider side first; it makes fewer turns than
there are bins. -/
def shrink (cap : ℕ) : ℕ → ℕ → ℕ → ℕ × ℕ
  | 0, lo, hi => (lo,hi)
  | turns + 1, lo, hi =>
    if lo + hi + 1 > cap then
      if lo ≥ hi then shrink cap turns (lo - 1) hi else shrink cap turns lo (hi - 1)
    else (lo,hi)

/-- None where the function throws a `BinMathError`. -/
def rangeAroundActive (activeBinId below above : ℤ) : Option BinRange :=
  if activeBinId < MIN_BIN_ID ∨ MAX_BIN_ID < activeBinId ∨ below < 0 ∨ above < 0 then none
  else
    let (lo,hi) := shrink MAX_BIN_PER_POSITION (below.toNat + above.toNat) below.toNat above.toNat
    some ⟨max MIN_BIN_ID (activeBinId - lo),min MAX_BIN_ID (activeBinId + hi)⟩

structure RebalancePolicy where
  driftBins : ℚ
  edgeTriggerPct : Double
  minIntervalMs : ℚ
  maxPerDay : ℚ
  minNetBenefitQuote : ℤ
  targetBelowBins : ℤ
  targetAboveBins : ℤ

structure EconomicsBreakdown where
  projectedFeesQuote : ℤ
  cashCostQuote : ℤ
  divergenceCostQuote : ℤ
  netBenefitQuote : ℤ
  claimableFeesQuote : ℤ

inductive DecisionCode where
  | rebalanceOk
  | poolRangeInvalid
  | poolVenueError
  | rebalanceNotDrifted
  | rebalanceTooSoon
  | rebalanceDailyCap
  | rebalanceUneconomic
  deriving DecidableEq

inductive RebalanceOutcome where
  | rebalance
  | hold
  deriving DecidableEq

structure RebalanceDecision where
  action : RebalanceOutcome
  code : DecisionCode
  targetRange : Option BinRange
  currentRange : BinRange
  drift : ℤ
  rangeFraction : Option Double
  economics : Option EconomicsBreakdown

structure ActivePool extends PoolSummary where
  activeLevel : ℤ

/-- `economics` is what the inputs come to for a target range, where they are complete. -/
structure RebalanceSubject where
  position : LpPosition
  pool : ActivePool
  economics : BinRange → Option EconomicsBreakdown

/-- None where `rangeAroundActive` throws. -/
def decideRebalance (policy : RebalancePolicy) (s : RebalanceSubject) (history : RebalanceHistory) (now : ℚ) :
    Option RebalanceDecision :=
  let currentRange : BinRange := ⟨s.position.lowerLevel,s.position.upperLevel⟩
  let hold (code : DecisionCode) (drift : ℤ) (rangeFraction : Option Double)
      (economics : Option EconomicsBreakdown := none) : Option RebalanceDecision :=
    some ⟨.hold,code,none,currentRange,drift,rangeFraction,economics⟩
  if currentRange.upperBinId < currentRange.lowerBinId then hold .poolRangeInvalid 0 none
  else if s.position.poolAddress ≠ s.pool.address then hold .poolVenueError 0 none
  else
    let activeBinId := s.pool.activeLevel
    let drift := binDrift currentRange activeBinId
    let rangeFraction := activePositionInRange currentRange activeBinId
    let exited := policy.driftBins < |drift|
    let nearEdge := ∃ fraction ∈ rangeFraction, 0 < policy.edgeTriggerPct ∧
      1 < binSpan currentRange.lowerBinId currentRange.upperBinId ∧
      (fraction ≤ policy.edgeTriggerPct ∨ 1 - policy.edgeTriggerPct ≤ fraction)
    if ¬exited ∧ ¬nearEdge then hold .rebalanceNotDrifted drift rangeFraction
    else if ∃ lastAt ∈ history.lastAt, now - lastAt < policy.minIntervalMs then
      hold .rebalanceTooSoon drift rangeFraction
    else if policy.maxPerDay ≤ history.countInWindow then hold .rebalanceDailyCap drift rangeFraction
    else
      match rangeAroundActive activeBinId policy.targetBelowBins policy.targetAboveBins with
      | none => none
      | some targetRange =>
        if targetRange = currentRange then hold .rebalanceNotDrifted drift rangeFraction
        else
          match s.economics targetRange with
          | none => hold .rebalanceUneconomic drift rangeFraction
          | some econ =>
            if econ.netBenefitQuote ≤ 0 ∨ econ.netBenefitQuote < policy.minNetBenefitQuote then
              hold .rebalanceUneconomic drift rangeFraction (some econ)
            else some ⟨.rebalance,.rebalanceOk,some targetRange,currentRange,drift,rangeFraction,some econ⟩

/-- A decision to move has passed the interval and the daily cap. -/
theorem decideRebalance_rebalance {policy : RebalancePolicy} {s : RebalanceSubject} {history : RebalanceHistory}
    {now : ℚ} {d : RebalanceDecision} (decided : decideRebalance policy s history now = some d)
    (moves : d.action = .rebalance) :
    (∀ lastAt ∈ history.lastAt, policy.minIntervalMs ≤ now - lastAt) ∧ (history.countInWindow : ℚ) < policy.maxPerDay := by
  unfold decideRebalance at decided
  dsimp only at decided
  split_ifs at decided with malformed mismatch still soon capped
  all_goals try (cases decided; cases moves)
  refine ⟨fun lastAt found => ?_,not_le.mp capped⟩
  by_contra early
  exact soon ⟨lastAt,found,not_le.mp early⟩

/-! The calls of the tool. -/

/-- An exit that has been handed to the gateway: whether it is on chain, and whether the gateway
has answered. -/
structure Exiting where
  call : ℕ
  pool : String
  position : String
  landed : Bool := false
  answered : Bool := false
  deriving DecidableEq

/-- A rebalance that was executed. -/
structure Executed where
  pool : String
  position : String
  time : ℚ
  deriving DecidableEq

structure RebalanceConfig where
  poolAddress : String
  positionAddress : String
  dryRun : Bool

structure Answers where
  pool : ActivePool
  position : Option LpPosition
  economics : BinRange → Option EconomicsBreakdown

structure Desk where
  now : ℚ
  ledger : RebalanceLedger
  calls : Table Exiting.call
  /-- where the wallet's position in a pool is -/
  opened : String → Option String
  executed : List Executed

inductive Event where
  | tick (time : ℚ)
  /-- The wallet opens its position in a pool, at a position account. -/
  | opens (pool position : String)
  /-- The answers of the venue are there: the decision is taken, and an exit is handed over. -/
  | decides (call : ℕ) (cfg : RebalanceConfig) (answers : Answers)
  /-- The exit lands and closes the position. -/
  | lands (call : ℕ)
  /-- The gateway has answered; `failed` is `r.error && r.state !== "confirmed"`, or a throw
  on the way. -/
  | reports (call : ℕ) (failed : Bool)

section Machine
variable (policy : RebalancePolicy) (ownerWallet : String)

/-- `decide`, and the ledger that it leaves; the decision is none where it throws. -/
def decide_ (ledger : RebalanceLedger) (now : ℚ) (cfg : RebalanceConfig) (answers : Answers) :
    Option RebalanceDecision × RebalanceLedger :=
  match assertOwned answers.position ("position " ++ cfg.positionAddress ++ " not found") ownerWallet with
  | .error _ => (none,ledger)
  | .ok position =>
    let (history,ledger) := ledger.history cfg.positionAddress now
    (decideRebalance policy ⟨position,answers.pool,answers.economics⟩ history now,ledger)

namespace Desk

def step (s : Desk) : Event → Desk
  | .tick time => { s with now := max s.now time }
  | .opens pool position =>
    { s with opened := fun other => if other = pool then some position else s.opened other }
  | .decides call cfg answers =>
    let (decision,ledger) := decide_ policy ownerWallet s.ledger s.now cfg answers
    let s := { s with ledger }
    if (∃ d ∈ decision, d.action = .rebalance) ∧ cfg.dryRun = false then
      match s.calls.insert? { call, pool := cfg.poolAddress, position := cfg.positionAddress } with
      | some calls => { s with calls }
      | none => s
    else s
  | .lands call =>
    match s.calls.find? call with
    | some c =>
      if c.landed = false ∧ s.opened c.pool = some c.position then
        { s with
          calls := s.calls.put { c with landed := true }
          opened := fun other => if other = c.pool then none else s.opened other
          executed := s.executed ++ [⟨c.pool,c.position,s.now⟩] }
      else s
    | none => s
  | .reports call failed =>
    match s.calls.find? call with
    | some c =>
      if c.answered then s
      else
        { s with
          calls := s.calls.put { c with answered := true }
          ledger := if failed then s.ledger else s.ledger.record c.position s.now }
    | none => s

def start (now : ℚ) (windowMs : ℚ := DAY_MS) : Desk := ⟨now,.new windowMs,.empty,fun _ => none,[]⟩

/-- When the pool's position was rebalanced. -/
def timesOf (s : Desk) (pool : String) : List ℚ := (s.executed.filter fun e => e.pool = pool).map (·.time)

end Desk

end Machine

end RatifyOs.Pools
