import RatifyOs.Data.Json
import RatifyOs.Execution.Simulation

/-! The records of the trading lifecycle and what its ports answer. -/
namespace RatifyOs.Trading
open Data RatifyOs.Execution

inductive QuoteSide where
  | buy
  | sell
  | revoke
  deriving DecidableEq

inductive TradeState where
  | awaitingApproval
  | approved
  | dryRun
  | signing
  | submitting
  | reconciliationRequired
  | broadcast
  | confirmed
  | finalized
  | failed
  | denied
  | expired
  | dropped
  deriving DecidableEq

inductive Commitment where
  | processed
  | confirmed
  | finalized
  deriving DecidableEq

structure Quote where
  id : String
  side : QuoteSide
  cluster : String
  inputMint : String
  outputMint : String
  amountIn : ℤ
  amountOut : ℤ
  minimumOut : ℤ
  slippageBps : ℤ
  slot : ℤ
  lastValidBlockHeight : ℕ
  expiresAt : ℤ
  intentHash : String
  quoteHash : String
  policyHash : String
  request : Option SimulationRequest
  evidence : Option SimulationEvidence
  deriving DecidableEq

structure Execution where
  id : String
  version : ℕ
  quoteId : String
  quoteHash : String
  intentHash : String
  policyHash : String
  riskHash : Option String
  reservationId : Option String
  simulationHash : Option String
  approvalId : Option String
  authorizationId : Option String
  actor : String
  dryRun : Bool
  idempotencyKey : String
  state : TradeState
  approver : Option String
  messageHash : Option String
  signature : Option String
  slot : Option ℤ
  lastValidBlockHeight : Option ℕ
  createdAt : ℤ
  updatedAt : ℤ
  deriving DecidableEq

/-- What `execute` hands to `create`. -/
structure NewExecution where
  quoteId : String
  quoteHash : String
  intentHash : String
  policyHash : String
  riskHash : Option String
  reservationId : Option String
  simulationHash : Option String
  actor : String
  dryRun : Bool
  idempotencyKey : String
  lastValidBlockHeight : Option ℕ
  deriving DecidableEq

/-- The `Partial<Execution>` objects the lifecycle writes; `none` is an absent key. -/
structure Patch where
  state : Option TradeState := none
  approver : Option String := none
  approvalId : Option String := none
  authorizationId : Option String := none
  messageHash : Option String := none
  signature : Option String := none
  slot : Option ℤ := none
  lastValidBlockHeight : Option ℕ := none
  deriving DecidableEq

/-- `{ ...old, ...p, version: old.version + 1, updatedAt: now }` -/
def Execution.patched (old : Execution) (p : Patch) (now : ℤ) : Execution :=
  { old with
    state := p.state.getD old.state
    approver := p.approver.or old.approver
    approvalId := p.approvalId.or old.approvalId
    authorizationId := p.authorizationId.or old.authorizationId
    messageHash := p.messageHash.or old.messageHash
    signature := p.signature.or old.signature
    slot := p.slot.or old.slot
    lastValidBlockHeight := p.lastValidBlockHeight.or old.lastValidBlockHeight
    version := old.version + 1
    updatedAt := now }

structure TradingPolicy where
  version : ℕ
  approvalRequired : Bool
  finalityCommitment : Commitment
  deriving DecidableEq

/-- The orchestrator's constructor argument; of an optional port, whether it is there. -/
structure Deployment where
  policy : TradingPolicy
  liveEnabled : Bool
  approvalEngine : Bool
  authorizationIssuer : Bool
  risk : Bool
  reservations : Bool
  signer : Bool
  signerResult : Bool
  audience : Option String
  deriving DecidableEq

structure SignatureStatus where
  slot : ℤ
  confirmationStatus : Commitment
  /-- Whether `err` is truthy, which is all that is read of it. -/
  err : Bool
  deriving DecidableEq

/-- `rpc.simulate` answers evidence, or a bare verdict when there was no request. -/
inductive Simulated where
  | evidence (e : SimulationEvidence)
  | verdict (success : Bool)
  deriving DecidableEq

structure RiskVerdict where
  hash : String
  allowed : Bool
  deriving DecidableEq

/-- A response of the signer daemon as it comes off the socket. -/
structure SignResponse where
  transaction : Option String
  signature : Option String
  broadcast : Option String
  deriving DecidableEq

inductive ResultState where
  | signed
  | expired
  | notFound
  | other
  deriving DecidableEq

structure ResultResponse where
  state : ResultState
  transaction : Option String
  signature : Option String
  deriving DecidableEq

end RatifyOs.Trading
