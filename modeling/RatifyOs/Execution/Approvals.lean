import RatifyOs.Data.Json
import RatifyOs.Data.Table

/-! The records of the approval engine: what an operator approves, what is compared when
the approval is consumed, and the tables behind both. -/
namespace RatifyOs.Execution
open Data

inductive ApprovalType where
  | sign
  | broadcast
  | allowance
  | bridge
  | withdraw
  | policyChange
  deriving DecidableEq

def ApprovalType.text : ApprovalType → String
  | .sign => "sign"
  | .broadcast => "broadcast"
  | .allowance => "allowance"
  | .bridge => "bridge"
  | .withdraw => "withdraw"
  | .policyChange => "policy-change"

inductive ApprovalStatus where
  | pending
  | approved
  | denied
  | expired
  | revoked
  | consumed
  deriving DecidableEq

def ApprovalStatus.text : ApprovalStatus → String
  | .pending => "pending"
  | .approved => "approved"
  | .denied => "denied"
  | .expired => "expired"
  | .revoked => "revoked"
  | .consumed => "consumed"

structure BoundTransaction where
  chain : String
  serializedTransaction : Json
  intentHash : String
  policyHash : String
  policyVersion : String
  simulationHash : String
  simulationBlock : String
  simulationState : String
  account : String
  nonce : String
  value : String
  calldata : String
  router : String

structure ApprovalRequestInput extends BoundTransaction where
  id : String
  type : ApprovalType
  proposerId : String
  expiresAt : ℤ
  displayImpact : Option String

structure Operator where
  id : String
  roles : List String
  scopes : List String
  deriving DecidableEq

/-- Whether the operator is an approver with a scope for the type. -/
def Operator.covers (o : Operator) (type : ApprovalType) : Bool :=
  "approver" ∈ o.roles ∧ ("*" ∈ o.scopes ∨ type.text ∈ o.scopes)

inductive Decision where
  | approve
  | deny
  deriving DecidableEq

structure DecisionInput where
  operatorId : String
  decision : Decision
  challenge : String
  nonce : String
  expectedRevision : ℕ
  timestamp : Option ℤ
  proof : Option String
  reason : Option String
  deriving DecidableEq

/-- What an operator signs: the decision with its time filled in, the request and revision
it is about, and the configuration of the engine that asks. -/
structure DecisionProof where
  input : DecisionInput
  requestId : String
  revision : ℕ
  operatorConfigVersion : String
  operatorConfigHash : String
  deriving DecidableEq

/-- A row of `approval_requests`. -/
structure ApprovalRow where
  id : String
  type : ApprovalType
  proposerId : String
  bindingJson : Text
  txJson : Text
  displayImpact : Option String
  expiresAt : ℤ
  quorum : ℤ
  challenge : String
  status : ApprovalStatus
  revision : ℕ
  createdAt : ℤ
  configVersion : String
  configHash : String
  deriving DecidableEq

/-- A row of `approval_decisions`. -/
structure DecisionRow where
  requestId : String
  operatorId : String
  decision : Decision
  challenge : String
  nonce : String
  reason : Option String
  createdAt : ℤ
  proof : Option String
  deriving DecidableEq

/-- A row of `approval_events`. -/
structure EventRow where
  requestId : String
  event : String
  operatorId : Option String
  reason : Option String
  bindingHash : String
  revision : ℕ
  createdAt : ℤ
  deriving DecidableEq

structure ApprovalTables where
  requests : Table ApprovalRow.id
  decisions : List DecisionRow
  events : List EventRow

/-- What the engine hands out: `bound` holds the keys that were compared. -/
structure ApprovalRecord where
  id : String
  type : ApprovalType
  proposerId : String
  bound : List (String × Json)
  serializedTransaction : Json
  expiresAt : ℤ
  displayImpact : Option String
  quorum : ℤ
  challenge : String
  status : ApprovalStatus
  revision : ℕ
  createdAt : ℤ

end RatifyOs.Execution
