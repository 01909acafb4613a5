import Mathlib.Data.Nat.Notation
import Mathlib.Data.Int.Notation

/-! What a simulation is asked and what it reports, as the orchestrator, the approval
binding and the authorization issuer read them. -/
namespace RatifyOs.Execution

structure InstructionSummary where
  programId : String
  /-- `none` where an address lookup table is involved. -/
  accounts : List (Option String)
  data : String
  deriving DecidableEq

structure SimulationRequest where
  cluster : String
  transaction : String
  message : String
  messageHash : String
  feePayer : String
  recentBlockhash : String
  lastValidBlockHeight : ℕ
  programIds : List String
  accountKeys : List String
  instructions : List InstructionSummary
  addressTableLookups : List String
  policyHash : String
  deriving DecidableEq

structure AssetDelta where
  asset : String
  owner : String
  amount : ℤ
  deriving DecidableEq

structure AccountState where
  address : String
  lamports : ℤ
  owner : String
  data : Option String
  deriving DecidableEq

structure SimulationCapabilities where
  balances : Bool
  logs : Bool
  fee : Bool
  addressTableLookups : Bool
  deriving DecidableEq

structure SimulationEvidence where
  hash : String
  messageHash : String
  slot : ℤ
  blockhash : String
  unitsConsumed : ℤ
  feeLamports : ℤ
  logs : List String
  accountStates : List AccountState
  assetDeltas : List AssetDelta
  capabilities : SimulationCapabilities
  deriving DecidableEq

/-! The one-time authorization an issuer signs for one exact transaction. -/

/-- The host reads two of these off the execution row, where they may be missing. -/
structure AuthorizationReferences where
  quoteHash : String
  policyHash : String
  policyVersion : ℕ
  riskHash : Option String
  reservationId : Option String
  approvalId : String
  audience : String
  deriving DecidableEq

structure AuthorizationClaims where
  protocol : String
  version : ℕ
  id : String
  cluster : String
  feePayer : String
  transaction : String
  message : String
  messageHash : String
  recentBlockhash : String
  lastValidBlockHeight : ℕ
  programIds : List String
  accountKeys : List String
  instructions : List InstructionSummary
  addressTableLookups : List String
  simulationHash : String
  references : AuthorizationReferences
  signerKeyId : Option String
  issuedAt : ℤ
  expiresAt : ℤ
  deriving DecidableEq

structure AuthorizationEnvelope where
  claims : AuthorizationClaims
  signature : String
  deriving DecidableEq

end RatifyOs.Execution
