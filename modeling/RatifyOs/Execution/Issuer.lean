import RatifyOs.Async.Program
import RatifyOs.Execution.Simulation
import RatifyOs.Signer.Envelope

/-! The issuing side of the custody boundary: the projection of a decoded transaction, the
evidence of its simulation, and the one authorization that binds both. -/
namespace RatifyOs.Execution
open Async
open Async.Program (call reject)
open Data RatifyOs.Signer

def SIMULATION_EVIDENCE_DOMAIN : String := "ari-solana-simulation-evidence/v1"

structure PreparedTransaction where
  cluster : String
  transaction : String
  lastValidBlockHeight : ℤ
  deriving DecidableEq

structure SimulationResult where
  messageHash : String
  slot : ℤ
  blockhash : String
  unitsConsumed : ℤ
  feeLamports : ℤ
  logs : List String
  accountStates : List AccountState
  assetDeltas : List AssetDelta
  capabilities : SimulationCapabilities

section Requests
variable (web3 : Web3)

def simulationRequestOf (d : DecodedTransaction) (cluster : String) (lastValidBlockHeight : ℕ) (policyHash : String) :
    SimulationRequest where
  cluster
  transaction := d.wireBase64
  message := d.messageBase64
  messageHash := d.messageHash
  feePayer := d.feePayer
  recentBlockhash := d.recentBlockhash
  lastValidBlockHeight
  programIds := SignerWireVerifier.sortedProgramIds d
  accountKeys := d.staticAccountKeys
  instructions := d.instructions.map fun i => ⟨i.programId,i.accounts,i.dataHex⟩
  addressTableLookups := d.addressTableLookups.map (·.accountKey)
  policyHash

def buildSimulationRequest (t : PreparedTransaction) (policyHash : String) : Except String SimulationRequest := do
  Result.reject (¬SafeInteger t.lastValidBlockHeight ∨ t.lastValidBlockHeight < 0)
    "prepared_last_valid_block_height_invalid"
  Result.reject (t.cluster = "") "prepared_cluster_invalid"
  let decoded ← decodeTransaction web3 t.transaction
  return simulationRequestOf decoded t.cluster t.lastValidBlockHeight.toNat policyHash

def InstructionSummary.json (i : InstructionSummary) : Json :=
  .obj [("programId",.str i.programId),("accounts",.arr (i.accounts.map Json.nullable)),("data",.str i.data)]

def SimulationRequest.json (r : SimulationRequest) : Json :=
  .obj [
    ("cluster",.str r.cluster),
    ("transaction",.str r.transaction),
    ("message",.str r.message),
    ("messageHash",.str r.messageHash),
    ("feePayer",.str r.feePayer),
    ("recentBlockhash",.str r.recentBlockhash),
    ("lastValidBlockHeight",.num r.lastValidBlockHeight),
    ("programIds",.strings r.programIds),
    ("accountKeys",.strings r.accountKeys),
    ("instructions",.arr (r.instructions.map InstructionSummary.json)),
    ("addressTableLookups",.strings r.addressTableLookups),
    ("policyHash",.str r.policyHash)]

end Requests

section Evidence
variable (sha256 : Text → String) (locale : Signer.Locale)

/-- `canonical` writes a bigint as a string of its digits. -/
def bigint (n : ℤ) : Json := .str (toString n)

def evidenceBody (e : SimulationResult) : Json :=
  .obj [
    ("domain",.str SIMULATION_EVIDENCE_DOMAIN),
    ("messageHash",.str e.messageHash),
    ("slot",bigint e.slot),
    ("blockhash",.str e.blockhash),
    ("unitsConsumed",bigint e.unitsConsumed),
    ("feeLamports",bigint e.feeLamports),
    ("logs",.strings e.logs),
    ("accountStates",.arr (e.accountStates.map fun a => .obj [("address",.str a.address),("lamports",bigint a.lamports),
      ("owner",.str a.owner),("data",.nullable a.data)])),
    ("assetDeltas",.arr (e.assetDeltas.map fun d => .obj [("asset",.str d.asset),("owner",.str d.owner),
      ("amount",bigint d.amount)])),
    ("capabilities",.obj [("balances",.bool e.capabilities.balances),("logs",.bool e.capabilities.logs),
      ("fee",.bool e.capabilities.fee),("addressTableLookups",.bool e.capabilities.addressTableLookups)])]

def hashBody (e : SimulationResult) : String := sha256 (stringify (normalize locale.localeCompare (evidenceBody e)))

def createSimulationEvidence (request : SimulationRequest) (result : SimulationResult) : Except String SimulationEvidence := do
  Result.reject (locale.toLowerCase result.messageHash ≠ locale.toLowerCase request.messageHash)
    "simulation_transaction_mismatch"
  return {
    hash := hashBody sha256 locale result, messageHash := result.messageHash, slot := result.slot
    blockhash := result.blockhash, unitsConsumed := result.unitsConsumed, feeLamports := result.feeLamports
    logs := result.logs, accountStates := result.accountStates, assetDeltas := result.assetDeltas
    capabilities := result.capabilities }

/-- The evidence without its hash. -/
def SimulationEvidence.body (e : SimulationEvidence) : SimulationResult where
  messageHash := e.messageHash
  slot := e.slot
  blockhash := e.blockhash
  unitsConsumed := e.unitsConsumed
  feeLamports := e.feeLamports
  logs := e.logs
  accountStates := e.accountStates
  assetDeltas := e.assetDeltas
  capabilities := e.capabilities

def simulationEvidenceHash (e : SimulationResult) : String := hashBody sha256 locale e

end Evidence

/-- What `blockhash` answers. A height that is no safe integer is `none`. -/
inductive BlockhashAnswer where
  | observed (answer : Bool)
  | height (h : Option ℤ)

/-- The checks, the clock and the random id of the issuer. -/
inductive IssuerOp where
  | snapshotVersion
  | quote (hash : String)
  | policy (hash : String)
  | risk (hash : Option String)
  | reservation (id : Option String)
  | approval (id : String)
  | simulation (hash : String)
  | blockhash (cluster : String)
  | now
  | randomUUID
  | consumeApprovalReservation (approval : String) (reservation : Option String) (authorizationId : String)

@[reducible] def IssuerOp.Ans : IssuerOp → Type
  | .snapshotVersion => String
  | .blockhash _ => BlockhashAnswer
  | .now => ℤ
  | .randomUUID => String
  | _ => Bool

abbrev Issuing (α : Type) := Program IssuerOp IssuerOp.Ans String α

/-- Which optional dependencies there are, the times to live that are configured, and the
signature over a text. -/
structure Issuer where
  snapshotVersion : Bool
  consumeApprovalReservation : Bool
  signerKeyId : Option String
  ttlMs : Option ℤ
  maxTtlMs : Option ℤ
  sign : Text → String

/-- References may name a key of their own. -/
structure IssuedReferences extends AuthorizationReferences where
  signerKeyId : Option String

section Json

def optionalText (key : String) : Option String → List (String × Json)
  | some value => [(key,.str value)]
  | none => []

/-- The properties in the order the issuer writes them; an undefined one is left out. -/
def AuthorizationClaims.json (c : AuthorizationClaims) : Json :=
  .obj ([
    ("quoteHash",.str c.references.quoteHash),
    ("policyHash",.str c.references.policyHash),
    ("policyVersion",.num c.references.policyVersion)] ++
    optionalText "riskHash" c.references.riskHash ++ optionalText "reservationId" c.references.reservationId ++ [
    ("approvalId",.str c.references.approvalId),
    ("audience",.str c.references.audience)] ++ optionalText "signerKeyId" c.signerKeyId ++ [
    ("protocol",.str c.protocol),
    ("version",.num c.version),
    ("id",.str c.id),
    ("cluster",.str c.cluster),
    ("feePayer",.str c.feePayer),
    ("transaction",.str c.transaction),
    ("message",.str c.message),
    ("messageHash",.str c.messageHash),
    ("recentBlockhash",.str c.recentBlockhash),
    ("lastValidBlockHeight",.num c.lastValidBlockHeight),
    ("programIds",.strings c.programIds),
    ("accountKeys",.strings c.accountKeys),
    ("instructions",.arr (c.instructions.map InstructionSummary.json)),
    ("addressTableLookups",.strings c.addressTableLookups),
    ("simulationHash",.str c.simulationHash),
    ("issuedAt",.num c.issuedAt),
    ("expiresAt",.num c.expiresAt)])

def AuthorizationEnvelope.json (e : AuthorizationEnvelope) : Json :=
  .obj [("claims",e.claims.json),("signature",.str e.signature)]

end Json

namespace AuthorizationIssuer
variable (web3 : Web3) (sha256 : Text → String) (locale : Signer.Locale) (c : Issuer)

/-- A promise that is started now and awaited later. -/
def started (op : IssuerOp) : Issuing (Except String op.Ans) := .perform op .pure

def awaited (name : String) (answer : Except String Bool) : Issuing Unit := do
  let ok ← Program.ofExcept answer
  reject (ok = false) ("authorization_" ++ name ++ "_invalid")

/-- Whether the blockhash can still land, as far as the answer tells. -/
def fenced (lastValidBlockHeight : ℕ) : BlockhashAnswer → Bool
  | .observed answer => answer
  | .height (some h) => h ≤ lastValidBlockHeight
  | .height none => false

def snapshot : Issuing (Option String) :=
  if c.snapshotVersion then do
    let version ← call IssuerOp.snapshotVersion
    return some version
  else return none

/-- All checks are started before the first one is awaited. -/
def validations (r : SimulationRequest) (e : SimulationEvidence) (refs : IssuedReferences) : Issuing Unit := do
  let quote ← started (.quote refs.quoteHash)
  let policy ← started (.policy refs.policyHash)
  let risk ← started (.risk refs.riskHash)
  let reservation ← started (.reservation refs.reservationId)
  let approval ← started (.approval refs.approvalId)
  let simulation ← started (.simulation e.hash)
  let blockhash ← started (.blockhash r.cluster)
  awaited "quote" quote
  awaited "policy" policy
  awaited "risk" risk
  awaited "reservation" reservation
  awaited "approval" approval
  awaited "simulation" simulation
  awaited "blockhash" (blockhash.map (fenced r.lastValidBlockHeight))

/-- What is checked before anything is asked. -/
def assertBound (r : SimulationRequest) (e : SimulationEvidence) (refs : IssuedReferences) : Except String Unit := do
  let ttl := c.ttlMs.getD 30000
  Result.reject (¬SafeInteger ttl ∨ ttl ≤ 0 ∨ ttl > c.maxTtlMs.getD 60000) "authorization_ttl_invalid"
  Result.reject (refs.policyHash ≠ r.policyHash) "authorization_policy_invalid"
  let decoded ← decodeTransaction web3 r.transaction
  Result.reject (stringify (simulationRequestOf decoded r.cluster r.lastValidBlockHeight r.policyHash).json ≠ stringify r.json)
    "authorization_transaction_invalid"
  Result.reject (e.hash ≠ simulationEvidenceHash sha256 locale e.body ∨ e.messageHash ≠ r.messageHash)
    "authorization_simulation_invalid"

def claims (r : SimulationRequest) (e : SimulationEvidence) (refs : IssuedReferences) (id : String) (issuedAt : ℤ) :
    AuthorizationClaims where
  protocol := AUTHORIZATION_PROTOCOL
  version := 1
  id
  cluster := r.cluster
  feePayer := r.feePayer
  transaction := r.transaction
  message := r.message
  messageHash := r.messageHash
  recentBlockhash := r.recentBlockhash
  lastValidBlockHeight := r.lastValidBlockHeight
  programIds := r.programIds
  accountKeys := r.accountKeys
  instructions := r.instructions
  addressTableLookups := r.addressTableLookups
  simulationHash := e.hash
  references := refs.toAuthorizationReferences
  signerKeyId := (present c.signerKeyId).or refs.signerKeyId
  issuedAt
  expiresAt := issuedAt + c.ttlMs.getD 30000

def issue (r : SimulationRequest) (e : SimulationEvidence) (refs : IssuedReferences) : Issuing AuthorizationEnvelope := do
  Program.ofExcept (assertBound web3 sha256 locale c r e refs)
  let start ← snapshot c
  validations r e refs
  let again ← (match start with
    | some _ => snapshot c
    | none => pure none)
  reject (start ≠ again) "authorization_snapshot_changed"
  let issuedAt ← call IssuerOp.now
  let id ← call IssuerOp.randomUUID
  let consumed ← (if c.consumeApprovalReservation then
      call (IssuerOp.consumeApprovalReservation refs.approvalId refs.reservationId id)
    else pure true)
  reject (consumed = false) "authorization_consumption_invalid"
  let claims := claims c r e refs id issuedAt
  return ⟨claims,c.sign (SignerWireVerifier.canonicalClaims locale claims.json)⟩

end AuthorizationIssuer

end RatifyOs.Execution
