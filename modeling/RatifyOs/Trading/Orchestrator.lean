import RatifyOs.Async.Program
import RatifyOs.Execution.Approvals
import RatifyOs.Execution.Simulation
import RatifyOs.Signer.Transaction
import RatifyOs.Trading.Types

/-! `TradingOrchestrator`, cut at every store statement and every call of a port. -/
namespace RatifyOs.Trading
open Async
open Async.Program (call reject ofOption onlyIf)
open Data RatifyOs.Execution

/-- What the orchestrator performs. Port calls also name the execution they are made
for, which the code knows and does not pass on. -/
inductive Op where
  | byIdempotency (key : String)
  | getQuote (id : String)
  | getExecution (id : String)
  | list (states : List TradeState)
  | create (x : NewExecution) (state : TradeState)
  | transition (id : String) (states : List TradeState) (patch : Patch)
  | now
  | simulate (request : SimulationRequest)
  | simulateIntent (intentHash : String) (slot : ℤ)
  | blockHeight
  | status (signature : String)
  | broadcast (execution wire : String)
  | approvalRequest (id : String) (binding : BoundTransaction) (proposerId : String) (expiresAt : ℤ)
  | approvalGet (id : String)
  | approvalDecide (id : String) (input : DecisionInput)
  | approvalConsume (id : String) (binding : BoundTransaction)
  | assess (quote : Quote) (request : SimulationRequest) (evidence : SimulationEvidence)
  | reserve (quoteHash policyHash messageHash : String)
  | valid (id : String)
  | commit (execution : String) (id : Option String)
  | release (execution id : String)
  | issue (execution : String) (request : SimulationRequest) (evidence : SimulationEvidence)
      (references : AuthorizationReferences)
  | sign (execution transaction : String) (envelope : AuthorizationEnvelope)
  | result (execution authorizationId messageHash : String)

@[reducible] def Op.Ans : Op → Type
  | .byIdempotency _ => Option Execution
  | .getQuote _ => Option Quote
  | .getExecution _ => Option Execution
  | .list _ => List Execution
  | .create _ _ => Execution
  | .transition _ _ _ => Execution
  | .now => ℤ
  | .simulate _ => Simulated
  | .simulateIntent _ _ => Simulated
  | .blockHeight => ℕ
  | .status _ => Option SignatureStatus
  | .broadcast _ _ => String
  | .approvalRequest _ _ _ _ => Unit
  | .approvalGet _ => Option ApprovalStatus
  | .approvalDecide _ _ => Unit
  | .approvalConsume _ _ => Unit
  | .assess _ _ _ => RiskVerdict
  | .reserve _ _ _ => String
  | .valid _ => Bool
  | .commit _ _ => Bool
  | .release _ _ => Bool
  | .issue _ _ _ _ => AuthorizationEnvelope
  | .sign _ _ _ => SignResponse
  | .result _ _ _ => ResultResponse

abbrev Trade (α : Type) := Program Op Op.Ans String α

section Orchestrator
variable (web3 : Signer.Web3) (c : Deployment)

def require (id : String) : Trade Execution := do
  let x ← call (Op.getExecution id)
  ofOption x "execution_not_found"

/-- Both fields of the signer's answer are checked against what the wire bytes carry. -/
def assertSignedTransaction (transaction signature : Option String) : Except String String := do
  let wire ← Result.required transaction "invalid_signer_response"
  let reported ← Result.required (present signature) "invalid_signer_response"
  let attached ← (Signer.signatureOf web3 wire).mapError fun _ => "invalid_signer_response"
  Result.reject (attached ≠ reported) "invalid_signer_response"
  return attached

def instructionJson (i : InstructionSummary) : Json :=
  .obj [("programId",.str i.programId),("accounts",.arr (i.accounts.map Json.nullable)),("data",.str i.data)]

def binding (q : Quote) (r : SimulationRequest) (e : SimulationEvidence) : BoundTransaction where
  chain := q.cluster
  serializedTransaction := .obj [
    ("transaction",.str r.transaction),
    ("message",.str r.message),
    ("messageHash",.str r.messageHash),
    ("feePayer",.str r.feePayer),
    ("recentBlockhash",.str r.recentBlockhash),
    ("lastValidBlockHeight",.num r.lastValidBlockHeight),
    ("programIds",.strings r.programIds),
    ("accountKeys",.strings r.accountKeys),
    ("instructions",.arr (r.instructions.map instructionJson)),
    ("addressTableLookups",.strings r.addressTableLookups),
    ("to",.str (",".intercalate r.programIds)),
    ("data",.str r.message),
    ("value",.str (toString q.amountIn)),
    ("nonce",.str r.recentBlockhash)]
  intentHash := q.intentHash
  policyHash := q.policyHash
  policyVersion := toString c.policy.version
  simulationHash := e.hash
  simulationBlock := toString e.slot
  simulationState := e.blockhash
  account := r.feePayer
  nonce := r.recentBlockhash
  value := toString q.amountIn
  calldata := r.message
  router := ",".intercalate r.programIds

structure ExecuteOptions where
  idempotencyKey : String
  actor : String
  dryRun : Option Bool
  deriving DecidableEq

/-- Re-simulate the quote: exact evidence for an exact transaction, else a bare verdict. -/
def resimulate (q : Quote) : Trade (Option SimulationEvidence) :=
  match q.request with
  | some request => do
    let got ← call (Op.simulate request)
    match got with
    | .evidence e => return some e
    | .verdict _ => throw "simulation_evidence_required"
  | none => do
    let got ← call (Op.simulateIntent q.intentHash q.slot)
    match got with
    | .verdict true => return q.evidence
    | _ => throw "simulation_failed"

def optionally {α : Type} (there : Bool) (p : Trade α) : Trade (Option α) :=
  if there then do
    let value ← p
    return some value
  else return none

def newExecution (quoteId : String) (q : Quote) (o : ExecuteOptions) (dryRun : Bool)
    (simulationHash : Option String) : NewExecution where
  quoteId := quoteId
  quoteHash := q.quoteHash
  intentHash := q.intentHash
  policyHash := q.policyHash
  riskHash := none
  reservationId := none
  simulationHash := simulationHash
  actor := o.actor
  dryRun := dryRun
  idempotencyKey := o.idempotencyKey
  lastValidBlockHeight := none

def executeLive (quoteId : String) (q : Quote) (evidence : Option SimulationEvidence)
    (o : ExecuteOptions) : Trade Execution := do
  let request ← ofOption q.request "exact_transaction_required"
  let evidence ← ofOption evidence "exact_transaction_required"
  reject (evidence.messageHash ≠ request.messageHash) "simulation_transaction_mismatch"
  let height ← call Op.blockHeight
  reject (height > q.lastValidBlockHeight) "blockhash_expired"
  let risk ← optionally c.risk (call (Op.assess q request evidence))
  reject (∃ r ∈ risk, r.allowed = false) "risk_denied"
  let reservationId ← optionally c.reservations
    (call (Op.reserve q.quoteHash q.policyHash request.messageHash))
  let x ← call (Op.create
    { newExecution quoteId q o false (some evidence.hash) with
      riskHash := risk.map (·.hash)
      reservationId := present reservationId
      lastValidBlockHeight := some q.lastValidBlockHeight } .awaitingApproval)
  if c.policy.approvalRequired then do
    onlyIf c.approvalEngine
      (call (Op.approvalRequest x.id (binding c q request evidence) o.actor q.expiresAt))
    call (Op.transition x.id [.awaitingApproval] { approvalId := some x.id })
  else call (Op.transition x.id [.awaitingApproval] { state := some .approved })

def executeNew (quoteId : String) (o : ExecuteOptions) : Trade Execution := do
  let found ← call (Op.getQuote quoteId)
  let q ← ofOption found "quote_not_found"
  let now ← call Op.now
  reject (q.expiresAt < now) "quote_expired"
  let dryRun := o.dryRun.getD true
  reject (dryRun = false ∧ c.liveEnabled = false) "live_trading_disabled"
  let evidence ← resimulate q
  if dryRun then call (Op.create (newExecution quoteId q o true (evidence.map (·.hash))) .dryRun)
  else executeLive c quoteId q evidence o

def execute (quoteId : String) (o : ExecuteOptions) : Trade Execution := do
  let old ← call (Op.byIdempotency o.idempotencyKey)
  match old with
  | some old => return old
  | none => executeNew c quoteId o

def refreshApproval (id : String) (operator : Option String) : Trade Execution := do
  let x ← require id
  if x.state ≠ .awaitingApproval then return x
  else do
    let approvalId ← ofOption (if c.approvalEngine then present x.approvalId else none)
      "approval unavailable"
    let found ← call (Op.approvalGet approvalId)
    let status ← ofOption found "approval record missing"
    if status = .denied then
      call (Op.transition id [.awaitingApproval] { state := some .denied, approver := present operator })
    else if status = .approved then
      call (Op.transition id [.awaitingApproval] { state := some .approved, approver := present operator })
    else return x

def approve (id operator : String) (input : Option DecisionInput) : Trade Execution := do
  let x ← require id
  reject (x.actor = operator) "self approval prohibited"
  reject (x.state ≠ .awaitingApproval) "not awaiting approval"
  match input, present x.approvalId with
  | some input, some approvalId => do
    onlyIf c.approvalEngine (call (Op.approvalDecide approvalId { input with operatorId := operator }))
    refreshApproval c id (some operator)
  | _, _ => do
    reject (c.approvalEngine = true) "decision proof required"
    refreshApproval c id (some operator)

def deny (id operator : String) (input : Option DecisionInput) : Trade Execution := do
  let x ← require id
  reject (x.state ≠ .awaitingApproval) "not awaiting approval"
  let input ← ofOption input "decision proof required"
  let approvalId ← ofOption (if c.approvalEngine then present x.approvalId else none)
    "decision proof required"
  let _ ← call (Op.approvalDecide approvalId { input with operatorId := operator, decision := .deny })
  refreshApproval c id (some operator)

/-- Burn the execution because its blockhash can no longer land. -/
def expire (id : String) (states : List TradeState) : Trade Execution := do
  let x ← call (Op.getExecution id)
  match x.bind fun x => present x.reservationId with
  | some reservationId => do
    onlyIf c.reservations (call (Op.release id reservationId))
    call (Op.transition id states { state := some .expired })
  | none => call (Op.transition id states { state := some .expired })

/-- What `submit` does once the row is in `signing`. -/
def submitSigning (id : String) (q : Quote) (request : SimulationRequest)
    (evidence : SimulationEvidence) (approvalId : String) (x : Execution) : Trade Execution := do
  let env ← call (Op.issue id request evidence {
    quoteHash := q.quoteHash
    policyHash := q.policyHash
    policyVersion := c.policy.version
    riskHash := x.riskHash
    reservationId := x.reservationId
    approvalId
    audience := c.audience.getD "signer" })
  let _ ← call (Op.transition id [.signing] { authorizationId := some env.claims.id })
  let signed ← call (Op.sign id request.transaction env)
  let signature ← Program.ofExcept (assertSignedTransaction web3 signed.transaction signed.signature)
  -- Persisted before broadcasting: a crash after this point looks the signature up.
  let x ← call (Op.transition id [.signing] {
    state := some .submitting
    authorizationId := some env.claims.id
    messageHash := some request.messageHash
    signature := some signature
    lastValidBlockHeight := some q.lastValidBlockHeight })
  let landed ← (match signed.broadcast with
    | some landed => pure landed
    | none => call (Op.broadcast id (signed.transaction.getD "")))
  reject (landed ≠ signature) "broadcast_signature_mismatch"
  onlyIf c.reservations (call (Op.commit id x.reservationId))
  call (Op.transition id [.submitting] { state := some .broadcast, signature := some landed })

/-- The parts of a stored quote `submit` insists on. -/
def exactQuote (q : Option Quote) : Option (Quote × SimulationRequest × SimulationEvidence) := do
  let q ← q
  let request ← q.request
  let evidence ← q.evidence
  return (q,request,evidence)

def validReservation (x : Execution) : Trade Bool :=
  match present x.reservationId with
  | some reservationId => if c.reservations then call (Op.valid reservationId) else return true
  | none => return true

/-- The catch block of `submit`: a row left in `submitting` needs reconciliation. -/
def abandonSubmission (id error : String) : Trade Execution := do
  let now ← require id
  onlyIf (now.state = .submitting)
    (call (Op.transition id [.submitting] { state := some .reconciliationRequired }))
  throw error

/-- `submit` once the quote is known to be exact and its blockhash alive. -/
def submitApproved (id : String) (x : Execution) (q : Quote) (request : SimulationRequest)
    (evidence : SimulationEvidence) : Trade Execution := do
  let valid ← validReservation c x
  reject (valid = false) "reservation_invalid"
  let approvalId ← ofOption (if c.approvalEngine then present x.approvalId else none)
    "approval unavailable"
  let approval ← call (Op.approvalGet approvalId)
  onlyIf (approval ≠ some .consumed)
    (call (Op.approvalConsume approvalId (binding c q request evidence)))
  let x ← (if x.state = .approved then
    call (Op.transition id [.approved] { state := some .signing }) else pure x)
  tryCatch (submitSigning web3 c id q request evidence approvalId x) (abandonSubmission id)

def submit (id : String) : Trade Execution := do
  let x ← require id
  reject (x.state ≠ .approved ∧ x.state ≠ .signing)
    (if x.state = .submitting then "submission in progress" else "not approved")
  let found ← call (Op.getQuote x.quoteId)
  let exact ← ofOption (exactQuote found) "exact_transaction_required"
  reject (¬(c.liveEnabled ∧ c.signer ∧ c.authorizationIssuer)) "signer unavailable"
  let now ← call Op.now
  reject (exact.1.expiresAt ≤ now) "quote_expired"
  let height ← call Op.blockHeight
  if height > exact.1.lastValidBlockHeight then do
    let _ ← expire c id [x.state]
    throw "blockhash_expired"
  else submitApproved web3 c id x exact.1 exact.2.1 exact.2.2

def recover (id : String) : Trade Execution := do
  let x ← require id
  if x.state = .submitting then
    call (Op.transition id [.submitting] { state := some .reconciliationRequired })
  else return x

/-- What `recoverSigning` does with a signature the signer had stored. -/
def recoverSigned (row : Execution) (q : Quote) (request : SimulationRequest)
    (signed : ResultResponse) : Trade Execution := do
  let wire ← ofOption (present signed.transaction) "signer_result_raw_unavailable"
  let signature ← Program.ofExcept (assertSignedTransaction web3 (some wire) signed.signature)
  let x ← call (Op.transition row.id [.signing] {
    state := some .submitting
    messageHash := some request.messageHash
    signature := some signature
    lastValidBlockHeight := some q.lastValidBlockHeight })
  let landed ← call (Op.broadcast row.id wire)
  if landed ≠ signature then do
    let _ ← call (Op.transition row.id [.submitting] { state := some .reconciliationRequired })
    throw "broadcast_signature_mismatch"
  else do
    onlyIf c.reservations (call (Op.commit row.id x.reservationId))
    call (Op.transition row.id [.submitting] { state := some .broadcast, signature := some landed })

def recoverSigning (row : Execution) : Trade Execution := do
  let found ← call (Op.getQuote row.quoteId)
  let exact ← ofOption (do let q ← found; let r ← q.request; return (q,r)) "exact_transaction_required"
  match present row.authorizationId with
  | none => submit web3 c row.id
  | some authorizationId => do
    reject (¬(c.signer ∧ c.signerResult)) "signer_result_unavailable"
    let signed ← call (Op.result row.id authorizationId exact.2.messageHash)
    match signed.state with
    | .expired => do
      let _ ← expire c row.id [.signing]
      throw "authorization_expired"
    | .notFound => throw "signer_result_not_found"
    | .other => throw "signer_result_invalid"
    | .signed => recoverSigned web3 c row exact.1 exact.2 signed

/-- The state an observed status settles the execution in. -/
def settledState (status : SignatureStatus) : TradeState :=
  if status.err then .failed
  else if status.confirmationStatus = .finalized ∨
      (c.policy.finalityCommitment = .confirmed ∧ status.confirmationStatus = .confirmed) then .finalized
  else .confirmed

/-- Whether a signature the cluster does not know can no longer land. -/
def pastValidity (x : Execution) : Trade Bool :=
  match x.lastValidBlockHeight with
  | some limit => do
    let height ← call Op.blockHeight
    return height > limit
  | none => return false

def dropExecution (id : String) (x : Execution) : Trade Execution :=
  match present x.reservationId with
  | some reservationId => do
    onlyIf c.reservations (call (Op.release id reservationId))
    call (Op.transition id [x.state] { state := some .dropped })
  | none => call (Op.transition id [x.state] { state := some .dropped })

def reconcile (id : String) : Trade Execution := do
  let x ← require id
  let signature ← ofOption (present x.signature) "transaction_not_broadcast"
  let status ← call (Op.status signature)
  match status with
  | some status => call (Op.transition id [x.state] {
      state := some (settledState c status)
      signature := some signature
      slot := some status.slot })
  | none => do
    let past ← pastValidity x
    if past then dropExecution c id x
    else if x.state = .reconciliationRequired then return x
    else call (Op.transition id [x.state] { state := some .reconciliationRequired })

structure Recovery where
  scanned : ℕ
  recovered : ℕ
  reconciled : ℕ
  failed : ℕ
  deriving DecidableEq

/-- One row of the recovery pass, on the snapshot the pass began with. -/
def recoverRow (row : Execution) (totals : Recovery) : Trade Recovery :=
  tryCatch
    (if row.state = .signing then do
      let _ ← recoverSigning web3 c row
      return { totals with recovered := totals.recovered + 1 }
    else if row.state = .submitting then do
      let _ ← recover row.id
      return { totals with recovered := totals.recovered + 1 }
    else do
      let _ ← reconcile c row.id
      return { totals with reconciled := totals.reconciled + 1 })
    fun _ => return { totals with failed := totals.failed + 1 }

def recoverRows : List Execution → Recovery → Trade Recovery
  | [], totals => return totals
  | row :: rows, totals => do
    let totals ← recoverRow web3 c row totals
    recoverRows rows totals

def recoverAndReconcile (limit : ℤ) : Trade Recovery := do
  let all ← call (Op.list [.signing,.submitting,.reconciliationRequired,.broadcast,.confirmed])
  let rows := all.take limit.toNat
  recoverRows web3 c rows { scanned := rows.length, recovered := 0, reconciled := 0, failed := 0 }

end Orchestrator

end RatifyOs.Trading
