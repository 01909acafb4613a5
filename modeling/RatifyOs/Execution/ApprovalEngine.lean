import Mathlib.Data.List.Infix
import RatifyOs.Data.Session
import RatifyOs.Data.Words
import RatifyOs.Execution.ApprovalTables
import RatifyOs.Execution.Canonical

/-! `ApprovalEngine` over its SQLite connection. Every call is synchronous, and what it
wrote before it threw stays written unless it rolls back. -/
namespace RatifyOs.Execution
open Data
open Data.Session (reject ofOption onlyIf)

/-- What the engine was constructed with. `configHash` is the hash of its operators in the
order of their names, `hash` the SHA-256 of a text in hex. -/
structure ApprovalConfig where
  operators : List Operator
  verify : DecisionProof → Bool
  configVersion : String
  configHash : String
  hash : Text → String

/-- The tables as a statement sees them, the ones a `ROLLBACK` brings back while a
transaction is open, and the readings of the clock to come. -/
structure ApprovalEngine where
  tables : ApprovalTables
  saved : Option ApprovalTables
  closed : Bool
  clock : ℕ → ℤ

abbrev Engine (α : Type) := Session ApprovalEngine String α

namespace ApprovalEngine

section Statements

def beginImmediate : Engine Unit := do
  let s ← get
  reject (s.saved.isSome = true) "cannot start a transaction within a transaction"
  modify fun s => { s with saved := some s.tables }

def commit : Engine Unit := do
  let s ← get
  reject (s.saved.isNone = true) "cannot commit - no transaction is active"
  modify fun s => { s with saved := none }

def rollback : Engine Unit := do
  let s ← get
  let before ← ofOption s.saved "cannot rollback - no transaction is active"
  modify fun s => { s with tables := before, saved := none }

/-- `this.clock()` -/
def now : Engine ℤ := do
  let s ← get
  modify fun s => { s with clock := fun n => s.clock (n + 1) }
  return s.clock 0

def raw (id : String) : Engine (Option ApprovalRow) := do
  let s ← get
  return s.tables.requests.find? id

def insertRequest (r : ApprovalRow) : Engine Unit := do
  let s ← get
  reject (∃ old ∈ s.tables.requests.rows, old.challenge = r.challenge)
    "UNIQUE constraint failed: approval_requests.challenge"
  let requests ← ofOption (s.tables.requests.insert? r) "UNIQUE constraint failed: approval_requests.id"
  modify fun s => { s with tables := { s.tables with requests } }

/-- `UPDATE … SET status=?,revision=revision+1 WHERE id=? AND revision=? AND …`, answering
the number of changed rows. -/
def updateStatus (id : String) (revision : ℕ) (from_ : ApprovalStatus → Bool) (status : ApprovalStatus) : Engine ℕ := do
  let s ← get
  match s.tables.requests.find? id with
  | some r =>
    if r.revision = revision ∧ from_ r.status = true then do
      modify fun s => { s with tables := { s.tables with
        requests := s.tables.requests.put { r with status, revision := r.revision + 1 } } }
      return 1
    else return 0
  | none => return 0

def insertDecision (d : DecisionRow) : Engine Unit := do
  let s ← get
  reject (∃ old ∈ s.tables.decisions, old.nonce = d.nonce) "UNIQUE constraint failed: approval_decisions.nonce"
  reject (∃ old ∈ s.tables.decisions, old.requestId = d.requestId ∧ old.operatorId = d.operatorId)
    "UNIQUE constraint failed: approval_decisions.request_id, approval_decisions.operator_id"
  modify fun s => { s with tables := { s.tables with decisions := s.tables.decisions ++ [d] } }

def insertEvent (e : EventRow) : Engine Unit :=
  modify fun s => { s with tables := { s.tables with events := s.tables.events ++ [e] } }

end Statements

section Checks

def text (v n : String) (max : ℕ) : Engine Unit :=
  reject (v.toList.all white = true ∨ (codeUnits v).length > max) ("Invalid " ++ n)

def validate (i : ApprovalRequestInput) : Engine Unit := do
  text i.id "request id" 128
  text i.proposerId "proposer id" 128
  text i.chain "chain" 128
  text i.intentHash "intentHash hash" 256
  text i.policyHash "policyHash hash" 256
  text i.simulationHash "simulationHash hash" 256
  text i.policyVersion "policyVersion" 8192
  text i.simulationBlock "simulationBlock" 8192
  text i.simulationState "simulationState" 8192
  text i.account "account" 8192
  text i.nonce "nonce" 8192
  text i.value "value" 8192
  text i.calldata "calldata" 8192
  text i.router "router" 8192
  reject (i.expiresAt.natAbs > 9007199254740991) "Invalid expiry"
  reject (¬canonicalTransaction i.serializedTransaction) "Invalid canonical transaction"
where
  canonicalTransaction : Json → Bool
    | .obj fields => ["to","data","value","nonce"].all fun key => key ∈ fields.map (·.1)
    | _ => false

end Checks

section Engine
variable (c : ApprovalConfig)

def canonicalHash (v : Json) : String := c.hash ("approval-v1".toList ++ [Char.ofNat 0] ++ canonicalSerialize v)

def boundKeys (i : BoundTransaction) : Json :=
  .obj [
    ("chain",.str i.chain),
    ("transactionHash",.str (canonicalHash c i.serializedTransaction)),
    ("intentHash",.str i.intentHash),
    ("policyHash",.str i.policyHash),
    ("policyVersion",.str i.policyVersion),
    ("simulationHash",.str i.simulationHash),
    ("simulationBlock",.str i.simulationBlock),
    ("simulationState",.str i.simulationState),
    ("account",.str i.account),
    ("nonce",.str i.nonce),
    ("value",.str i.value),
    ("calldata",.str i.calldata),
    ("router",.str i.router)]

/-- Without a time the clock is read. -/
def event (id event : String) (operator reason : Option String) (binding : Text) (revision : ℕ) (at_ : Option ℤ) :
    Engine Unit := do
  let createdAt ← (match at_ with
    | some time => pure time
    | none => now)
  let parsed ← ofOption (Json.parse binding) "Unexpected token"
  insertEvent { requestId := id, event, operatorId := operator, reason, bindingHash := canonicalHash c parsed,
                revision, createdAt }

def map (r : ApprovalRow) : Engine ApprovalRecord := do
  let bound ← ofOption (Json.parse r.bindingJson) "Corrupt approval data"
  let tx ← ofOption (Json.parse r.txJson) "Corrupt approval data"
  reject ((fieldsOf bound).lookup "transactionHash" |>.bind textOf |>.all (· ≠ canonicalHash c tx))
    "Corrupt transaction binding"
  return {
    id := r.id, type := r.type, proposerId := r.proposerId, bound := fieldsOf bound, serializedTransaction := tx
    expiresAt := r.expiresAt, displayImpact := r.displayImpact, quorum := r.quorum, challenge := r.challenge
    status := r.status, revision := r.revision, createdAt := r.createdAt }
where
  fieldsOf : Json → List (String × Json)
    | .obj fields => fields
    | _ => []
  textOf : Json → Option String
    | .str value => some value
    | _ => none

def opened : Engine Unit := do
  let s ← get
  reject (s.closed = true) "Approval engine is closed"

def expire (r : ApprovalRow) : Engine Unit := do
  let changes ← updateStatus r.id r.revision ApprovalStatus.live .expired
  onlyIf (changes ≠ 0) (event c r.id "expired" none (some "deadline reached") r.bindingJson (r.revision + 1) none)

/-- An overdue request is marked before it is handed out. -/
def refreshed (r : ApprovalRow) : Engine ApprovalRow := do
  if r.status.live then do
    let time ← now
    if r.expiresAt ≤ time then do
      beginImmediate
      tryCatch (do expire c r; commit) fun error => do rollback; throw error
      ofOption (← raw r.id) "Cannot read properties of undefined"
    else return r
  else return r

def get (id : String) : Engine (Option ApprovalRecord) := do
  opened
  let found ← raw id
  match found with
  | none => return none
  | some r => do
    let r ← refreshed c r
    return some (← map c r)

/-- A throw takes the open transaction back, if that can be done. -/
def guarded {α : Type} (p : Engine α) (undo : Engine Unit) : Engine α :=
  tryCatch p fun error => do
    tryCatch undo fun _ => pure ()
    throw error

def request (input : ApprovalRequestInput) (quorum : ℤ) (challenge : String) : Engine (Option ApprovalRecord) := do
  opened
  validate input
  let eligible := c.operators.countP fun o => o.id ≠ input.proposerId ∧ o.covers input.type
  reject (quorum < 1 ∨ quorum > eligible) "Invalid or infeasible quorum"
  reject (input.expiresAt ≤ (← now)) "Request already expired"
  let binding := canonicalSerialize (boundKeys c input.toBoundTransaction)
  let createdAt ← now
  insertRequest {
    id := input.id, type := input.type, proposerId := input.proposerId, bindingJson := binding
    txJson := canonicalSerialize input.serializedTransaction, displayImpact := input.displayImpact
    expiresAt := input.expiresAt, quorum, challenge, status := .pending, revision := 0, createdAt
    configVersion := c.configVersion, configHash := c.configHash }
  event c input.id "created" none none binding 0 (some createdAt)
  get c input.id

def operator (id : String) (type : ApprovalType) : Engine Operator :=
  ofOption ((c.operators.find? fun o => o.id = id).filter fun o => o.covers type)
    "Operator lacks approver role or scope"

/-- The checks of `decide`, up to the row of another decision by the same operator. -/
def admitDecision (id : String) (input : DecisionInput) : Engine ApprovalRow := do
  let r ← ofOption (← raw id) "Unknown approval"
  reject (r.expiresAt ≤ (← now)) "Approval expired"
  reject (r.status ≠ .pending) ("Approval is " ++ r.status.text)
  reject (r.revision ≠ input.expectedRevision) "Revision conflict"
  reject (input.operatorId = r.proposerId) "Self-approval is forbidden"
  let _ ← operator c input.operatorId r.type
  reject (input.challenge ≠ r.challenge) "Challenge mismatch"
  let timestamp ← (match input.timestamp with
    | some time => pure time
    | none => now)
  reject (timestamp.natAbs > 9007199254740991) "Invalid proof timestamp"
  reject (((← now) - timestamp).natAbs > 300000) "Invalid proof timestamp"
  let proof : DecisionProof := {
    input := { input with timestamp := some timestamp }, requestId := id, revision := input.expectedRevision
    operatorConfigVersion := r.configVersion, operatorConfigHash := r.configHash }
  reject ((present input.proof).isNone = true ∨ c.verify proof = false) "Invalid decision proof"
  let s ← MonadState.get
  reject (∃ d ∈ s.tables.decisions, d.requestId = id ∧ d.operatorId = input.operatorId) "Distinct operator required"
  return r

/-- The decision is recorded, and the request is decided when it is the last one needed. -/
def recordDecision (id : String) (input : DecisionInput) (r : ApprovalRow) : Engine Unit := do
  let createdAt ← now
  tryCatch
    (insertDecision {
      requestId := id, operatorId := input.operatorId, decision := input.decision, challenge := input.challenge
      nonce := input.nonce, reason := input.reason, createdAt, proof := input.proof })
    fun error => throw (if "nonce".toList <:+: error.toLower.toList then "Decision nonce replay" else error)
  let s ← MonadState.get
  let count := s.tables.decisions.countP fun d => d.requestId = id ∧ d.decision = .approve
  let status : ApprovalStatus :=
    if input.decision = .deny then .denied else if (count : ℤ) ≥ r.quorum then .approved else .pending
  let _ ← updateStatus id input.expectedRevision (fun _ => true) status
  onlyIf (status ≠ .pending)
    (event c id status.text (some input.operatorId) input.reason r.bindingJson (input.expectedRevision + 1) none)

/-- What `decide` does inside its transaction. -/
def decideOpen (id : String) (input : DecisionInput) : Engine (Option ApprovalRecord) := do
  let r ← admitDecision c id input
  recordDecision c id input r
  commit
  get c id

def decide (id : String) (input : DecisionInput) : Engine (Option ApprovalRecord) := do
  opened
  text input.nonce "decision nonce" 256
  beginImmediate
  guarded (decideOpen c id input) rollback

/-- What `revoke` does inside its transaction. -/
def revokeOpen (id operatorId reason : String) (expectedRevision : ℕ) : Engine (Option ApprovalRecord) := do
  let r ← ofOption (← raw id) "Unknown approval"
  let _ ← operator c operatorId r.type
  reject (r.revision ≠ expectedRevision) "Revision conflict"
  reject (r.status.live = false) ("Approval is " ++ r.status.text)
  let changes ← updateStatus id expectedRevision ApprovalStatus.live .revoked
  reject (changes ≠ 1) "Revision conflict"
  event c id "revoked" (some operatorId) (some reason) r.bindingJson (expectedRevision + 1) none
  commit
  get c id

def revoke (id operatorId reason : String) (expectedRevision : ℕ) : Engine (Option ApprovalRecord) := do
  opened
  text reason "reason" 2048
  beginImmediate
  guarded (revokeOpen c id operatorId reason expectedRevision) rollback

/-- What `consume` does inside its transaction. -/
def consumeOpen (id : String) (input : BoundTransaction) : Engine (Option ApprovalRecord) := do
  let r ← ofOption (← raw id) "Unknown approval"
  if r.expiresAt ≤ (← now) then do
    expire c r
    commit
    throw "Approval expired"
  else do
    reject (r.status ≠ .approved) ("Approval is " ++ r.status.text)
    reject (canonicalSerialize (boundKeys c input) ≠ r.bindingJson) "Exact transaction mismatch"
    let changes ← updateStatus id r.revision (fun status => status = .approved) .consumed
    reject (changes ≠ 1) "Approval consumption conflict"
    event c id "consumed" none none r.bindingJson (r.revision + 1) none
    commit
    get c id

def consume (id : String) (input : BoundTransaction) : Engine (Option ApprovalRecord) := do
  opened
  beginImmediate
  guarded (consumeOpen c id input) do
    let found ← raw id
    onlyIf (found.map (·.status) ≠ some .expired) rollback

/-- A new process on the same file: an open transaction is gone, the engine is not closed. -/
def reopened (s : ApprovalEngine) : ApprovalEngine :=
  { s with tables := s.saved.getD s.tables, saved := none, closed := false }

end Engine

end ApprovalEngine

end RatifyOs.Execution
