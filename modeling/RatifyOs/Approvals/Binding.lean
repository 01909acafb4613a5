import RatifyOs.Approvals.Canonical
import RatifyOs.Data.Run
import RatifyOs.Execution.ApprovalRuns

/-! What the approval engine keeps of a transaction and compares with it later, for every string
and every transaction there is. -/
namespace RatifyOs.Approvals
open Data Data.JsValue Data.Session Execution
open Execution.ApprovalEngine (beginImmediate commit rollback now raw insertRequest updateStatus insertDecision
  insertEvent opened guarded)

section Types

structure BoundTransaction where
  chain : Utf16
  serializedTransaction : JsValue
  intentHash : Utf16
  policyHash : Utf16
  policyVersion : Utf16
  simulationHash : Utf16
  simulationBlock : Utf16
  simulationState : Utf16
  account : Utf16
  nonce : Utf16
  value : Utf16
  calldata : Utf16
  router : Utf16
  wellFormed : serializedTransaction.WellFormed

structure ApprovalRequestInput extends BoundTransaction where
  id : String
  type : ApprovalType
  proposerId : String
  expiresAt : ℤ
  displayImpact : Option String

/-- What the engine hands out: `bound` holds the keys that were compared. -/
structure ApprovalRecord where
  id : String
  type : ApprovalType
  proposerId : String
  bound : JsValue
  serializedTransaction : JsValue
  expiresAt : ℤ
  displayImpact : Option String
  quorum : ℤ
  challenge : String
  status : ApprovalStatus
  revision : ℕ
  createdAt : ℤ

def BoundTransaction.texts (i : BoundTransaction) : List Utf16 :=
  [i.chain,i.intentHash,i.policyHash,i.policyVersion,i.simulationHash,i.simulationBlock,i.simulationState,i.account,
    i.nonce,i.value,i.calldata,i.router]

/-- The two bind the same transaction, whatever the order of its keys. -/
structure BoundTransaction.Same (i j : BoundTransaction) : Prop where
  texts : i.texts = j.texts
  transaction : i.serializedTransaction.Same j.serializedTransaction

end Types

section Keys
variable (c : ApprovalConfig)

/-- The digest of a text, after the tag of its version. -/
def digest (text : Text) : String := c.hash ("approval-v1".toList ++ [Char.ofNat 0] ++ text)

def canonicalHash (v : JsValue) : Except String String := do
  let text ← canonicalSerialize v
  return digest c text

def boundFields (i : BoundTransaction) (transactionHash : String) : List (Utf16 × JsValue) := [
  (.ofString "chain",.str i.chain),
  (.ofString "transactionHash",.str (.ofString transactionHash)),
  (.ofString "intentHash",.str i.intentHash),
  (.ofString "policyHash",.str i.policyHash),
  (.ofString "policyVersion",.str i.policyVersion),
  (.ofString "simulationHash",.str i.simulationHash),
  (.ofString "simulationBlock",.str i.simulationBlock),
  (.ofString "simulationState",.str i.simulationState),
  (.ofString "account",.str i.account),
  (.ofString "nonce",.str i.nonce),
  (.ofString "value",.str i.value),
  (.ofString "calldata",.str i.calldata),
  (.ofString "router",.str i.router)]

def boundKeys (i : BoundTransaction) : Except String JsValue := do
  let transactionHash ← canonicalHash c i.serializedTransaction
  return .obj (boundFields i transactionHash)

def binding (i : BoundTransaction) : Except String Text := do
  let keys ← boundKeys c i
  canonicalSerialize keys

def requestRow (input : ApprovalRequestInput) (quorum : ℤ) (challenge : String) (createdAt : ℤ) :
    Except String ApprovalRow := do
  let txJson ← canonicalSerialize input.serializedTransaction
  let bindingJson ← binding c input.toBoundTransaction
  return {
    id := input.id, type := input.type, proposerId := input.proposerId, bindingJson, txJson
    displayImpact := input.displayImpact, expiresAt := input.expiresAt, quorum, challenge, status := .pending
    revision := 0, createdAt, configVersion := c.configVersion, configHash := c.configHash }

/-- A property of a value; `null` has none to read. -/
def property (key : Utf16) : JsValue → Except String JsValue
  | .null => throw "Cannot read properties of null"
  | .obj fields => return (fields.lookup key).getD .other
  | _ => return .other

def record (r : ApprovalRow) (bound serializedTransaction : JsValue) : ApprovalRecord where
  id := r.id
  type := r.type
  proposerId := r.proposerId
  bound := bound
  serializedTransaction := serializedTransaction
  expiresAt := r.expiresAt
  displayImpact := r.displayImpact
  quorum := r.quorum
  challenge := r.challenge
  status := r.status
  revision := r.revision
  createdAt := r.createdAt

def map (r : ApprovalRow) : Except String ApprovalRecord := do
  let b ← Result.required (parse r.bindingJson) "Corrupt approval data"
  let tx ← Result.required (parse r.txJson) "Corrupt approval data"
  let hash ← canonicalHash c tx
  let transactionHash ← property (.ofString "transactionHash") b
  Result.reject (textOf transactionHash ≠ some (.ofString hash)) "Corrupt transaction binding"
  return record r b tx
where
  textOf : JsValue → Option Utf16
    | .str value => some value
    | _ => none

end Keys

section Engine
variable (c : ApprovalConfig)

def returned {α : Type} : Except String α → Engine α
  | .ok a => pure a
  | .error error => throw error

def event (id event : String) (operator reason : Option String) (binding : Text) (revision : ℕ) : Engine Unit := do
  let createdAt ← now
  let parsed ← ofOption (parse binding) "Unexpected token"
  let bindingHash ← returned (canonicalHash c parsed)
  insertEvent { requestId := id, event, operatorId := operator, reason, bindingHash, revision, createdAt }

def expire (r : ApprovalRow) : Engine Unit := do
  let changes ← updateStatus r.id r.revision ApprovalStatus.live .expired
  onlyIf (changes ≠ 0) (event c r.id "expired" none (some "deadline reached") r.bindingJson (r.revision + 1))

/-- An overdue request is marked before it is handed out. -/
def refreshed (r : ApprovalRow) : Engine ApprovalRow := do
  if r.status.live then do
    let time ← now
    if r.expiresAt ≤ time then do
      beginImmediate
      tryCatch (do expire c r; commit) fun error => do rollback; throw error
      ofOption (← raw r.id) "Cannot read properties of undefined"
    else return r
  else return r

def get (id : String) : Engine (Option ApprovalRecord) := do
  opened
  let found ← raw id
  match found with
  | none => return none
  | some r => do
    let r ← refreshed c r
    let record ← returned (map c r)
    return some record

def consumeOpen (id : String) (input : BoundTransaction) : Engine (Option ApprovalRecord) := do
  let r ← ofOption (← raw id) "Unknown approval"
  if r.expiresAt ≤ (← now) then do
    expire c r
    commit
    throw "Approval expired"
  else do
    reject (r.status ≠ .approved) ("Approval is " ++ r.status.text)
    let asked ← returned (binding c input)
    reject (asked ≠ r.bindingJson) "Exact transaction mismatch"
    let changes ← updateStatus id r.revision (fun status => status = .approved) .consumed
    reject (changes ≠ 1) "Approval consumption conflict"
    event c id "consumed" none none r.bindingJson (r.revision + 1)
    commit
    get c id

def consume (id : String) (input : BoundTransaction) : Engine (Option ApprovalRecord) := do
  opened
  beginImmediate
  guarded (consumeOpen c id input) do
    let found ← raw id
    onlyIf (found.map (·.status) ≠ some .expired) rollback

/-- A call that reads a binding, or one of the statements that every method is some of in a row. -/
inductive Statement where
  | beginImmediate
  | commit
  | rollback
  | request (input : ApprovalRequestInput) (quorum : ℤ) (challenge : String) (createdAt : ℤ)
  | updateStatus (id : String) (revision : ℕ) (from_ : ApprovalStatus → Bool) (status : ApprovalStatus)
  | decision (d : DecisionRow)
  | event (e : EventRow)
  | get (id : String)
  | consume (id : String) (input : BoundTransaction)

def Statement.run : Statement → Engine Unit
  | .beginImmediate => ApprovalEngine.beginImmediate
  | .commit => ApprovalEngine.commit
  | .rollback => ApprovalEngine.rollback
  | .request input quorum challenge createdAt => do
    let r ← returned (requestRow c input quorum challenge createdAt)
    insertRequest r
  | .updateStatus id revision from_ status => do
    let _ ← ApprovalEngine.updateStatus id revision from_ status
  | .decision d => insertDecision d
  | .event e => insertEvent e
  | .get id => do
    let _ ← Approvals.get c id
  | .consume id input => do
    let _ ← Approvals.consume c id input

def statementStep (s : ApprovalEngine) (statement : Statement) : ApprovalEngine := (exec (statement.run c) s).2

/-- The engine after any statements in any order, from empty tables on. -/
def after (clock : ℕ → ℤ) (statements : List Statement) : ApprovalEngine :=
  Data.Run.run (statementStep c) (opening clock) statements

end Engine

end RatifyOs.Approvals
