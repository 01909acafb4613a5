import RatifyOs.Data.Json
import RatifyOs.Data.Table
import RatifyOs.Async.Program
import RatifyOs.Execution.Simulation
import RatifyOs.Signer.Transaction

/-! `SqliteReplayStore`: the durable one-time fence of the signer. -/
namespace RatifyOs.Signer
open Data

inductive ExecutionState where
  | issued
  | claimed
  | signing
  | signed
  | broadcast
  | reconciliation
  | confirmed
  | reverted
  | expired
  | dropped
  | failed
  deriving DecidableEq

inductive Confirmation where
  | processed
  | confirmed
  | finalized
  deriving DecidableEq

structure SignatureStatus where
  slot : ℤ
  confirmationStatus : Option Confirmation
  /-- Whether `err` is truthy. -/
  err : Bool
  deriving DecidableEq

/-- The object written to the `data` column; every writer has keys of its own. -/
structure RowData where
  requestHash : Option String := none
  transaction : Option String := none
  signature : Option String := none
  lastValidBlockHeight : Option ℤ := none
  expected : Option String := none
  returned : Option Json := none
  status : Option SignatureStatus := none
  blockHeight : Option ℤ := none

structure ReplayRow where
  id : String
  expiresAt : ℤ
  state : ExecutionState
  version : ℕ
  data : Option RowData
  updatedAt : ℤ
  recovered : Bool

structure ReplayStore where
  rows : Table ReplayRow.id

/-- `Number.isSafeInteger` -/
def safeInteger (n : ℤ) : Bool := -9007199254740991 ≤ n ∧ n ≤ 9007199254740991

namespace ReplayStore

def empty : ReplayStore := ⟨.empty⟩

/-- `INSERT OR IGNORE`: whether the id was new. -/
def consume (s : ReplayStore) (id : String) (expiresAt now : ℤ) : Bool × ReplayStore :=
  if id = "" ∨ safeInteger expiresAt = false then (false,s)
  else
    match s.rows.insert? ⟨id,expiresAt,.claimed,1,none,now,false⟩ with
    | some rows => (true,⟨rows⟩)
    | none => (false,s)

/-- Compare-and-set on the state. -/
def transition (s : ReplayStore) (id : String) (from_ to_ : ExecutionState) (data : Option RowData) (now : ℤ) :
    Bool × ReplayStore :=
  match (s.rows.find? id).filter (·.state = from_) with
  | some row => (true,⟨s.rows.put { row with state := to_, data, version := row.version + 1, updatedAt := now }⟩)
  | none => (false,s)

def get (s : ReplayStore) (id : String) : Option ReplayRow := s.rows.find? id

/-- The data of a signed row, to the first caller that asks. -/
def recoverSigned (s : ReplayStore) (id : String) (now : ℤ) : Option (Option RowData) × ReplayStore :=
  match (s.rows.find? id).filter fun row => row.state = .signed ∧ row.recovered = false with
  | some row => (some row.data,⟨s.rows.put { row with recovered := true, version := row.version + 1, updatedAt := now }⟩)
  | none => (none,s)

def list (s : ReplayStore) (states : List ExecutionState) : List ReplayRow :=
  s.rows.select (·.state ∈ states)

@[simp] theorem get_empty (id : String) : empty.get id = none := rfl

theorem consume_cases (s : ReplayStore) (id : String) (expiresAt now : ℤ) :
    s.consume id expiresAt now = (false,s) ∨
      ∃ rows, s.rows.insert? ⟨id,expiresAt,.claimed,1,none,now,false⟩ = some rows ∧
        s.consume id expiresAt now = (true,⟨rows⟩) := by
  unfold consume
  split
  · exact .inl rfl
  · split
    · rename_i rows inserted
      exact .inr ⟨rows,inserted,rfl⟩
    · exact .inl rfl

theorem transition_cases (s : ReplayStore) (id : String) (from_ to_ : ExecutionState) (data : Option RowData)
    (now : ℤ) :
    s.transition id from_ to_ data now = (false,s) ∨
      ∃ row, s.get id = some row ∧ row.state = from_ ∧ s.transition id from_ to_ data now =
        (true,⟨s.rows.put { row with state := to_, data, version := row.version + 1, updatedAt := now }⟩) := by
  unfold transition
  cases found : (s.rows.find? id).filter (·.state = from_) with
  | none => exact .inl rfl
  | some row =>
    obtain ⟨there,state⟩ := Option.filter_eq_some_iff.mp found
    exact .inr ⟨row,there,by simpa using state,rfl⟩

theorem recoverSigned_cases (s : ReplayStore) (id : String) (now : ℤ) :
    s.recoverSigned id now = (none,s) ∨
      ∃ row, s.get id = some row ∧ row.state = .signed ∧ row.recovered = false ∧ s.recoverSigned id now =
        (some row.data,⟨s.rows.put { row with recovered := true, version := row.version + 1, updatedAt := now }⟩) := by
  unfold recoverSigned
  cases found : (s.rows.find? id).filter fun row => row.state = .signed ∧ row.recovered = false with
  | none => exact .inl rfl
  | some row =>
    obtain ⟨there,held⟩ := Option.filter_eq_some_iff.mp found
    simp only [decide_eq_true_eq] at held
    exact .inr ⟨row,there,held.1,held.2,rfl⟩

end ReplayStore

/-! `SignerService`, and the broadcast and reconciliation of what it signed, cut at every
store statement and every call of the account, the policy, the verifier or the network. -/
open Async
open Async.Program (call reject ofOption)
open RatifyOs.Execution

inductive ResultAnswer where
  | expired
  | notFound
  | signed (signature transaction : Option String)
  deriving DecidableEq

/-- Signing effects name the authorization they are made for. Heights and block numbers
that are no safe integers are `none`. -/
inductive Op where
  | now
  | get (id : String)
  | consume (id : String) (expiresAt : ℤ)
  | transition (id : String) (from_ to_ : ExecutionState) (data : Option RowData)
  | list (states : List ExecutionState)
  | result (id requestHash : String) (recoverRaw : Bool)
  | evaluatePolicy (decoded : DecodedTransaction)
  | verify (decoded : DecodedTransaction) (envelope : AuthorizationEnvelope)
  | blockHeight
  | signMessage (id : String) (messageBytes : Bytes)
  | sendTransaction (transaction : String)
  | getSignatureStatuses (signature : String)
  | getBlockHeight

@[reducible] def Op.Ans : Op → Type
  | .now => ℤ
  | .get _ => Option ReplayRow
  | .consume _ _ => Bool
  | .transition _ _ _ _ => Bool
  | .list _ => List ReplayRow
  | .result _ _ _ => ResultAnswer
  | .evaluatePolicy _ => Unit
  | .verify _ _ => Unit
  | .blockHeight => Option ℤ
  | .signMessage _ _ => Bytes
  | .sendTransaction _ => Json
  | .getSignatureStatuses _ => Option SignatureStatus
  | .getBlockHeight => Option ℤ

abbrev Signing (α : Type) := Program Op Op.Ans String α

/-- What is configured: the wire verifier, and within it the block height. -/
structure SignerConfig where
  wire : Bool
  blockHeight : Bool
  deriving DecidableEq

section Service
variable (web3 : Web3) (toLowerCase : String → String) (c : SignerConfig)

def readStored (row : Option ReplayRow) (requestHash : String) : Except String (Option SignResult) :=
  match row with
  | none => .ok none
  | some row => do
    Result.reject (row.state = .expired) "authorization_expired"
    match row.data with
    | none => return none
    | some data => do
      Result.reject (data.requestHash.map toLowerCase ≠ some (toLowerCase requestHash))
        "authorization_request_mismatch"
      Result.reject (row.state ≠ .signed) "authorization_in_progress"
      let transaction ← Result.required (present data.transaction) "authorization_in_progress"
      return some ⟨transaction,data.signature⟩

theorem readStored_eq_some {row : ReplayRow} {requestHash : String} {prior : SignResult} :
    readStored toLowerCase (some row) requestHash = .ok (some prior) ↔
      row.state = .signed ∧ ∃ data, row.data = some data ∧
        data.requestHash.map toLowerCase = some (toLowerCase requestHash) ∧
        present data.transaction = some prior.transaction ∧ data.signature = prior.signature := by
  obtain ⟨transaction,signature⟩ := prior
  obtain ⟨id,expiresAt,state,version,data,updatedAt,recovered⟩ := row
  cases data with
  | none =>
    constructor
    · intro read
      simp only [readStored,Result.bind_eq_ok,Result.pure_eq_ok] at read
      obtain ⟨_,_,absent⟩ := read
      cases absent
    · rintro ⟨_,_,absent,_⟩
      cases absent
  | some data =>
    simp only [readStored,Result.bind_eq_ok,Result.reject_eq_ok,Result.required_eq_ok,Result.pure_eq_ok,
      Option.some.injEq,SignResult.mk.injEq,not_not,exists_eq_left']
    constructor
    · rintro ⟨_,_,_,asked,_,signed,bytes,there,rfl,rfl⟩
      exact ⟨signed,asked,there,rfl⟩
    · rintro ⟨signed,asked,there,rfl⟩
      exact ⟨(),by simp [signed],(),asked,(),signed,transaction,there,rfl,rfl⟩

def stored (id requestHash : String) : Signing (Option SignResult) := do
  reject (requestHash = "") "request_hash_invalid"
  let row ← call (Op.get id)
  Program.ofExcept (readStored toLowerCase row requestHash)

/-- An authorization whose blockhash can no longer land is burned. -/
def fenceBlockhash (id : String) (lastValidBlockHeight : Option ℤ) : Signing Unit :=
  match lastValidBlockHeight with
  | none => return ()
  | some limit =>
    if c.wire ∧ c.blockHeight then do
      let read ← call Op.blockHeight
      let height ← ofOption (read.filter (0 ≤ ·)) "block_height_invalid"
      if height ≤ limit then return ()
      else do
        let _ ← call (Op.transition id .claimed .expired
          (some { lastValidBlockHeight := some limit, blockHeight := some height }))
        throw "blockhash_expired"
    else return ()

def signClaimed (id : String) (decoded : DecodedTransaction) (lastValidBlockHeight : Option ℤ) :
    Signing SignResult :=
  tryCatch
    (do
      let raw ← call (Op.signMessage id decoded.messageBytes)
      let result ← Program.ofExcept (attachSignature web3 decoded raw)
      let fenced ← call (Op.transition id .claimed .signed (some {
        requestHash := some decoded.messageHash
        transaction := some result.transaction
        signature := result.signature
        lastValidBlockHeight }))
      reject (fenced = false) "replay_fencing_lost"
      return result)
    fun error => do
      let _ ← call (Op.transition id .claimed .failed none)
      throw error

def sign (authorizationId transaction claimedFeePayer : String) (lastValidBlockHeight : Option ℤ) :
    Signing SignResult := do
  let decoded ← Program.ofExcept (decodeTransaction web3 transaction)
  let _ ← call (Op.evaluatePolicy decoded)
  reject (decoded.feePayer ≠ claimedFeePayer) "policy_fee_payer"
  let prior ← stored toLowerCase authorizationId decoded.messageHash
  match prior with
  | some prior => return prior
  | none => do
    let now ← call Op.now
    let fresh ← call (Op.consume authorizationId (now + 60000))
    reject (fresh = false) "envelope_replayed"
    let _ ← fenceBlockhash c authorizationId lastValidBlockHeight
    signClaimed web3 authorizationId decoded lastValidBlockHeight

/-- A request may come without an envelope. -/
def signEnvelope (transaction : String) (envelope : Option AuthorizationEnvelope) : Signing SignResult := do
  reject (c.wire = false) "wire_verifier_required"
  let decoded ← Program.ofExcept (decodeTransaction web3 transaction)
  let envelope ← ofOption (envelope.filter (·.claims.id ≠ "")) "envelope_invalid"
  let id := envelope.claims.id
  let prior ← stored toLowerCase id decoded.messageHash
  let _ ← call (Op.verify decoded envelope)
  let _ ← call (Op.evaluatePolicy decoded)
  match prior with
  | some prior => return prior
  | none => do
    let fresh ← call (Op.consume id envelope.claims.expiresAt)
    reject (fresh = false) "envelope_replayed"
    let _ ← fenceBlockhash c id (some envelope.claims.lastValidBlockHeight)
    signClaimed web3 id decoded (some envelope.claims.lastValidBlockHeight)

/-- `result` does not wait for anything, so nothing comes between its statements. -/
def result (id requestHash : String) (recoverRaw : Bool) (now : ℤ) (s : ReplayStore) :
    Except String ResultAnswer × ReplayStore :=
  if ∃ row ∈ s.get id, row.state = .expired then (.ok .expired,s)
  else if requestHash = "" then (.error "request_hash_invalid",s)
  else
    match readStored toLowerCase (s.get id) requestHash with
    | .error error => (.error error,s)
    | .ok none => (.ok .notFound,s)
    | .ok (some data) =>
      if recoverRaw then
        match s.recoverSigned id now with
        | (none,s) => (.ok (.signed data.signature none),s)
        | (some claimed,s) =>
          match claimed.bind fun recovered => present recovered.transaction with
          | some transaction => (.ok (.signed data.signature (some transaction)),s)
          | none => (.error "signed_result_invalid",s)
      else (.ok (.signed data.signature none),s)

theorem result_store (id requestHash : String) (recoverRaw : Bool) (now : ℤ) (s : ReplayStore) :
    (result toLowerCase id requestHash recoverRaw now s).2 = s ∨
      recoverRaw = true ∧
        (result toLowerCase id requestHash recoverRaw now s).2 = (s.recoverSigned id now).2 := by
  unfold result
  split
  · exact .inl rfl
  · split
    · exact .inl rfl
    · split
      · exact .inl rfl
      · exact .inl rfl
      · split
        · rename_i asks
          refine .inr ⟨asks,?_⟩
          split
          · rename_i recovered
            rw [recovered]
          · rename_i recovered
            rw [recovered]
            split <;> rfl
        · exact .inl rfl

theorem result_released {id requestHash : String} {recoverRaw : Bool} {now : ℤ} {s : ReplayStore}
    {signature : Option String} {transaction : String}
    (answered : (result toLowerCase id requestHash recoverRaw now s).1 = .ok (.signed signature (some transaction))) :
    recoverRaw = true ∧ ∃ claimed,
      s.recoverSigned id now = (some claimed,(result toLowerCase id requestHash recoverRaw now s).2) := by
  unfold result at answered ⊢
  by_cases expired : ∃ row ∈ s.get id, row.state = .expired
  · rw [if_pos expired] at answered
    cases answered
  · rw [if_neg expired] at answered ⊢
    by_cases asked : requestHash = ""
    · rw [if_pos asked] at answered
      cases answered
    · rw [if_neg asked] at answered ⊢
      rcases there : readStored toLowerCase (s.get id) requestHash with error | _ | data
      · rw [there] at answered
        cases answered
      · rw [there] at answered
        cases answered
      · rw [there] at answered
        cases recoverRaw with
        | false => cases answered
        | true =>
          refine ⟨rfl,?_⟩
          rcases recovered : s.recoverSigned id now with ⟨_ | claimed,after⟩
          · simp [recovered] at answered
          · refine ⟨claimed,?_⟩
            cases bytes : claimed.bind fun stored => present stored.transaction <;> simp [bytes]

def broadcastSigned (id transaction : String) : Signing String := do
  let expected ← Program.ofExcept (signatureOf web3 transaction)
  let row ← call (Op.get id)
  let lastValidBlockHeight := (row.bind (·.data)).bind (·.lastValidBlockHeight)
  let returned ← call (Op.sendTransaction transaction)
  match returned with
  | .str landed =>
    if landed = expected then do
      let moved ← call (Op.transition id .signed .broadcast
        (some { signature := some landed, transaction := some transaction, lastValidBlockHeight }))
      reject (moved = false) "broadcast_state_invalid"
      return landed
    else unresolved expected returned lastValidBlockHeight
  | _ => unresolved expected returned lastValidBlockHeight
where
  unresolved (expected : String) (returned : Json) (lastValidBlockHeight : Option ℤ) : Signing String := do
    let _ ← call (Op.transition id .signed .reconciliation
      (some { expected := some expected, returned := some returned, lastValidBlockHeight }))
    throw "broadcast_signature_mismatch"

/-- What a status settles a broadcast row in, if in anything. -/
def settled (row : ReplayRow) (status : SignatureStatus) : Option ExecutionState :=
  if status.err then some .reverted
  else if status.confirmationStatus = some .finalized ∨ status.confirmationStatus = some .confirmed then
    some .confirmed
  else if row.state = .reconciliation then some .broadcast
  else none

def reconcileTransaction (row : ReplayRow) : Signing Unit := do
  let data := row.data.getD {}
  match present (data.signature.or data.expected) with
  | none => return ()
  | some signature => do
    let status ← call (Op.getSignatureStatuses signature)
    match status, data.lastValidBlockHeight with
    | some status, limit =>
      match settled row status with
      | some state => do
        let _ ← call (Op.transition row.id row.state state (some {
          signature := some signature
          status := some status
          transaction := present data.transaction
          lastValidBlockHeight := limit }))
        return ()
      | none => return ()
    | none, none => return ()
    | none, some limit => do
      let height ← call Op.getBlockHeight
      match height with
      | some height =>
        if height > limit then do
          let _ ← call (Op.transition row.id row.state .dropped (some {
            signature := some signature
            lastValidBlockHeight := some limit
            blockHeight := some height }))
          return ()
        else return ()
      | none => return ()

def reconcileRows : List ReplayRow → Signing Unit
  | [] => return ()
  | row :: rows => do
    let _ ← reconcileTransaction row
    reconcileRows rows

def reconcileTransactions : Signing Unit := do
  let rows ← call (Op.list [.broadcast,.reconciliation])
  reconcileRows rows

end Service

end RatifyOs.Signer
