import Mathlib.Data.List.Sort
import Mathlib.Data.Prod.Lex
import RatifyOs.Data.Json
import RatifyOs.Data.Result
import RatifyOs.Data.Table

/-! `JobQueue`: jobs, the attempts made at them, and the leases under which workers make
them. Every call is one transaction, and one that throws leaves the tables alone. -/
namespace RatifyOs.Autonomy
open Data Data.Result

inductive JobStatus where
  | scheduled
  | queued
  | running
  | succeeded
  | failed
  | cancelled
  | deadLetter
  deriving DecidableEq

inductive Outcome where
  | succeeded
  | failed
  | cancelled
  deriving DecidableEq

/-- A row of `jobs`. The payload is its canonical JSON text. -/
structure JobRow where
  id : String
  type : String
  payloadJson : Text
  status : JobStatus
  scheduledAt : ℤ
  attemptCount : ℕ
  maxAttempts : ℕ
  idempotencyKey : Option String
  backoffMs : ℤ
  workerId : Option String
  fencingToken : ℕ
  leaseExpiresAt : Option ℤ
  cancelRequested : Bool
  resultRef : Option String
  error : Option String
  createdAt : ℤ
  updatedAt : ℤ
  deriving DecidableEq

/-- A row of `job_attempts`. -/
structure AttemptRow where
  jobId : String
  number : ℕ
  workerId : String
  fencingToken : ℕ
  startedAt : ℤ
  finishedAt : Option ℤ
  outcome : Option Outcome
  error : Option String
  resultRef : Option String
  deriving DecidableEq

/-- What `claim` hands to a worker, and what anybody may present. -/
structure Lease where
  job : JobRow
  workerId : String
  fencingToken : ℕ
  leaseExpiresAt : ℤ
  deriving DecidableEq

structure NewJob where
  type : String
  payload : Json
  id : Option String
  idempotencyKey : Option String
  scheduledAt : Option ℤ
  maxAttempts : Option ℤ
  backoffMs : Option ℤ

structure JobQueue where
  jobs : Table JobRow.id
  attempts : List AttemptRow

def maxSafe : ℤ := 9007199254740991

def maxText : ℕ := 1000000

def validText (v name : String) (allowEmpty : Bool) : Except String Unit :=
  reject ((allowEmpty = false ∧ v = "") ∨ (codeUnits v).length > maxText) ("Invalid or too large " ++ name)

/-- `if (v !== undefined) validText(…)` -/
def givenText (v : Option String) (name : String) (allowEmpty : Bool) : Except String Unit :=
  match v with
  | some v => validText v name allowEmpty
  | none => pure ()

def validClock (now : ℤ) : Except String Unit := reject (maxSafe < now ∨ now < 0) "Invalid clock timestamp"

namespace JobQueue

def empty : JobQueue := ⟨.empty,[]⟩

def attemptsOf (q : JobQueue) (id : String) : List AttemptRow := q.attempts.filter (·.jobId = id)

/-- `UPDATE jobs SET … WHERE id=? AND …`, and whether a row was changed. -/
def updateJob (q : JobQueue) (id : String) (p : JobRow → Bool) (change : JobRow → JobRow) : Bool × JobQueue :=
  match q.jobs.find? id with
  | some j => if p j then (true,{ q with jobs := q.jobs.put { change j with id := j.id } }) else (false,q)
  | none => (false,q)

def unfinished (id : String) (token : ℕ) (a : AttemptRow) : Bool :=
  a.jobId = id ∧ a.fencingToken = token ∧ a.finishedAt = none

/-- `UPDATE job_attempts SET … WHERE job_id=? AND fencing_token=? AND finished_at IS NULL`,
and the number of changed rows. -/
def finishAttempt (q : JobQueue) (id : String) (token : ℕ) (now : ℤ) (outcome : Outcome)
    (error resultRef : Option String) : ℕ × JobQueue :=
  (q.attempts.countP (unfinished id token),{ q with
    attempts := q.attempts.map fun a =>
      if unfinished id token a then { a with finishedAt := some now, outcome := some outcome, error, resultRef } else a })

/-- `SELECT … ORDER BY scheduled_at,created_at LIMIT 1` -/
def first (q : JobQueue) (p : JobRow → Bool) : Option JobRow :=
  ((q.jobs.select p).insertionSort fun a b =>
    toLex (a.scheduledAt,a.createdAt) ≤ toLex (b.scheduledAt,b.createdAt)).head?

section Enqueue
variable (accept : String → Json → Except String Text)

/-- `accept` looks up the schema of the type, validates the payload and writes it as
canonical text; `fresh` is a random id. -/
def enqueue (job : NewJob) (fresh : String) (now : ℤ) (q : JobQueue) : Except String (JobRow × JobQueue) := do
  let json ← accept job.type job.payload
  validClock now
  let at_ := job.scheduledAt.getD now
  let max := job.maxAttempts.getD 3
  let back := job.backoffMs.getD 1000
  let id := job.id.getD fresh
  validText id "job id" false
  givenText job.idempotencyKey "idempotency key" false
  reject (maxSafe < at_ ∨ at_ < 0 ∨ max < 1 ∨ maxSafe < back ∨ back < 0) "Invalid retry options"
  let row : JobRow := {
    id, type := job.type, payloadJson := json, status := if at_ > now then .scheduled else .queued, scheduledAt := at_
    attemptCount := 0, maxAttempts := max.toNat, idempotencyKey := job.idempotencyKey, backoffMs := back
    workerId := none, fencingToken := 0, leaseExpiresAt := none, cancelRequested := false, resultRef := none
    error := none, createdAt := now, updatedAt := now }
  match job.idempotencyKey.bind fun key => q.jobs.rows.find? fun j => j.idempotencyKey = some key with
  | some old => do
    reject (old.type ≠ job.type ∨ old.payloadJson ≠ json) "Idempotency key conflict"
    return (old,q)
  | none => do
    let jobs ← required (q.jobs.insert? row) "UNIQUE constraint failed: jobs.id"
    return (row,{ q with jobs })

end Enqueue

/-- The lease of the job has run out. -/
def expired (now : ℤ) (j : JobRow) : Bool := j.status = .running ∧ j.leaseExpiresAt.any (· ≤ now)

/-- The job whose lease ran out goes back to the queue, or out of it. -/
def recoverLease (now : ℤ) (j : JobRow) (q : JobQueue) : Except String JobQueue := do
  let status : JobStatus :=
    if j.cancelRequested then .cancelled else if j.attemptCount ≥ j.maxAttempts then .deadLetter else .queued
  let error := if j.cancelRequested then none else some "Lease expired"
  let a := q.finishAttempt j.id j.fencingToken now (if j.cancelRequested then .cancelled else .failed) error none
  reject (a.1 ≠ 1) "Expired attempt missing or already finalized"
  let x := a.2.updateJob j.id (fun old => old.status = .running ∧ old.fencingToken = j.fencingToken)
    fun old => { old with status, workerId := none, leaseExpiresAt := none, error, updatedAt := now }
  reject (x.1 = false) "Lease recovery fencing conflict"
  return x.2

/-- The loop of `claim` over the leases that ran out; each turn recovers one. -/
def recoverLeases (now : ℤ) : ℕ → JobQueue → Except String JobQueue
  | 0, _ => throw "unreachable"
  | turns + 1, q =>
    match q.first (expired now) with
    | some j => do
      let q ← recoverLease now j q
      recoverLeases now turns q
    | none => return q

def claimable (now : ℤ) (j : JobRow) : Bool :=
  (j.status = .queued ∨ j.status = .scheduled) ∧ j.scheduledAt ≤ now ∧ j.attemptCount < j.maxAttempts

/-- A queue that is draining hands nothing out. -/
def claim (workerId : String) (leaseMs now : ℤ) (draining : Bool) (q : JobQueue) :
    Except String (Option Lease × JobQueue) := do
  if draining then return (none,q)
  else
    validText workerId "worker id" false
    reject (maxSafe < leaseMs ∨ leaseMs ≤ 0) "Invalid lease"
    validClock now
    reject (maxSafe < now + leaseMs) "Invalid lease"
    let q ← recoverLeases now (q.jobs.rows.length + 1) q
    match q.first fun j => j.cancelRequested = false ∧ claimable now j with
    | none => return (none,q)
    | some r => do
      let x := q.updateJob r.id (claimable now) fun old =>
        { old with status := .running, workerId := some workerId, fencingToken := old.fencingToken + 1
                   leaseExpiresAt := some (now + leaseMs), attemptCount := old.attemptCount + 1, updatedAt := now }
      reject (x.1 = false) "Claim fencing conflict"
      let row ← required (x.2.jobs.find? r.id) "Cannot read properties of undefined"
      let attempt : AttemptRow := ⟨row.id,row.attemptCount,workerId,row.fencingToken,now,none,none,none,none⟩
      reject (∃ a ∈ x.2.attempts, a.jobId = attempt.jobId ∧ a.number = attempt.number)
        "UNIQUE constraint failed: job_attempts.job_id, job_attempts.number"
      return (some ⟨row,workerId,row.fencingToken,now + leaseMs⟩,{ x.2 with attempts := x.2.attempts ++ [attempt] })

/-- The job runs under this lease, which has not run out. -/
def holds (l : Lease) (now : ℤ) (j : JobRow) : Bool :=
  j.status = .running ∧ j.workerId = some l.workerId ∧ j.fencingToken = l.fencingToken ∧ j.leaseExpiresAt.any (· > now)

def heartbeat (l : Lease) (leaseMs now : ℤ) (q : JobQueue) : Except String (Bool × JobQueue) := do
  reject (maxSafe < leaseMs ∨ leaseMs ≤ 0) "Invalid lease"
  validClock now
  reject (maxSafe < now + leaseMs) "Invalid lease"
  return q.updateJob l.job.id (fun j => holds l now j ∧ j.cancelRequested = false) fun j =>
    { j with leaseExpiresAt := some (now + leaseMs), updatedAt := now }

/-- A job that has succeeded answers `complete` before anything else is looked at. -/
def completeEarly (l : Lease) (resultRef : Option String) (q : JobQueue) : Option Bool :=
  match q.jobs.find? l.job.id with
  | some j => if j.status = .succeeded then some (j.resultRef = resultRef) else none
  | none => none

def completeTx (l : Lease) (resultRef : Option String) (now : ℤ) (q : JobQueue) : Except String (Bool × JobQueue) :=
  match (q.jobs.find? l.job.id).filter (holds l now) with
  | none => return (false,q)
  | some r => do
    let status : JobStatus := if r.cancelRequested then .cancelled else .succeeded
    let result := if r.cancelRequested then none else resultRef
    let x := q.updateJob l.job.id (holds l now) fun j =>
      { j with status, resultRef := result, workerId := none, leaseExpiresAt := none, updatedAt := now }
    if x.1 = false then return (false,x.2)
    else
      let a := x.2.finishAttempt l.job.id l.fencingToken now (if r.cancelRequested then .cancelled else .succeeded)
        none result
      reject (a.1 ≠ 1) "Attempt finalization failed"
      return (!r.cancelRequested,a.2)

/-- `seen` is the queue that the first read met; the transaction finds `q`. -/
def complete (l : Lease) (resultRef : Option String) (now : ℤ) (seen q : JobQueue) : Except String (Bool × JobQueue) := do
  givenText resultRef "result reference" true
  match seen.completeEarly l resultRef with
  | some answer => return (answer,q)
  | none => do
    validClock now
    completeTx l resultRef now q

/-- `delay` is the backoff of the next attempt, a product of floating point numbers. -/
def fail (l : Lease) (error : String) (now delay : ℤ) (q : JobQueue) : Except String (Bool × JobQueue) := do
  validText error "error" true
  validClock now
  match (q.jobs.find? l.job.id).filter (holds l now) with
  | none => return (false,q)
  | some r => do
    let status : JobStatus :=
      if r.cancelRequested then .cancelled else if r.attemptCount ≥ r.maxAttempts then .deadLetter else .scheduled
    reject (status = .scheduled ∧ (maxSafe < now + delay ∨ now + delay < -maxSafe)) "Retry backoff overflow"
    let x := q.updateJob l.job.id (holds l now) fun j =>
      { j with status, scheduledAt := if status = .scheduled then now + delay else now, error := some error
               workerId := none, leaseExpiresAt := none, updatedAt := now }
    if x.1 = false then return (false,x.2)
    else
      let a := x.2.finishAttempt l.job.id l.fencingToken now (if status = .cancelled then .cancelled else .failed)
        (some error) none
      reject (a.1 ≠ 1) "Attempt finalization failed"
      return (true,a.2)

def final (status : JobStatus) : Bool :=
  status = .succeeded ∨ status = .failed ∨ status = .cancelled ∨ status = .deadLetter

def cancel (id : String) (now : ℤ) (q : JobQueue) : Except String (Bool × JobQueue) := do
  validClock now
  match q.jobs.find? id with
  | none => return (false,q)
  | some r =>
    if final r.status then return (false,q)
    else if r.status = .running then
      return (true,(q.updateJob id (fun j => j.status = .running) fun j =>
        { j with cancelRequested := true, updatedAt := now }).2)
    else return (true,(q.updateJob id (fun j => j.status = .queued ∨ j.status = .scheduled) fun j =>
      { j with status := .cancelled, cancelRequested := true, updatedAt := now }).2)

end JobQueue

end RatifyOs.Autonomy
