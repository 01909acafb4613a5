import RatifyOs.Async.Shared
import RatifyOs.Data.Table
import RatifyOs.Execution.Canonical

/-! `SessionStore`: sessions and their branches, messages, runs, tool exchanges and financial
evidence, each written once. -/
namespace RatifyOs.Storage
open Data Async
open Async.Program (call ofOption reject)

inductive MessageRole where
  | user
  | assistant
  | system
  | tool
  deriving DecidableEq

/-- `Exclude<RunStatus,"running">` -/
inductive Completion where
  | completed
  | failed
  | cancelled
  deriving DecidableEq

inductive RunStatus where
  | running
  | finished (how : Completion)
  deriving DecidableEq

structure Session where
  id : String
  title : Option String
  parentSessionId : Option String
  parentMessageId : Option String
  createdAt : ℤ
  deriving DecidableEq

structure Message where
  id : String
  sessionId : String
  role : MessageRole
  content : String
  createdAt : ℤ
  sequence : ℕ
  deriving DecidableEq

structure Run where
  id : String
  sessionId : String
  status : RunStatus
  startedAt : ℤ
  finishedAt : Option ℤ
  deriving DecidableEq

structure ToolCall where
  id : String
  sessionId : String
  messageId : String
  toolName : String
  arguments : Json
  createdAt : ℤ

structure ToolResult where
  id : String
  toolCallId : String
  output : Json
  createdAt : ℤ
  evidenceRef : Option String

structure FinancialEvidence where
  id : String
  payload : Json
  sha256 : String
  createdAt : ℤ

structure NewSession where
  id : String
  title : Option String
  parentSessionId : Option String
  parentMessageId : Option String
  createdAt : Option ℤ

structure NewMessage where
  id : String
  sessionId : String
  role : MessageRole
  content : String
  createdAt : ℤ

structure NewRun where
  id : String
  sessionId : String
  status : RunStatus
  startedAt : ℤ

/-- A text that `canonical` has written. -/
structure CanonicalText where
  text : Text
  written : ∃ v, Execution.Distinct v ∧ Execution.canonicalSerialize v = text

/-- `canonical(v)`; no object of a value has a key twice. -/
def canonical (v : Json) (distinct : Execution.Distinct v) : CanonicalText :=
  ⟨Execution.canonicalSerialize v,v,distinct,rfl⟩

/-- An error of the store, or a constraint of the schema that failed. -/
inductive SessionError where
  | thrown (message : String)
  | constraint (message : String)
  deriving DecidableEq

/-- A row of `sessions`; by its CHECK it has both columns of the parent or none. -/
structure SessionRow where
  id : String
  title : Option String
  branch : Option (String × String)
  createdAt : ℤ
  deriving DecidableEq

/-- A row of `runs`; by its CHECK it has a time of its end where it is not running. -/
structure RunRow where
  id : String
  sessionId : String
  startedAt : ℤ
  finished : Option (Completion × ℤ)
  deriving DecidableEq

structure ToolCallRow where
  id : String
  sessionId : String
  messageId : String
  toolName : String
  argumentsJson : CanonicalText
  createdAt : ℤ

structure EvidenceRow where
  id : String
  payloadJson : CanonicalText
  sha256 : String
  createdAt : ℤ

structure ToolResultRow where
  id : String
  toolCallId : String
  outputJson : CanonicalText
  createdAt : ℤ
  evidenceRef : Option String

/-- `messages`, in the order of their AUTOINCREMENT. -/
structure Messages where
  table : Table Message.id
  last : ℕ
  ordered : table.rows.Pairwise fun m m' => m.sequence < m'.sequence
  bounded : ∀ m ∈ table.rows, m.sequence ≤ last

namespace Messages

def empty : Messages := ⟨Table.empty,0,.nil,by simp⟩

def add? (t : Messages) (i : NewMessage) : Option Messages :=
  match added : t.table.insert? ⟨i.id,i.sessionId,i.role,i.content,i.createdAt,t.last + 1⟩ with
  | none => none
  | some table => some ⟨table,t.last + 1,by
      rw [(Table.insert?_eq_some_iff.mp added).2,List.pairwise_append]
      refine ⟨t.ordered,List.pairwise_singleton _ _,fun m inside m' single => ?_⟩
      rw [List.mem_singleton] at single
      exact single ▸ Nat.lt_succ_of_le (t.bounded m inside),by
      rw [(Table.insert?_eq_some_iff.mp added).2]
      intro m inside
      obtain old | single := List.mem_append.mp inside
      · exact Nat.le_succ_of_le (t.bounded m old)
      · exact Nat.le_of_eq (List.mem_singleton.mp single ▸ rfl)⟩

/-- `SELECT * FROM messages WHERE session_id=? ORDER BY sequence` -/
def of (t : Messages) (sessionId : String) : List Message := t.table.select fun m => m.sessionId = sessionId

/-- Whether there is a row that a pair of columns refers to. -/
def has (t : Messages) (sessionId messageId : String) : Bool :=
  (t.table.find? messageId).any fun m => m.sessionId = sessionId

end Messages

structure SessionTables where
  sessions : Table SessionRow.id
  messages : Messages
  runs : Table RunRow.id
  toolCalls : Table ToolCallRow.id
  evidence : Table EvidenceRow.id
  toolResults : Table ToolResultRow.id

def SessionTables.empty : SessionTables := ⟨Table.empty,Messages.empty,Table.empty,Table.empty,Table.empty,Table.empty⟩

inductive Stmt where
  | now
  | insertSession (i : NewSession) (createdAt : ℤ)
  | selectSession (id : String)
  | insertMessage (i : NewMessage)
  | selectMessage (id : String)
  | insertRun (i : NewRun)
  | selectRun (id : String)
  | updateRun (id : String) (status : Completion) (finishedAt : ℤ)
  | insertEvidence (row : EvidenceRow)
  | selectEvidence (id : String)
  | insertToolCall (row : ToolCallRow)
  | insertToolResult (row : ToolResultRow)
  | selectToolExchange (id : String)

abbrev StmtAnswer : Stmt → Type
  | .now => ℤ
  | .selectSession _ => Option SessionRow
  | .selectMessage _ => Option Message
  | .selectRun _ => Option RunRow
  | .selectEvidence _ => Option EvidenceRow
  | .selectToolExchange _ => Option (ToolCallRow × Option ToolResultRow)
  | _ => Unit

section Insert
variable {κ ρ : Type} {key : ρ → κ} [DecidableEq κ]

def check : SessionError := .constraint "CHECK constraint failed"

def foreignKey : SessionError := .constraint "FOREIGN KEY constraint failed"

/-- `INSERT … ON CONFLICT DO NOTHING` of a row that may be unique in another column too, and
may refer to other rows. -/
def insertOrIgnore (t : Table key) (r : ρ) (unique references : Bool) : Except SessionError (Table key) :=
  match t.insert? r with
  | none => .ok t
  | some u => if unique then if references then .ok u else .error foreignKey else .ok t

end Insert

namespace SessionTables
variable (d : SessionTables)

/-- `CHECK((parent_session_id IS NULL)=(parent_message_id IS NULL))` -/
def branchOf (i : NewSession) : Except SessionError (Option (String × String)) :=
  match i.parentSessionId,i.parentMessageId with
  | some session,some message => .ok (some (session,message))
  | none,none => .ok none
  | _,_ => .error check

def insertSession (i : NewSession) (createdAt : ℤ) : Except SessionError SessionTables := do
  let branch ← branchOf i
  let sessions ← insertOrIgnore d.sessions ⟨i.id,i.title,branch,createdAt⟩ true (branch.all fun b => d.messages.has b.1 b.2)
  return { d with sessions }

def insertMessage (i : NewMessage) : Except SessionError SessionTables :=
  match d.messages.add? i with
  | none => .ok d
  | some messages => if (d.sessions.find? i.sessionId).isSome then .ok { d with messages } else .error foreignKey

def insertRun (i : NewRun) : Except SessionError SessionTables := do
  if i.status ≠ .running then throw check
  let runs ← insertOrIgnore d.runs ⟨i.id,i.sessionId,i.startedAt,none⟩ true (d.sessions.find? i.sessionId).isSome
  return { d with runs }

/-- `UPDATE runs SET status=?,finished_at=? WHERE id=? AND finished_at IS NULL` -/
def updateRun (id : String) (status : Completion) (finishedAt : ℤ) : SessionTables :=
  match d.runs.find? id with
  | some r => if r.finished = none then { d with runs := d.runs.put { r with finished := some (status,finishedAt) } } else d
  | none => d

def insertEvidence (r : EvidenceRow) : Except SessionError SessionTables := do
  let evidence ← insertOrIgnore d.evidence r (d.evidence.rows.all fun other => other.sha256 ≠ r.sha256) true
  return { d with evidence }

def insertToolCall (r : ToolCallRow) : Except SessionError SessionTables := do
  let toolCalls ← insertOrIgnore d.toolCalls r true (d.messages.has r.sessionId r.messageId)
  return { d with toolCalls }

def resultOf (toolCallId : String) : Option ToolResultRow := d.toolResults.rows.find? fun r => r.toolCallId = toolCallId

def insertToolResult (r : ToolResultRow) : Except SessionError SessionTables := do
  let toolResults ← insertOrIgnore d.toolResults r (d.resultOf r.toolCallId).isNone
    ((d.toolCalls.find? r.toolCallId).isSome ∧ r.evidenceRef.all fun ref => (d.evidence.find? ref).isSome)
  return { d with toolResults }

end SessionTables

/-- A statement that writes, or fails and leaves the data as they are. -/
def written (d : SessionTables) (result : Except SessionError SessionTables) : Except SessionError Unit × SessionTables :=
  match result with
  | .ok d => (.ok (),d)
  | .error error => (.error error,d)

def meaning (now : ℤ) : (stmt : Stmt) → SessionTables → Except SessionError (StmtAnswer stmt) × SessionTables
  | .now, d => (.ok now,d)
  | .insertSession i createdAt, d => written d (d.insertSession i createdAt)
  | .selectSession id, d => (.ok (d.sessions.find? id),d)
  | .insertMessage i, d => written d (d.insertMessage i)
  | .selectMessage id, d => (.ok (d.messages.table.find? id),d)
  | .insertRun i, d => written d (d.insertRun i)
  | .selectRun id, d => (.ok (d.runs.find? id),d)
  | .updateRun id status finishedAt, d => (.ok (),d.updateRun id status finishedAt)
  | .insertEvidence r, d => written d (d.insertEvidence r)
  | .selectEvidence id, d => (.ok (d.evidence.find? id),d)
  | .insertToolCall r, d => written d (d.insertToolCall r)
  | .insertToolResult r, d => written d (d.insertToolResult r)
  | .selectToolExchange id, d => (.ok ((d.toolCalls.find? id).map fun c => (c,d.resultOf id)),d)

abbrev SessionProgram (α : Type) := Program Stmt StmtAnswer SessionError α

def query (stmt : Stmt) : SessionProgram (StmtAnswer stmt) := call stmt

/-- `JSON.parse` -/
def parse (t : CanonicalText) : SessionProgram Json := ofOption (Json.parse t.text) (.thrown "Unexpected token in JSON")

def sessionOf (r : SessionRow) : Session := ⟨r.id,r.title,r.branch.map Prod.fst,r.branch.map Prod.snd,r.createdAt⟩

def runOf (r : RunRow) : Run := ⟨r.id,r.sessionId,(r.finished.map fun f => .finished f.1).getD .running,r.startedAt,r.finished.map Prod.snd⟩

namespace SessionStore

def getSession (id : String) : SessionProgram (Option Session) := do
  let r ← query (.selectSession id)
  return r.map sessionOf

def createSession (i : NewSession) : SessionProgram Session := do
  let at_ ← match i.createdAt with
    | some at_ => pure at_
    | none => query .now
  query (.insertSession i at_)
  let found ← getSession i.id
  let s ← ofOption found (.thrown ("Session id conflict: " ++ i.id))
  reject (s.title ≠ i.title ∨ s.parentSessionId ≠ i.parentSessionId ∨ s.parentMessageId ≠ i.parentMessageId ∨ s.createdAt ≠ at_)
    (.thrown ("Session id conflict: " ++ i.id))
  return s

def branchSession (id parentSessionId parentMessageId : String) (title : Option String) (createdAt : Option ℤ) :
    SessionProgram Session :=
  createSession ⟨id,title,some parentSessionId,some parentMessageId,createdAt⟩

def appendMessage (i : NewMessage) : SessionProgram Message := do
  query (.insertMessage i)
  let found ← query (.selectMessage i.id)
  let r ← ofOption found (.thrown ("Message id conflict: " ++ i.id))
  reject (r.sessionId ≠ i.sessionId ∨ r.role ≠ i.role ∨ r.content ≠ i.content ∨ r.createdAt ≠ i.createdAt)
    (.thrown ("Message id conflict: " ++ i.id))
  return r

def getRun (id : String) : SessionProgram (Option Run) := do
  let r ← query (.selectRun id)
  return r.map runOf

def createRun (i : NewRun) : SessionProgram Run := do
  query (.insertRun i)
  let found ← getRun i.id
  let r ← ofOption found (.thrown ("Run id conflict: " ++ i.id))
  reject (r.sessionId ≠ i.sessionId ∨ r.status ≠ i.status ∨ r.startedAt ≠ i.startedAt) (.thrown ("Run id conflict: " ++ i.id))
  return r

def finishRun (id : String) (status : Completion) (finishedAt : ℤ) : SessionProgram (Option Run) := do
  let found ← getRun id
  let old ← ofOption found (.thrown ("Unknown run: " ++ id))
  match old.finishedAt with
  | some time => do
    reject (old.status ≠ .finished status ∨ time ≠ finishedAt) (.thrown ("Run completion conflict: " ++ id))
    return some old
  | none => do
    query (.updateRun id status finishedAt)
    getRun id

section Evidence
variable (sha256 : Text → String)

def recordFinancialEvidence (id : String) (payload : Json) (distinct : Execution.Distinct payload) (createdAt : ℤ) :
    SessionProgram FinancialEvidence := do
  let p := canonical payload distinct
  query (.insertEvidence ⟨id,p,sha256 p.text,createdAt⟩)
  let found ← query (.selectEvidence id)
  let r ← ofOption found (.thrown ("Evidence id conflict: " ++ id))
  reject (r.payloadJson.text ≠ p.text ∨ r.createdAt ≠ createdAt) (.thrown ("Evidence id conflict: " ++ id))
  return ⟨id,← parse p,sha256 p.text,createdAt⟩

end Evidence

structure ToolExchange where
  call : ToolCall
  result : Option ToolResult

def toolResultOf (toolCallId : String) : Option ToolResultRow → SessionProgram (Option ToolResult)
  | none => return none
  | some r => return some ⟨r.id,toolCallId,← parse r.outputJson,r.createdAt,r.evidenceRef⟩

def getToolExchange (id : String) : SessionProgram (Option ToolExchange) := do
  match ← query (.selectToolExchange id) with
  | none => return none
  | some (c,r) => do
    let arguments ← parse c.argumentsJson
    return some ⟨⟨c.id,c.sessionId,c.messageId,c.toolName,arguments,c.createdAt⟩,← toolResultOf id r⟩

def recordToolCall (i : ToolCall) (distinct : Execution.Distinct i.arguments) : SessionProgram ToolCall := do
  let a := canonical i.arguments distinct
  query (.insertToolCall ⟨i.id,i.sessionId,i.messageId,i.toolName,a,i.createdAt⟩)
  let found ← getToolExchange i.id
  let c ← ofOption (found.map ToolExchange.call) (.thrown ("Tool call id conflict: " ++ i.id))
  reject (c.sessionId ≠ i.sessionId ∨ c.messageId ≠ i.messageId ∨ c.toolName ≠ i.toolName ∨
      Execution.canonicalSerialize c.arguments ≠ a.text ∨ c.createdAt ≠ i.createdAt)
    (.thrown ("Tool call id conflict: " ++ i.id))
  return c

def recordToolResult (i : ToolResult) (distinct : Execution.Distinct i.output) : SessionProgram ToolResult := do
  let o := canonical i.output distinct
  query (.insertToolResult ⟨i.id,i.toolCallId,o,i.createdAt,i.evidenceRef⟩)
  let found ← getToolExchange i.toolCallId
  let r ← ofOption (found.bind ToolExchange.result) (.thrown ("Tool result conflict: " ++ i.toolCallId))
  reject (r.id ≠ i.id ∨ Execution.canonicalSerialize r.output ≠ o.text ∨ r.createdAt ≠ i.createdAt ∨ r.evidenceRef ≠ i.evidenceRef)
    (.thrown ("Tool result conflict: " ++ i.toolCallId))
  return r

end SessionStore

end RatifyOs.Storage
