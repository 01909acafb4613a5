import RatifyOs.Data.Regex
import RatifyOs.Async.Transactions
import RatifyOs.Data.Table
import RatifyOs.Execution.Canonical

/-! `MemoryStore`, and the patterns that keep credentials out of it. -/
namespace RatifyOs.Memory
open Data.Regex

def secretPatterns : List Data.Regex := [
  sequence [literal "-----BEGIN ",optional (oneOf [literal "RSA ",literal "EC ",literal "OPENSSH "]),
    literal "PRIVATE KEY-----"],
  sequence [.boundary,literal "Bearer",.atLeast 1 blank,.atLeast 20 (alphanumericOr "._~+/=-")],
  sequence [.boundary,oneOf [sequence [literal "api",optional (anyOf "_-"),literal "key"],literal "secret",
      literal "password",literal "passwd",sequence [literal "private",optional (anyOf "_-"),literal "key"]],
    .atLeast 0 blank,anyOf ":=",.atLeast 0 blank,.atLeast 1 (blackExcept "")],
  sequence [.boundary,literal "sk-",.atLeast 20 (alphanumericOr "_-"),.boundary],
  sequence [.boundary,oneOf [literal "ghp",literal "github_pat"],literal "_",.atLeast 20 (alphanumericOr "_"),.boundary],
  sequence [.boundary,oneOf [sequence [literal "postgres",optional (literal "ql")],literal "mysql",
      sequence [literal "mongodb",optional (literal "+srv")],literal "redis"],
    literal "://",.atLeast 1 (blackExcept ":@/"),literal ":",.atLeast 1 (blackExcept "@/"),literal "@"]]

/-- Whether a text is taken for a secret. -/
def secret (text : String) : Bool := secretPatterns.any fun pattern => pattern.test text

example : secret "the password: hunter2 is old" = true := by decide
example : secret "passwords are kept elsewhere" = false := by decide

/-! Curated entries under one revision, changed a batch at a time. -/
open Data Async Async.Transactions
open Async.Program (call ofOption reject)

inductive MemoryNamespace where
  | user
  | agent
  deriving DecidableEq

namespace MemoryNamespace

def text : MemoryNamespace → String
  | user => "user"
  | agent => "agent"

def ofText (text : String) : Option MemoryNamespace :=
  if text = "user" then some user else if text = "agent" then some agent else none

end MemoryNamespace

structure Provenance where
  source : String

structure MemoryEntry where
  id : String
  namespace_ : MemoryNamespace
  value : String
  normalizedValue : String
  provenance : Provenance
  createdAt : ℤ
  updatedAt : ℤ

/-- The `entry` of an operation, whose namespace is any string. -/
structure EntryInput where
  namespace_ : String
  value : String
  provenance : Provenance

inductive MemoryOperation where
  | add (entry : EntryInput)
  | replace (id : String) (entry : EntryInput)
  | remove (id : String) (namespace_ : Option String)

inductive ErrorCode where
  | REVISION_CONFLICT
  | SECRET_DETECTED
  | DUPLICATE
  | BUDGET_EXCEEDED
  | INVALID_OPERATION
  | CORRUPT_DATA
  deriving DecidableEq

/-- What is thrown: the store's own error, one of the database with its `errcode`, or what the
clock throws. -/
inductive MemoryError where
  | store (code : ErrorCode) (message : String)
  | sqlite (errcode : ℕ) (message : String)
  | other (message : String)
  deriving DecidableEq

def invalid (message : String) : MemoryError := .store .INVALID_OPERATION message

def corrupt : MemoryError := .store .CORRUPT_DATA "Corrupt durable memory data"

def busy : MemoryError := .sqlite 5 "database is locked"

def misuse : MemoryError := .sqlite 1 "no transaction is active"

def MAX_VALUE_BYTES : ℕ := 64 * 1024

def MAX_SOURCE_BYTES : ℕ := 1024

/-- `safeInteger(n)`, with the integer. -/
def safeInteger (n : Json) : Option ℤ := (Execution.safeInteger n).filter fun n => 0 ≤ n

/-- What a connection is opened with, and what the platform does to a text. -/
structure Settings where
  budgets : MemoryNamespace → ℕ
  nfkc : String → String
  toLocaleLowerCase : String → String

structure Clean where
  value : String
  normalized : String
  provenance : Provenance

section Validate
variable (s : Settings)

def normalize (value : String) : String := s.nfkc (String.ofList (Text.squeeze (Text.trim value.toList)))

def validate (entry : EntryInput) : Except MemoryError Clean := do
  if entry.namespace_ = "policy" then throw (invalid "Policy memory namespace is forbidden")
  if MemoryNamespace.ofText entry.namespace_ = none then throw (invalid "Invalid memory namespace")
  if entry.value.utf8ByteSize > MAX_VALUE_BYTES then throw (invalid "Memory value is invalid or too large")
  if entry.provenance.source.utf8ByteSize > MAX_SOURCE_BYTES then
    throw (invalid "Memory provenance is invalid or too large")
  let value := normalize s entry.value
  let source := normalize s entry.provenance.source
  if value = "" then throw (invalid "Memory value is empty")
  if source = "" then throw (invalid "Memory provenance is required")
  if secret value ∨ secret source then
    throw (.store .SECRET_DETECTED
      "Potential secret or credential detected by defense-in-depth scanning; memory was not stored")
  return ⟨value,s.nfkc (s.toLocaleLowerCase value),⟨source⟩⟩

end Validate

/-- A row of `curated_memory` -/
structure MemoryRow where
  id : String
  namespace_ : MemoryNamespace
  value : String
  normalizedValue : String
  provenanceJson : Text
  createdAt : ℤ
  updatedAt : ℤ

/-- `UNIQUE(namespace,normalized_value)` -/
def MemoryRow.slot (r : MemoryRow) : MemoryNamespace × String := (r.namespace_,r.normalizedValue)

structure Curated where
  table : Table MemoryRow.id
  unique : (table.rows.map MemoryRow.slot).Nodup

namespace Curated

def empty : Curated := ⟨Table.empty,List.nodup_nil⟩

def insert (t : Curated) (r : MemoryRow) : Except MemoryError Curated :=
  match inserted : t.table.insert? r with
  | none => .error (.sqlite 1555 "UNIQUE constraint failed: curated_memory.id")
  | some table =>
    if taken : r.slot ∈ t.table.rows.map MemoryRow.slot then
      .error (.sqlite 2067 "UNIQUE constraint failed: curated_memory.namespace, curated_memory.normalized_value")
    else .ok ⟨table,by
      rw [(Table.insert?_eq_some_iff.mp inserted).2,List.map_append,List.nodup_append]
      refine ⟨t.unique,by simp,?_⟩
      intro a inside b single same
      simp only [List.map_cons,List.map_nil,List.mem_singleton] at single
      exact taken (single ▸ same ▸ inside)⟩

/-- `UPDATE … WHERE id=?` -/
def update (t : Curated) (r : MemoryRow) : Except MemoryError Curated :=
  if unique : ((t.table.put r).rows.map MemoryRow.slot).Nodup then .ok ⟨t.table.put r,unique⟩
  else .error (.sqlite 2067 "UNIQUE constraint failed: curated_memory.namespace, curated_memory.normalized_value")

/-- `DELETE … WHERE NOT p` -/
def keep (t : Curated) (p : MemoryRow → Bool) : Curated :=
  ⟨t.table.keep p,t.unique.sublist (List.filter_sublist.map MemoryRow.slot)⟩

/-- `SELECT * FROM curated_memory … ORDER BY rowid` -/
def select (t : Curated) (namespace_ : Option MemoryNamespace) : List MemoryRow :=
  t.table.select fun r => namespace_.all fun n => r.namespace_ = n

end Curated

/-- `memory_meta` and `curated_memory` -/
structure MemoryTables where
  revision : ℤ
  entries : Curated

def MemoryTables.empty : MemoryTables := ⟨0,.empty⟩

/-- What a batch asks of the database, the clock and the random source. -/
inductive Stmt where
  | revision
  | delete (id : String) (namespace_ : Option String)
  | namespaceOf (id : String)
  | insert (row : MemoryRow)
  | update (id value normalizedValue : String) (provenanceJson : Text) (updatedAt : ℤ)
  | select (namespace_ : Option MemoryNamespace)
  | setRevision (revision : ℤ)
  | now
  | randomUUID

abbrev StmtAnswer : Stmt → Type
  | .revision => ℤ
  | .delete _ _ => ℕ
  | .namespaceOf _ => Option MemoryNamespace
  | .select _ => List MemoryRow
  | .now => Json
  | .randomUUID => String
  | _ => Unit

/-- What the clock says, or throws, and what the random source draws. -/
structure Draw where
  now : Except MemoryError Json
  uuid : String

/-- Whether `DELETE` with these arguments means the row. -/
def meant (id : String) (namespace_ : Option String) (r : MemoryRow) : Bool :=
  r.id = id ∧ namespace_.all fun n => r.namespace_.text = n

def meaning (draw : Draw) : (stmt : Stmt) → MemoryTables → Except MemoryError (StmtAnswer stmt) × MemoryTables
  | .revision, d => (if Execution.SafeInteger d.revision then .ok d.revision else .error (.other "ERR_OUT_OF_RANGE"),d)
  | .delete id namespace_, d =>
    (.ok (d.entries.table.rows.filter (meant id namespace_)).length,
      { d with entries := d.entries.keep fun r => !meant id namespace_ r })
  | .namespaceOf id, d => (.ok ((d.entries.table.find? id).map MemoryRow.namespace_),d)
  | .insert r, d =>
    match d.entries.insert r with
    | .ok entries => (.ok (),{ d with entries })
    | .error error => (.error error,d)
  | .update id value normalizedValue provenanceJson updatedAt, d =>
    match d.entries.table.find? id with
    | none => (.ok (),d)
    | some r =>
      match d.entries.update { r with value, normalizedValue, provenanceJson, updatedAt } with
      | .ok entries => (.ok (),{ d with entries })
      | .error error => (.error error,d)
  | .select namespace_, d => (.ok (d.entries.select namespace_),d)
  | .setRevision revision, d => (.ok (),{ d with revision })
  | .now, d => (draw.now,d)
  | .randomUUID, d => (.ok draw.uuid,d)

abbrev MemoryProgram (α : Type) := Script StmtAnswer MemoryError α

def query (stmt : Stmt) : MemoryProgram (StmtAnswer stmt) := call (Op.statement stmt)

/-- `JSON.stringify(provenance)` -/
def written (p : Provenance) : Text := Execution.stringify (.obj [("source",.str p.source)])

def provenanceOf : Json → Option Provenance
  | .obj [("source",.str source)] => some ⟨source⟩
  | _ => none

def rowEntry (r : MemoryRow) : Except MemoryError MemoryEntry :=
  match (Json.parse r.provenanceJson).bind provenanceOf,safeInteger (.num r.createdAt),safeInteger (.num r.updatedAt) with
  | some provenance,some createdAt,some updatedAt =>
    .ok ⟨r.id,r.namespace_,r.value,r.normalizedValue,provenance,createdAt,updatedAt⟩
  | _,_,_ => .error corrupt

structure BatchResult where
  revision : ℤ
  entries : List MemoryEntry

namespace MemoryStore
variable (s : Settings)

def revision : MemoryProgram ℤ := do
  let n ← query .revision
  ofOption (safeInteger (.num n)) corrupt

def list (namespace_ : Option MemoryNamespace) : MemoryProgram (List MemoryEntry) := do
  let rows ← query (.select namespace_)
  Program.ofExcept (rows.mapM rowEntry)

/-- The `try` around `INSERT` and `UPDATE` -/
def duplicate (error : MemoryError) : MemoryProgram Unit :=
  match error with
  | .sqlite 2067 _ => throw (.store .DUPLICATE "Duplicate normalized memory entry")
  | error => throw error

def add (namespace_ : MemoryNamespace) (clean : Clean) (at_ : ℤ) : MemoryProgram Unit := do
  let id ← query .randomUUID
  query (.insert ⟨id,namespace_,clean.value,clean.normalized,written clean.provenance,at_,at_⟩)

def replace (id : String) (namespace_ : MemoryNamespace) (clean : Clean) (at_ : ℤ) : MemoryProgram Unit := do
  let found ← query (.namespaceOf id)
  let current ← ofOption found (invalid ("Unknown memory entry: " ++ id))
  reject (current ≠ namespace_) (invalid "Cross-namespace replacement is forbidden")
  query (.update id clean.value clean.normalized (written clean.provenance) at_)

/-- An operation that carries an entry, which `store` writes. -/
def put (entry : EntryInput) (store : MemoryNamespace → Clean → ℤ → MemoryProgram Unit) : MemoryProgram Unit := do
  let clean ← Program.ofExcept (validate s entry)
  let namespace_ ← ofOption (MemoryNamespace.ofText entry.namespace_) (invalid "Invalid memory namespace")
  let now ← query .now
  let at_ ← ofOption (safeInteger now) (invalid "Memory timestamp must be a nonnegative safe integer")
  tryCatch (store namespace_ clean at_) duplicate

def operation : MemoryOperation → MemoryProgram Unit
  | .remove id namespace_ => do
    let changes ← query (.delete id (namespace_.filter (· ≠ "")))
    reject (changes ≠ 1) (invalid ("Unknown memory entry: " ++ id))
  | .add entry => put s entry add
  | .replace id entry => put s entry (replace id)

def bytes (e : MemoryEntry) : ℕ :=
  (e.id ++ e.namespace_.text ++ e.value ++ e.normalizedValue ++ String.ofList (written e.provenance)).utf8ByteSize + 16

def checkBudget (namespace_ : MemoryNamespace) : MemoryProgram Unit := do
  let entries ← list (some namespace_)
  reject ((entries.map bytes).sum > s.budgets namespace_)
    (.store .BUDGET_EXCEEDED (namespace_.text ++ " memory byte budget exceeded"))

def applyBatch (expectedRevision : Json) (operations : List MemoryOperation) : MemoryProgram BatchResult := do
  let expected ← ofOption (safeInteger expectedRevision) (invalid "Expected revision must be a nonnegative safe integer")
  reject (operations = []) (invalid "Empty memory batch")
  call Op.begin_
  tryCatch (do
    let current ← revision
    reject (current ≠ expected) (.store .REVISION_CONFLICT "Memory revision conflict")
    operations.forM (operation s)
    [MemoryNamespace.user,.agent].forM (checkBudget s)
    query (.setRevision (expected + 1))
    call Op.commit
    return ⟨expected + 1,← list none⟩) fun error => do
      tryCatch (call Op.rollback) fun _ => pure ()
      throw error

/-- The calls of `applyBatch` on a database, whatever their connections. -/
abbrev Batches := Site StmtAnswer MemoryError BatchResult (Json × List MemoryOperation) MemoryTables

def step (c : Batches) (event : Transactions.Event (Json × List MemoryOperation) Draw) : Batches :=
  Transactions.step (fun args => applyBatch s args.1 args.2) meaning busy misuse c event

def run (events : List (Transactions.Event (Json × List MemoryOperation) Draw)) : Batches :=
  Run.run (step s) (Site.initial .empty) events

end MemoryStore

end RatifyOs.Memory
