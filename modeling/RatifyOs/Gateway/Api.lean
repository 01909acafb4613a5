import RatifyOs.Data.Double
import RatifyOs.Data.Json
import RatifyOs.Data.Run
import RatifyOs.Data.Table

/-! `createAgentApi`: the run routes over a `MemoryRunStore`, as the requests of any principals
interleave with the background tasks of the runs. -/
namespace RatifyOs.Gateway.Api
open Data

structure Principal where
  subject : String
  tenantId : String
  scopes : List String

structure RunInput where
  sessionId : String
  input : String

structure RunEvent where
  id : ℕ
  type : String
  data : Json

inductive RunStatus where
  | running
  | completed
  | failed
  | cancelled
  deriving DecidableEq

structure Run where
  id : String
  tenantId : String
  subject : String
  sessionId : String
  status : RunStatus
  createdAt : ℤ
  events : List RunEvent

section Safe
variable (sensitive : String → Bool)

/-- `safe`; `sensitive` is the pattern of the keys that are left out. -/
def safe : Json → Json
  | .arr items => .arr (safeItems items)
  | .obj fields => .obj (safeFields fields)
  | v => v
where
  safeItems : List Json → List Json
    | [] => []
    | v :: items => safe v :: safeItems items
  safeFields : List (String × Json) → List (String × Json)
    | [] => []
    | (k,v) :: fields => if sensitive k then safeFields fields else (k,safe v) :: safeFields fields

end Safe

structure MemoryRunStore where
  runs : Table Run.id
  keys : String → Option String

/-- How two names are joined in `keys`. -/
def joined (tenant key : String) : String := tenant ++ ":" ++ key

namespace MemoryRunStore
variable (store : MemoryRunStore)

def idempotent (tenant key : String) : Option Run :=
  match store.keys (joined tenant key) with
  | some id => if id = "" then none else store.runs.find? id
  | none => none

def get (id tenant : String) : Option Run := (store.runs.find? id).filter fun r => r.tenantId = tenant

def active (tenant : String) : ℕ :=
  (store.runs.rows.filter fun r => r.tenantId = tenant ∧ r.status = .running).length

/-- `create`; `randomUUID` gives no id twice, so that none is there for an id that is taken. -/
def create (r : Run) (key : String) : Option MemoryRunStore :=
  (store.runs.insert? r).map fun runs =>
    ⟨runs,fun k => if key ≠ "" ∧ k = joined r.tenantId key then some r.id else store.keys k⟩

def update (id : String) (change : Run → Run) : MemoryRunStore :=
  match store.runs.find? id with
  | some r => { store with runs := store.runs.put { change r with id := r.id } }
  | none => store

/-- Appends an event, and forgets the oldest beyond the retention. -/
def emit (sensitive : String → Bool) (retention : ℕ) (id type : String) (data : Json) : MemoryRunStore :=
  store.update id fun r =>
    let event : RunEvent := ⟨((r.events.getLast?.map (·.id)).getD 0) + 1,type,safe sensitive data⟩
    let events := r.events ++ [event]
    { r with events := events.drop (events.length - retention) }

end MemoryRunStore

structure PublicRun where
  id : String
  sessionId : String
  status : RunStatus
  createdAt : ℤ

def publicRun (r : Run) : PublicRun := ⟨r.id,r.sessionId,r.status,r.createdAt⟩

inductive Response where
  | run (code : ℕ) (body : PublicRun)
  /-- as `text/event-stream` -/
  | events (body : List RunEvent)
  | error (code : ℕ) (name message : String)

/-- A response and the tenant that it goes to. `source` is no part of the code: it is the run
that the response was made from. -/
structure Sent where
  tenantId : String
  response : Response
  source : Option Run

structure Config where
  maxConcurrentRuns : Option ℕ
  retention : ℕ
  /-- the pattern of the keys that `safe` leaves out -/
  sensitive : String → Bool

inductive Task where
  | queued
  | started
  | ended
  deriving DecidableEq

/-- A cancellation that waits for the runtime; a tenant numbers its own. -/
structure Cancelling where
  tenantId : String
  call : ℕ
  run : String

structure Server where
  store : MemoryRunStore
  tasks : String → Option Task
  cancelling : Table fun c : Cancelling => (c.tenantId,c.call)
  sent : List Sent

/-- What a principal asks; `body` is absent where it does not fit the schema, and `id` and `now`
are what `randomUUID` and `Date.now` answer. -/
inductive Request where
  | postRun (body : Option RunInput) (idempotencyKey : String) (id : String) (now : ℤ)
  | getRun (id : String)
  | getEvents (id : String) (lastEventId : Double)
  | cancelRun (call : ℕ) (id : String)

inductive Event where
  | request (who : Principal) (request : Request)
  /-- the microtask of a run -/
  | starts (run : String)
  | emits (run type : String) (data : Json)
  /-- `runtime.start` has settled -/
  | ends (run : String) (result : Except String Unit)
  /-- `runtime.cancel` has settled -/
  | answers (tenantId : String) (call : ℕ) (result : Except String Bool)

namespace Server
variable (config : Config) (s : Server)

def start : Server := ⟨⟨.empty,fun _ => none⟩,fun _ => none,.empty,[]⟩

def send (tenantId : String) (response : Response) (source : Option Run := none) : Server :=
  { s with sent := s.sent ++ [⟨tenantId,response,source⟩] }

def sendRun (who : Principal) (code : ℕ) (r : Run) : Server := s.send who.tenantId (.run code (publicRun r)) (some r)

def err (who : Principal) (code : ℕ) (name message : String) : Server := s.send who.tenantId (.error code name message)

def emit (id type : String) (data : Json) : Server :=
  { s with store := s.store.emit config.sensitive config.retention id type data }

def setStatus (id : String) (status : RunStatus) : Server :=
  { s with store := s.store.update id fun r => { r with status } }

/-- `POST /v1/runs`, past the key. -/
def createRun (who : Principal) (body : RunInput) (key id : String) (now : ℤ) : Server :=
  if config.maxConcurrentRuns.getD 10 ≤ s.store.active who.tenantId then
    s.err who 429 "QUOTA_EXCEEDED" "Concurrent run quota exceeded"
  else
    let run : Run := ⟨id,who.tenantId,who.subject,body.sessionId,.running,now,[]⟩
    match s.store.create run key with
    | some store =>
      { s with store, tasks := fun other => if other = id then some .queued else s.tasks other }.sendRun who 202 run
    | none => s

def postRun (who : Principal) (body : Option RunInput) (key id : String) (now : ℤ) : Server :=
  match body with
  | none => s.err who 400 "VALIDATION_ERROR" "Request rejected"
  | some body =>
    if "agent:write" ∉ who.scopes then s.err who 403 "FORBIDDEN" "Missing scope"
    else
      match (if key = "" then none else s.store.idempotent who.tenantId key) with
      | some old => s.sendRun who 202 old
      | none => s.createRun config who body key id now

def getRun (who : Principal) (id : String) : Server :=
  match s.store.get id who.tenantId with
  | some x => s.sendRun who 200 x
  | none => s.err who 404 "NOT_FOUND" "Run not found"

def getEvents (who : Principal) (id : String) (last : Double) : Server :=
  match s.store.get id who.tenantId with
  | some x => s.send who.tenantId (.events (x.events.filter fun e => last < .finite e.id)) (some x)
  | none => s.err who 404 "NOT_FOUND" "Run not found"

/-- `POST /v1/runs/:id/cancel`, up to the await. -/
def cancelRun (who : Principal) (call : ℕ) (id : String) : Server :=
  let admin := "agent:admin" ∈ who.scopes
  if ¬admin ∧ "agent:cancel" ∉ who.scopes then s.err who 403 "FORBIDDEN" "Missing scope"
  else
    match s.store.get id who.tenantId with
    | none => s.err who 404 "NOT_FOUND" "Run not found"
    | some x =>
      if ¬admin ∧ x.subject ≠ who.subject then s.err who 403 "FORBIDDEN" "Run ownership required"
      else
        match s.cancelling.insert? ⟨who.tenantId,call,x.id⟩ with
        | some cancelling => { s with cancelling }
        | none => s

def handle (who : Principal) : Request → Server
  | .postRun body key id now => s.postRun config who body key id now
  | .getRun id => s.getRun who id
  | .getEvents id last => s.getEvents who id last
  | .cancelRun call id => s.cancelRun who call id

/-- The task of a run has settled. -/
def endRun (id : String) (result : Except String Unit) : Server :=
  let s := { s with tasks := fun other => if other = id then some .ended else s.tasks other }
  match result with
  | .ok () =>
    match s.store.runs.find? id with
    | some run => if run.status = .running then s.setStatus id .completed else s
    | none => s
  | .error message => (s.setStatus id .failed).emit config id "error" (.obj [("message",.str message)])

/-- `runtime.cancel` has settled; where it throws the error handler answers. -/
def endCancel (c : Cancelling) (result : Except String Bool) : Server :=
  let s := { s with cancelling := s.cancelling.keep fun other => (other.tenantId,other.call) ≠ (c.tenantId,c.call) }
  match result with
  | .ok _ =>
    let s := (s.setStatus c.run .cancelled).emit config c.run "cancelled" (.obj [])
    match s.store.runs.find? c.run with
    | some x => s.send c.tenantId (.run 200 (publicRun x)) (some x)
    | none => s
  | .error _ => s.send c.tenantId (.error 500 "INTERNAL_ERROR" "Unexpected server error")

def step (s : Server) : Event → Server
  | .request who request => s.handle config who request
  | .starts id =>
    if s.tasks id = some .queued then
      { s with tasks := fun other => if other = id then some .started else s.tasks other }
    else s
  | .emits id type data => if s.tasks id = some .queued ∨ s.tasks id = none then s else s.emit config id type data
  | .ends id result => if s.tasks id = some .started then s.endRun config id result else s
  | .answers tenantId call result =>
    match s.cancelling.find? (tenantId,call) with
    | some c => s.endCancel config c result
    | none => s

end Server

end RatifyOs.Gateway.Api
