import RatifyOs.Data.Double
import RatifyOs.Data.Json
import RatifyOs.Data.Result
import RatifyOs.Data.Run
import RatifyOs.Data.Table

/-! `DelegationManager`: children of sessions that wait in one queue, run at most a few at a
time, and are settled once. -/
namespace RatifyOs.Autonomy.Delegation
open Data Data.Result

inductive DelegationStatus where
  | queued
  | running
  | completed
  | failed
  | cancelled
  deriving DecidableEq

def DelegationStatus.terminal : DelegationStatus → Bool
  | completed | failed | cancelled => true
  | _ => false

/-- The limits are positive, as the constructor checks. -/
structure DelegationLimits where
  maxDepth : ℕ
  maxChildren : ℕ
  maxIterations : ℕ
  maxCostUsd : ℕ
  concurrency : ℕ
  maxChildren_pos : 0 < maxChildren
  concurrency_pos : 0 < concurrency

/-- What a runtime answers; `clones` is whether `structuredClone` takes it. -/
structure ChildRuntimeResult where
  summary : String
  iterations : Double
  costUsd : Double
  details : Option Json
  clones : Bool

/-- `contextClones` and `modelClones` are whether `structuredClone` takes the two. -/
structure SpawnRequest where
  task : String
  parentSessionId : String
  parentCapabilities : List String
  requestedCapabilities : List String
  depth : Option Double
  contextClones : Bool := true
  modelClones : Bool := true

structure DelegationResult where
  sessionId : String
  parentSessionId : String
  status : DelegationStatus
  /-- the summary, the details, the iterations and the cost -/
  output : Option ChildRuntimeResult
  error : Option String
  announced : Bool
  archived : Bool

/-- The options of a manager. A callback that is absent answers at once. -/
structure DelegationOptions where
  limits : DelegationLimits
  allowed : List String
  /-- what the factory throws for a session, if it does -/
  runtimeFactory : String → Option String
  verifies : Bool
  /-- `summary.trim()` is empty -/
  blank : String → Bool

/-- A settlement that waits for its callbacks, and whether `#run` waits for it. -/
structure Finishing where
  result : DelegationResult
  errors : List String
  awaited : Bool

inductive Stage where
  | waiting
  /-- the race of the runtime and the abort -/
  | racing
  | verifying (safe : ChildRuntimeResult)
  | announcing (f : Finishing)
  | archiving (f : Finishing)
  /-- the result is resolved, and `finally` is still to come -/
  | returning
  | ended

/-- An entry of the manager. The last four fields are no part of the code: from which statuses
the runtime was started, what the promise was resolved with, whether the signal was aborted
before the settlement, and whether the result was announced. -/
structure Entry where
  number : ℕ
  request : SpawnRequest
  depth : Double
  status : DelegationStatus
  aborted : Option String
  settled : Bool
  counted : Bool
  stage : Stage
  starts : List DelegationStatus
  resolved : List DelegationResult
  overtaken : Bool
  announcedTo : Bool

/-- `${parent}:child:${sequence}` -/
def childId (parent : String) (sequence : ℕ) : String := parent ++ ":child:" ++ toString sequence

def Entry.id (e : Entry) : String := childId e.request.parentSessionId e.number

structure DelegationManager where
  entries : Table Entry.number
  queue : List ℕ
  counts : String → Option ℕ
  active : ℕ
  sequence : ℕ
  /-- the drains that are queued as microtasks -/
  drains : ℕ

/-- The part of a result that a settlement is given. -/
structure Partial where
  status : DelegationStatus
  output : Option ChildRuntimeResult := none
  error : Option String := none

inductive Judgement where
  | invalid
  | exceeded
  | fine

inductive Event where
  | spawn (request : SpawnRequest)
  | cancel (child : ℕ) (reason : String)
  | cancelParent (parent reason : String)
  /-- a queued microtask -/
  | drains
  | deadline (child : ℕ)
  /-- The race is over: by the runtime, or by the abort if there is one. -/
  | raced (child : ℕ) (outcome : Except String (Option ChildRuntimeResult))
  /-- The verifier or its timeout has settled. -/
  | verified (child : ℕ) (outcome : Except String Bool)
  | announced (child : ℕ) (outcome : Except String Unit)
  | archived (child : ℕ) (outcome : Except String Unit)
  /-- `finally` -/
  | returned (child : ℕ)

namespace DelegationManager
variable (options : DelegationOptions) (s : DelegationManager)

def new : DelegationManager := ⟨.empty,[],fun _ => none,0,0,0⟩

def put (e : Entry) : DelegationManager := { s with entries := s.entries.put e }

def setCount (parent : String) (count : ℕ) : DelegationManager :=
  { s with counts := fun other => if other = parent then some count else s.counts other }

/-- The handle's session id and the manager, or the message of the `DelegationError`. -/
def spawn (request : SpawnRequest) : Except String DelegationManager := do
  let depth := request.depth.getD 0 + 1
  reject (depth > .finite options.limits.maxDepth) "maximum delegation depth exceeded"
  let count := (s.counts request.parentSessionId).getD 0
  reject (count ≥ options.limits.maxChildren) "maximum children exceeded"
  let capabilities := request.requestedCapabilities.filter fun c =>
    c ∈ request.parentCapabilities ∧ c ∈ options.allowed
  reject (capabilities = []) "no permitted read-only capabilities"
  reject (request.contextClones = false) "context must be cloneable"
  reject (request.modelClones = false) "model must be cloneable"
  let sequence := s.sequence + 1
  let entry : Entry :=
    { number := sequence, request := { request with requestedCapabilities := capabilities }, depth
      status := .queued, aborted := none, settled := false, counted := true, stage := .waiting
      starts := [], resolved := [], overtaken := false, announcedTo := false }
  return { s.setCount request.parentSessionId (count + 1) with
    entries := s.entries.upsert entry
    queue := s.queue ++ [sequence]
    sequence
    drains := s.drains + 1 }

/-- `#finish`, up to its first await; `awaited` is whether `#run` goes on after it. -/
def finish (e : Entry) (partial_ : Partial) (announce awaited : Bool) : DelegationManager :=
  if e.settled then (if awaited then s.put { e with stage := .returning } else s)
  else
    let parent := e.request.parentSessionId
    let s := if e.counted then s.setCount parent ((s.counts parent).getD 1 - 1) else s
    let result : DelegationResult :=
      ⟨e.id,parent,partial_.status,partial_.output,partial_.error,false,false⟩
    let f : Finishing := ⟨result,[],awaited⟩
    s.put { e with
      settled := true
      status := partial_.status
      counted := false
      stage := if announce then .announcing f else .archiving f
      announcedTo := announce }

/-- `controller.abort`; the first reason stays. -/
def abort (e : Entry) (reason : String) : Entry :=
  { e with aborted := some (e.aborted.getD reason), overtaken := e.overtaken || !e.settled }

def cancel (e : Entry) (reason : String) : DelegationManager :=
  if e.status.terminal then s
  else
    let e := abort e reason
    if e.status = .queued then
      { s with queue := s.queue.erase e.number }.finish e { status := .cancelled, error := some reason } false false
    else s.put e

/-- One turn of the loop of `visit`; `below` is the walk one level down. -/
def visitChild (reason : String) (below : DelegationManager → String → DelegationManager) (parent : String)
    (s : DelegationManager) (number : ℕ) : DelegationManager :=
  match s.entries.find? number with
  | some e =>
    if e.request.parentSessionId = parent ∧ e.status.terminal = false then
      let s := below s e.id
      match s.entries.find? number with
      | some e => s.cancel e reason
      | none => s
    else s
  | none => s

/-- The walk of `cancelParent` over the entries, in their order; it goes no deeper than there
are entries. -/
def visit (reason : String) : ℕ → DelegationManager → String → DelegationManager
  | 0, s, _ => s
  | deeper + 1, s, parent =>
    (s.entries.rows.map Entry.number).foldl (visitChild reason (visit reason deeper) parent) s

def cancelParent (parent reason : String) : DelegationManager := visit reason s.entries.rows.length s parent

/-- The `catch` of `#run`. -/
def caught (e : Entry) (error : String) : DelegationManager :=
  match e.aborted with
  | some reason => s.finish e { status := .cancelled, error := some reason } false true
  | none => s.finish e { status := .failed, error := some error } false true

/-- `#run`, up to its first await -/
def run (e : Entry) : DelegationManager :=
  let s := { s with active := s.active + 1 }
  let e := { e with status := .running, starts := e.starts ++ [e.status], stage := .racing }
  match options.runtimeFactory e.id with
  | none => s.put e
  | some message => s.caught e message

/-- `#drain`, along the queue -/
def drainQueue (s : DelegationManager) : List ℕ → DelegationManager
  | [] => { s with queue := [] }
  | number :: rest =>
    if s.active < options.limits.concurrency then
      match s.entries.find? number with
      | some e => if e.status = .queued then drainQueue (s.run options e) rest else drainQueue s rest
      | none => drainQueue s rest
    else { s with queue := number :: rest }

def drain : DelegationManager := s.drainQueue options s.queue

def judge (raw : ChildRuntimeResult) : Judgement :=
  if options.blank raw.summary ∨ raw.iterations.isInteger = false ∨ raw.iterations < 0 ∨
      raw.costUsd.isFinite = false ∨ raw.costUsd < 0 then .invalid
  else if .finite options.limits.maxIterations < raw.iterations ∨ .finite options.limits.maxCostUsd < raw.costUsd then .exceeded
  else .fine

/-- `#run`, after the race; a result is absent where it has not the form of one. -/
def raced (e : Entry) (outcome : Except String (Option ChildRuntimeResult)) : DelegationManager :=
  match e.aborted,outcome with
  | some _,_ => s.caught e ""
  | none,.error message => s.caught e message
  | none,.ok none => s.caught e "invalid runtime result"
  | none,.ok (some raw) =>
    match judge options raw with
    | .invalid => s.caught e "invalid runtime result"
    | .exceeded => s.finish e { status := .failed, error := some "budget exceeded" } false true
    | .fine =>
      if raw.clones = false then s.caught e "runtime result must be cloneable"
      else if options.verifies then s.put { e with stage := .verifying raw }
      else s.finish e { status := .completed, output := some raw } true true

/-- `#run`, after the verification -/
def verified (e : Entry) (safe : ChildRuntimeResult) (outcome : Except String Bool) : DelegationManager :=
  match outcome with
  | .error message => s.finish e { status := .failed, error := some ("verifier error: " ++ message) } false true
  | .ok false => s.finish e { status := .failed, error := some "result verification failed" } false true
  | .ok true => s.finish e { status := .completed, output := some safe } true true

/-- `#finish`, after the announcement -/
def announced (e : Entry) (f : Finishing) (outcome : Except String Unit) : DelegationManager :=
  match outcome with
  | .ok () => s.put { e with stage := .archiving { f with result := { f.result with announced := true } } }
  | .error message => s.put { e with stage := .archiving { f with errors := f.errors ++ [message] } }

/-- `#finish`, after the archiving: the promise is resolved. -/
def archived (e : Entry) (f : Finishing) (outcome : Except String Unit) : DelegationManager :=
  let (result,errors) : DelegationResult × List String := match outcome with
    | .ok () => ({ f.result with archived := true },f.errors)
    | .error message => (f.result,f.errors ++ [message])
  let result := if errors = [] then result
    else { result with error := some ("; ".intercalate ((f.result.error.toList ++ errors).filter (· ≠ ""))) }
  s.put { e with resolved := e.resolved ++ [result], stage := if f.awaited then .returning else .ended }

/-- The timer is set when the child runs and cleared in `finally`. -/
def armed : Stage → Bool
  | .racing | .verifying _ | .returning => true
  | .announcing f | .archiving f => f.awaited
  | .waiting | .ended => false

def step (s : DelegationManager) : Event → DelegationManager
  | .spawn request => match s.spawn options request with
    | .ok s => s
    | .error _ => s
  | .cancel child reason => match s.entries.find? child with
    | some e => s.cancel e reason
    | none => s
  | .cancelParent parent reason => s.cancelParent parent reason
  | .drains => if s.drains = 0 then s else { s with drains := s.drains - 1 }.drain options
  | .deadline child => match s.entries.find? child with
    | some e => if armed e.stage then s.put (abort e "deadline exceeded") else s
    | none => s
  | .raced child outcome => match s.entries.find? child with
    | some e => match e.stage with
      | .racing => s.raced options e outcome
      | _ => s
    | none => s
  | .verified child outcome => match s.entries.find? child with
    | some e => match e.stage with
      | .verifying safe => s.verified e safe outcome
      | _ => s
    | none => s
  | .announced child outcome => match s.entries.find? child with
    | some e => match e.stage with
      | .announcing f => s.announced e f outcome
      | _ => s
    | none => s
  | .archived child outcome => match s.entries.find? child with
    | some e => match e.stage with
      | .archiving f => s.archived e f outcome
      | _ => s
    | none => s
  | .returned child => match s.entries.find? child with
    | some e => match e.stage with
      | .returning => { s.put { e with stage := .ended } with active := s.active - 1 }.drain options
      | _ => s
    | none => s

end DelegationManager

end RatifyOs.Autonomy.Delegation
