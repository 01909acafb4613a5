import Mathlib.Logic.Function.Basic
import Mathlib.Data.Int.Notation
import RatifyOs.Data.Json

/-! `SqliteEventBus`: an outbox, consumers with their offsets, and deliveries that hold a
transaction open while a handler runs. The steps are the stretches of synchronous code
between two awaits. -/
namespace RatifyOs.Autonomy
open Data

structure EventEnvelope where
  id : String
  type : String
  version : ℕ
  source : String
  correlationId : String
  causationId : Option String
  occurredAt : String
  payload : Json

structure EventSchema where
  latest : ℕ
  validate : Json → Bool
  upcast : Option (Json → ℕ → Except String Json)

/-- What two subscriptions of one consumer must agree on. A filter is known by its source. -/
structure Definition where
  types : Option (List String)
  version : String
  filter : Option String
  deriving DecidableEq

structure Options where
  types : Option (List String)
  filter : Option String
  subscriptionVersion : Option String

def Options.definition (o : Options) : Definition := ⟨o.types,o.subscriptionVersion.getD "1",o.filter⟩

/-- `runs` says what the source of a filter computes. -/
structure BusConfig where
  maxAttempts : Option ℤ
  batchSize : Option ℤ
  schemas : String → Option EventSchema
  runs : String → EventEnvelope → Bool

namespace BusConfig
variable (c : BusConfig)

def attemptsAllowed : ℤ := c.maxAttempts.getD 5

def batch : ℤ := c.batchSize.getD 100

def normalize (e : EventEnvelope) : Except String EventEnvelope :=
  match c.schemas e.type with
  | none => return e
  | some schema =>
    if e.version > schema.latest then throw ("unsupported schema version " ++ toString e.version)
    else do
      let payload ← (match schema.upcast with
        | some upcast => if e.version < schema.latest then upcast e.payload e.version else return e.payload
        | none => return e.payload)
      if schema.validate payload = false then throw ("schema validation failed for " ++ e.type)
      else return { e with version := schema.latest, payload }

def wants (d : Definition) (e : EventEnvelope) : Bool :=
  (d.types.all fun types => types.contains e.type) && d.filter.all fun source => c.runs source e

theorem normalize_idem {e e' : EventEnvelope} (normal : c.normalize e = .ok e') : c.normalize e' = .ok e' := by
  unfold normalize at normal
  cases known : c.schemas e.type with
  | none =>
    rw [known] at normal
    cases normal
    simp [normalize,known,pure,Except.pure]
  | some schema =>
    rw [known] at normal
    dsimp only at normal
    split at normal
    · cases normal
    · generalize (match schema.upcast with
        | some upcast => if e.version < schema.latest then upcast e.payload e.version else pure e.payload
        | none => pure e.payload : Except String Json) = lifted at normal
      cases lifted with
      | error error => cases normal
      | ok payload =>
        simp only [bind,Except.bind] at normal
        split at normal
        · cases normal
        · rename_i passes
          cases normal
          cases upcast : schema.upcast <;>
            simp [normalize,known,upcast,passes,pure,Except.pure,bind,Except.bind]

end BusConfig

/-- A row of `outbox`, or what `publish` makes of one. -/
structure StoredEvent where
  cursor : ℕ
  envelope : EventEnvelope

structure DeadLetter where
  consumer : String
  cursor : ℕ
  eventId : String
  error : String
  deriving DecidableEq

/-- `seq` is the last value that AUTOINCREMENT gave out. -/
structure BusTables where
  outbox : List StoredEvent
  seq : ℕ
  inbox : List (String × String)
  offsets : String → ℕ
  retries : String → ℕ → Option (ℕ × String)
  deadLetters : List DeadLetter
  subscriptions : List (String × Definition)

structure Sub where
  serial : ℕ
  name : String
  definition : Definition
  deriving DecidableEq

/-- A function that waits for the lock or, at the head of the queue, holds it. `publish`
makes one for its own event, `deliver` one that reads the outbox as long as it gives rows. -/
structure Task where
  pass : ℕ
  sub : Sub
  direct : Bool
  todo : List StoredEvent
  refill : Bool

/-- The loop of a `publish` or a `deliver` over the subscriptions, which it meets in the
order they were made in, those that are made meanwhile included. -/
structure Pass where
  stored : Option StoredEvent
  last : ℕ
  waiting : Bool

/-- The bus of one process. `saved` is what a rollback brings back while a handler runs;
`issued` and `returned` are the events that `publish` found a cursor for, and those it
answered with; `handled` is what was committed after the handler had returned. -/
structure SqliteEventBus where
  tables : BusTables
  saved : Option BusTables
  subs : List Sub
  serial : ℕ
  queue : List Task
  passes : ℕ → Option Pass
  count : ℕ
  issued : List StoredEvent
  returned : List StoredEvent
  handled : List (String × ℕ)

inductive BusEvent where
  | subscribe (name : String) (options : Options)
  | unsubscribe (name : String)
  | publish (input : EventEnvelope)
  | deliver
  | turn (pass : ℕ)
  | work
  | settle (answer : Except String Unit)
  | crash

namespace BusTables

def empty : BusTables := ⟨[],0,[],fun _ => 0,fun _ _ => none,[],[]⟩

def attempts (t : BusTables) (consumer : String) (cursor : ℕ) : ℕ := ((t.retries consumer cursor).map (·.1)).getD 0

def setOffset (t : BusTables) (consumer : String) (cursor : ℕ) : BusTables :=
  { t with offsets := Function.update t.offsets consumer cursor }

def setRetry (t : BusTables) (consumer : String) (cursor : ℕ) (row : Option (ℕ × String)) : BusTables :=
  { t with retries := Function.update t.retries consumer (Function.update (t.retries consumer) cursor row) }

/-- The writes after a handler that returned, or in place of one. -/
def acknowledge (t : BusTables) (consumer : String) (x : StoredEvent) : BusTables :=
  let t := { t with inbox :=
    if (consumer,x.envelope.id) ∈ t.inbox then t.inbox else t.inbox ++ [(consumer,x.envelope.id)] }
  (t.setOffset consumer x.cursor).setRetry consumer x.cursor none

/-- The last failure that is counted: the event is put aside and the consumer goes on. -/
def bury (t : BusTables) (consumer : String) (x : StoredEvent) (error : String) : BusTables :=
  let t := { t with deadLetters :=
    if t.deadLetters.any (fun d => d.consumer = consumer ∧ d.cursor = x.cursor) then t.deadLetters
    else t.deadLetters ++ [(⟨consumer,x.cursor,x.envelope.id,error⟩ : DeadLetter)] }
  t.setOffset consumer x.cursor

def subscribe (t : BusTables) (name : String) (d : Definition) : BusTables :=
  if (t.subscriptions.lookup name).isSome then t else { t with subscriptions := t.subscriptions ++ [(name,d)] }

end BusTables

theorem offsets_acknowledge (t : BusTables) (n m : String) (x : StoredEvent) :
    (t.acknowledge n x).offsets m = if m = n then x.cursor else t.offsets m := by
  by_cases here : m = n <;> simp [BusTables.acknowledge,BusTables.setOffset,BusTables.setRetry,here]

theorem offsets_bury (t : BusTables) (n m : String) (x : StoredEvent) (error : String) :
    (t.bury n x error).offsets m = if m = n then x.cursor else t.offsets m := by
  by_cases here : m = n <;> simp [BusTables.bury,BusTables.setOffset,here]

namespace SqliteEventBus

def empty : SqliteEventBus := ⟨.empty,none,[],1,[],fun _ => none,0,[],[],[]⟩

section Steps
variable (c : BusConfig)

/-- The next rows of the outbox; one that no longer passes its schema is left out. -/
def replay (t : BusTables) (cursor : ℕ) : List StoredEvent :=
  ((t.outbox.filter fun r => cursor < r.cursor).take (max 1 (min c.batch 1000)).toNat).filterMap fun r =>
    (c.normalize r.envelope).toOption.map fun e => (⟨r.cursor,e⟩ : StoredEvent)

def subscribe (name : String) (options : Options) (b : SqliteEventBus) : SqliteEventBus :=
  if b.subs.any (·.name = name) then b
  else if (b.tables.subscriptions.lookup name).any (· ≠ options.definition) then b
  else { b with
    tables := b.tables.subscribe name options.definition
    subs := b.subs ++ [⟨b.serial,name,options.definition⟩]
    serial := b.serial + 1 }

/-- The start of `publish`, which throws on an event that its schema rejects. An event
that is there already keeps its cursor. -/
def publish (input : EventEnvelope) (b : SqliteEventBus) : SqliteEventBus :=
  match c.normalize input with
  | .error _ => b
  | .ok envelope =>
    let old := b.tables.outbox.find? fun r => r.envelope.id = envelope.id
    let cursor := (old.map (·.cursor)).getD (b.tables.seq + 1)
    let stored : StoredEvent := ⟨cursor,envelope⟩
    { b with
      tables := if old.isSome then b.tables else { b.tables with outbox := b.tables.outbox ++ [stored], seq := cursor }
      passes := Function.update b.passes b.count (some ⟨some stored,0,false⟩)
      count := b.count + 1
      issued := b.issued ++ [stored] }

def deliver (b : SqliteEventBus) : SqliteEventBus :=
  { b with passes := Function.update b.passes b.count (some ⟨none,0,false⟩), count := b.count + 1 }

/-- A loop over the subscriptions asks for the lock for the next one, or is at its end. -/
def turn (i : ℕ) (b : SqliteEventBus) : SqliteEventBus :=
  match b.passes i with
  | some ⟨stored,last,false⟩ =>
    match b.subs.find? (·.serial > last) with
    | some s =>
      { b with
        passes := Function.update b.passes i (some ⟨stored,s.serial,true⟩)
        queue := b.queue ++ [⟨i,s,stored.isSome,stored.toList,stored.isNone⟩] }
    | none => { b with passes := Function.update b.passes i none, returned := b.returned ++ stored.toList }
  | _ => b

/-- The lock goes on. A `deliver` whose task failed throws, a `publish` does not. -/
def release (failed : Bool) (b : SqliteEventBus) : SqliteEventBus :=
  match b.queue with
  | [] => b
  | t :: rest =>
    { b with
      queue := rest
      passes := Function.update b.passes t.pass
        ((b.passes t.pass).bind fun p => if failed && !t.direct then none else some { p with waiting := false }) }

/-- What the holder of the lock does up to its next await: the event it comes to starts a
transaction, which stays open where a handler has to run. -/
def work (b : SqliteEventBus) : SqliteEventBus :=
  match b.saved,b.queue with
  | none,t :: rest =>
    let offset := b.tables.offsets t.sub.name
    match t.todo with
    | x :: todo =>
      if x.cursor ≤ offset then { b with queue := { t with todo } :: rest }
      else if c.wants t.sub.definition x.envelope then { b with saved := some b.tables }
      else { b with tables := b.tables.acknowledge t.sub.name x, queue := { t with todo } :: rest }
    | [] =>
      let rows := replay c b.tables offset
      if t.refill = false ∨ rows.length = 0 then b.release false
      else { b with queue := { t with todo := rows, refill := ¬((rows.length : ℤ) < c.batch) } :: rest }
  | _,_ => b

/-- The handler returns, or throws. -/
def settle (answer : Except String Unit) (b : SqliteEventBus) : SqliteEventBus :=
  match b.saved,b.queue with
  | some before,t :: rest =>
    match t.todo with
    | [] => b
    | x :: todo =>
      match answer with
      | .ok _ =>
        { b with
          tables := b.tables.acknowledge t.sub.name x
          saved := none
          queue := { t with todo } :: rest
          handled := b.handled ++ [(t.sub.name,x.cursor)] }
      | .error error =>
        let attempts := before.attempts t.sub.name x.cursor + 1
        let tables := before.setRetry t.sub.name x.cursor (some (attempts,error))
        if (attempts : ℤ) ≥ c.attemptsAllowed then
          { b with tables := tables.bury t.sub.name x error, saved := none, queue := { t with todo } :: rest }
        else release true { b with tables, saved := none }
  | _,_ => b

def step (b : SqliteEventBus) : BusEvent → SqliteEventBus
  | .subscribe name options => b.subscribe name options
  | .unsubscribe name => { b with subs := b.subs.filter (·.name ≠ name) }
  | .publish input => b.publish c input
  | .deliver => b.deliver
  | .turn i => b.turn i
  | .work => b.work c
  | .settle answer => b.settle c answer
  | .crash => { b with
      tables := b.saved.getD b.tables, saved := none, subs := [], queue := [], passes := fun _ => none }

end Steps

end SqliteEventBus

end RatifyOs.Autonomy
