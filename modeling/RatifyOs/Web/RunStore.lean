import Mathlib.Data.List.Induction
import Mathlib.Data.List.Sort
import RatifyOs.Data.Double
import RatifyOs.Data.Json
import RatifyOs.Data.Run
import RatifyOs.Data.Table

/-! `DurableRunStore` under the run routes of the server: requests that are repeated, runs that
emit, and clients that come back for the events they have not seen. -/
namespace RatifyOs.Web.RunStore
open Data

inductive RunStatus where
  | running
  | completed
  | failed
  | cancelled
  deriving DecidableEq

/-- An event with its data as it is written. -/
structure DurableEvent where
  id : ℤ
  type : String
  data : Text
  deriving DecidableEq

structure DurableRun where
  id : String
  tenantId : String
  sessionId : String
  status : RunStatus
  createdAt : ℤ
  events : List DurableEvent
  deriving DecidableEq

structure RunRow where
  id : String
  tenantId : String
  sessionId : String
  status : RunStatus
  createdAt : ℤ

structure KeyRow where
  tenantId : String
  key : String
  runId : String

def KeyRow.primary (r : KeyRow) : String × String := (r.tenantId,r.key)

structure EventRow where
  runId : String
  event : DurableEvent

def EventRow.primary (r : EventRow) : String × ℤ := (r.runId,r.event.id)

structure DurableRunStore where
  runs : Table RunRow.id
  idempotency : Table KeyRow.primary
  events : Table EventRow.primary
  retention : ℤ

namespace DurableRunStore

def make (retention : ℤ) : DurableRunStore := ⟨.empty,.empty,.empty,retention⟩

def eventsOf (store : DurableRunStore) (id : String) : List DurableEvent :=
  (store.events.select fun r => r.runId = id).map (·.event)

def get (store : DurableRunStore) (id tenant : String) : Option DurableRun :=
  ((store.runs.find? id).filter fun r => r.tenantId = tenant).map fun r =>
    ⟨r.id,r.tenantId,r.sessionId,r.status,r.createdAt,(store.eventsOf id).insertionSort fun a b => a.id ≤ b.id⟩

/-- `INSERT OR IGNORE` of the run, of its key unless that is empty, and of its events. -/
def create (store : DurableRunStore) (r : DurableRun) (key : String) : DurableRunStore where
  runs := (store.runs.insert? ⟨r.id,r.tenantId,r.sessionId,r.status,r.createdAt⟩).getD store.runs
  idempotency := if key = "" then store.idempotency
    else (store.idempotency.insert? ⟨r.tenantId,key,r.id⟩).getD store.idempotency
  events := r.events.foldl (fun events event => (events.insert? ⟨r.id,event⟩).getD events) store.events
  retention := store.retention

def idempotent (store : DurableRunStore) (tenant key : String) : Option DurableRun :=
  (store.idempotency.find? (tenant,key)).bind fun row => store.get row.runId tenant

def lastSequence (store : DurableRunStore) (id : String) : Option ℤ := ((store.eventsOf id).map (·.id)).max?

/-- An event of a run that is not there is refused by its foreign key. -/
def emit (store : DurableRunStore) (id type : String) (data : Text) : Option (DurableRunStore × DurableEvent) := do
  guard (store.runs.find? id).isSome
  let event : DurableEvent := ⟨(store.lastSequence id).getD 0 + 1,type,data⟩
  let events ← store.events.insert? ⟨id,event⟩
  let store := { store with events }
  let top := store.lastSequence id
  return ({ store with events := events.keep fun r =>
    ¬(r.runId = id ∧ top.any fun top => r.event.id ≤ top - store.retention) },event)

def active (store : DurableRunStore) (tenant : String) : ℕ :=
  (store.runs.select fun r => r.tenantId = tenant ∧ r.status = .running).length

def setStatus (store : DurableRunStore) (id : String) (status : RunStatus) : DurableRunStore :=
  match store.runs.find? id with
  | none => store
  | some r => { store with runs := store.runs.put { r with status } }

end DurableRunStore

section Routes
variable (tenantId : String)

/-- What the server does to its run store: `submit` is `POST /v1/runs` with the id that a new run
would get; the others come from the runs under way. -/
inductive Op where
  | submit (id sessionId key : String) (now : ℤ)
  | emit (id type : String) (data : Text)
  | setStatus (id : String) (status : RunStatus)

/-- The run of a request, and whether it was started by it. -/
def submit (store : DurableRunStore) (id sessionId key : String) (now : ℤ) : DurableRunStore × Option DurableRun × Bool :=
  match if key = "" then none else store.idempotent tenantId key with
  | some old => (store,some old,false)
  | none =>
    let store := store.create ⟨id,tenantId,sessionId,.running,now,[]⟩ key
    (store,store.get id tenantId,true)

def step (store : DurableRunStore) : Op → DurableRunStore
  | .submit id sessionId key now => (submit tenantId store id sessionId key now).1
  | .emit id type data => ((store.emit id type data).map (·.1)).getD store
  | .setStatus id status => store.setStatus id status

/-- `GET /v1/runs/:id/events`, for a client whose last event is known. -/
def eventsAfter (store : DurableRunStore) (id : String) (last : Double) : Option (List DurableEvent) :=
  (store.get id tenantId).map fun x => x.events.filter fun e => last < .finite e.id

/-- Everything a run has emitted. -/
def emitted (id : String) : DurableRunStore → List Op → List (String × Text)
  | _, [] => []
  | store, op :: ops =>
    (match op with
      | .emit run type data => if run = id ∧ (store.runs.find? id).isSome then [(type,data)] else []
      | _ => []) ++ emitted id (step tenantId store op) ops

/-- A client that asks for the events of a run again and again, each time after the last it has. -/
def follow (id : String) : DurableRunStore → List DurableEvent → List (List Op) → List DurableEvent
  | _, seen, [] => seen
  | store, seen, ops :: polls =>
    let store := Run.run (step tenantId) store ops
    let last : ℤ := (seen.getLast?.map (·.id)).getD 0
    follow id store (seen ++ (eventsAfter tenantId store id (.finite last)).getD []) polls

def Op.emits (id : String) : Op → Bool
  | .emit run _ _ => run = id
  | _ => false

/-- The log of a run, numbered from one. -/
def numbered (log : List (String × Text)) : List DurableEvent :=
  log.zipIdx.map fun (entry,i) => ⟨i + 1,entry.1,entry.2⟩

end Routes

section Numbered
variable {log : List (String × Text)}

theorem numbered_concat (log : List (String × Text)) (type : String) (data : Text) :
    numbered (log ++ [(type,data)]) = numbered log ++ [⟨log.length + 1,type,data⟩] := by
  simp [numbered,List.zipIdx_append]

theorem le_of_mem_numbered {e : DurableEvent} (inside : e ∈ numbered log) : 1 ≤ e.id ∧ e.id ≤ log.length := by
  induction log using List.reverseRecOn with
  | nil => simp [numbered] at inside
  | append_singleton log entry ih =>
    rw [numbered_concat] at inside
    rw [List.length_append,List.length_singleton]
    rcases List.mem_append.mp inside with before | last
    · have bounds := ih before
      push_cast
      omega
    · rw [List.mem_singleton.mp last]
      push_cast
      omega

theorem numbered_sorted (log : List (String × Text)) : (numbered log).Pairwise fun a b => a.id < b.id := by
  induction log using List.reverseRecOn with
  | nil => exact .nil
  | append_singleton log entry ih =>
    rw [numbered_concat,List.pairwise_append]
    refine ⟨ih,List.pairwise_singleton _ _,fun a inside b last => ?_⟩
    rw [List.mem_singleton.mp last]
    exact Int.lt_add_one_iff.mpr (le_of_mem_numbered inside).2

/-- The part of a log that a store with this retention still has. -/
def retained (retention : ℤ) (log : List (String × Text)) : List DurableEvent :=
  (numbered log).filter fun e => log.length - retention < e.id

theorem last_retained {retention : ℤ} (some_ : 1 ≤ retention) (log : List (String × Text)) :
    (((retained retention log).map (·.id)).max?).getD 0 = log.length := by
  rcases log.eq_nil_or_concat' with rfl | ⟨before,entry,rfl⟩
  · rfl
  · have top : ((retained retention (before ++ [entry])).map (·.id)).max? = some ((before ++ [entry]).length : ℤ) := by
      rw [List.max?_eq_some_iff]
      constructor
      · rw [List.mem_map]
        refine ⟨(⟨before.length + 1,entry.1,entry.2⟩ : DurableEvent),?_,by simp⟩
        have recent : ((before ++ [entry]).length : ℤ) - retention < before.length + 1 := by
          rw [List.length_append,List.length_singleton]
          omega
        rw [retained,List.mem_filter,numbered_concat]
        exact And.intro (List.mem_append_right _ (List.mem_singleton_self _)) (decide_eq_true recent)
      · intro id inside
        obtain ⟨e,found,rfl⟩ := List.mem_map.mp inside
        exact (le_of_mem_numbered (List.mem_filter.mp found).1).2
    rw [top]
    rfl

/-- One event more, and those out of the retention dropped. -/
theorem retained_concat {retention : ℤ} (some_ : 1 ≤ retention) (log : List (String × Text)) (type : String) (data : Text) :
    retained retention (log ++ [(type,data)]) =
      (retained retention log ++ [(⟨log.length + 1,type,data⟩ : DurableEvent)]).filter fun e => log.length + 1 - retention < e.id := by
  have last : ([⟨log.length + 1,type,data⟩] : List DurableEvent).filter (fun e => log.length + 1 - retention < e.id) =
      [⟨log.length + 1,type,data⟩] := by
    have kept : (log.length : ℤ) + 1 - retention < log.length + 1 := by omega
    simp [kept]
  rw [retained,numbered_concat,List.filter_append,List.filter_append,retained,List.filter_filter,last,
    List.length_append,List.length_singleton]
  congr 1
  · refine List.filter_congr fun e _ => ?_
    push_cast
    by_cases kept : (log.length : ℤ) + 1 - retention < e.id
    · have before : (log.length : ℤ) - retention < e.id := by omega
      simp [kept,before]
    · simp [kept]

theorem length_numbered (log : List (String × Text)) : (numbered log).length = log.length := by simp [numbered]

theorem numbered_append (first second : List (String × Text)) :
    (numbered (first ++ second)).take first.length = numbered first := by
  simp [numbered,List.zipIdx_append]

theorem filter_numbered_le (log : List (String × Text)) (n : ℕ) :
    (numbered log).filter (fun e => e.id ≤ (n : ℤ)) = (numbered log).take n := by
  induction log using List.reverseRecOn with
  | nil => exact List.take_nil.symm
  | append_singleton log entry ih =>
    rw [numbered_concat,List.filter_append,ih,List.take_append,length_numbered]
    congr 1
    by_cases within : n ≤ log.length
    · have dropped : ¬(log.length + 1 : ℤ) ≤ n := by omega
      simp [dropped,Nat.sub_eq_zero_of_le within]
    · have kept : (log.length + 1 : ℤ) ≤ n := by omega
      obtain ⟨more,is_⟩ : ∃ more, n - log.length = more + 1 := ⟨n - log.length - 1,by omega⟩
      simp [kept,is_]

theorem filter_numbered (log : List (String × Text)) (n : ℕ) :
    (numbered log).filter (fun e => (n : ℤ) < e.id) = (numbered log).drop n := by
  induction log using List.reverseRecOn with
  | nil => exact List.drop_nil.symm
  | append_singleton log entry ih =>
    rw [numbered_concat,List.filter_append,ih]
    by_cases within : n ≤ log.length
    · have kept : (n : ℤ) < log.length + 1 := by omega
      rw [List.drop_append_of_le_length (by rw [length_numbered]; exact within)]
      simp [kept]
    · have dropped : ¬(n : ℤ) < log.length + 1 := by omega
      rw [List.drop_eq_nil_of_le (by rw [length_numbered]; omega),List.drop_eq_nil_of_le (by simp [length_numbered]; omega)]
      simp [dropped]

end Numbered

namespace DurableRunStore
variable {store : DurableRunStore} {id : String} {log : List (String × Text)}

theorem mem_eventsOf {r : EventRow} (inside : r ∈ store.events.rows) : r.event ∈ store.eventsOf r.runId :=
  List.mem_map.mpr ⟨r,Table.mem_select.mpr ⟨inside,by simp⟩,rfl⟩

/-- The events of one run up to a bound are deleted. -/
theorem eventsOf_drop (store : DurableRunStore) (events : Table EventRow.primary) (id other : String) (bound : ℤ) :
    ({ store with events := events.keep fun r => ¬(r.runId = id ∧ r.event.id ≤ bound) } : DurableRunStore).eventsOf other =
      if other = id then (({ store with events } : DurableRunStore).eventsOf other).filter fun e => bound < e.id
      else ({ store with events } : DurableRunStore).eventsOf other := by
  simp only [eventsOf,Table.select,Table.keep,List.filter_filter]
  by_cases same : other = id
  · rw [if_pos same,List.filter_map,List.filter_filter,same]
    congr 1
    refine List.filter_congr fun r _ => ?_
    by_cases here : r.runId = id <;> simp [here]
  · rw [if_neg same]
    congr 1
    refine List.filter_congr fun r _ => ?_
    by_cases here : r.runId = other <;> simp [here,same]

/-- An event is numbered after the last of its run, whatever has been dropped. -/
theorem emit_spec (some_ : 1 ≤ store.retention) (kept : store.eventsOf id = retained store.retention log)
    (there : (store.runs.find? id).isSome) (type : String) (data : Text) :
    ∃ store', store.emit id type data = some (store',⟨log.length + 1,type,data⟩) ∧ store'.runs = store.runs ∧
      store'.idempotency = store.idempotency ∧ store'.retention = store.retention ∧
      store'.eventsOf id = retained store.retention (log ++ [(type,data)]) ∧
      ∀ other, other ≠ id → store'.eventsOf other = store.eventsOf other := by
  have last : (store.lastSequence id).getD 0 = log.length := by
    rw [lastSequence,kept,last_retained some_]
  obtain ⟨event,same⟩ : ∃ event : DurableEvent, event = ⟨log.length + 1,type,data⟩ := ⟨_,rfl⟩
  have old : ∀ e ∈ retained store.retention log, e.id ≤ log.length := fun e found =>
    (le_of_mem_numbered (List.mem_filter.mp found).1).2
  have absent : store.events.find? (EventRow.primary ⟨id,event⟩) = none := by
    rw [Table.find?_eq_none_iff]
    intro r inside clash
    obtain ⟨run,number⟩ := Prod.mk.inj clash
    have found := mem_eventsOf inside
    rw [run,kept] at found
    have below := old _ found
    rw [number,same] at below
    exact absurd below (by simp)
  obtain ⟨events,inserted⟩ := Table.insert?_of_absent absent
  have rows := (Table.insert?_eq_some_iff.mp inserted).2
  have here : ({ store with events } : DurableRunStore).eventsOf id = retained store.retention log ++ [event] := by
    rw [eventsOf,Table.select,rows,List.filter_append,List.map_append,← kept]
    simp [eventsOf,Table.select]
  have elsewhere : ∀ other, other ≠ id → ({ store with events } : DurableRunStore).eventsOf other = store.eventsOf other :=
    fun other ne => by
      rw [eventsOf,Table.select,rows,List.filter_append,List.map_append]
      simp [eventsOf,Table.select,ne.symm]
  have top : ({ store with events } : DurableRunStore).lastSequence id = some (log.length + 1 : ℤ) := by
    rw [lastSequence,here,List.map_append,List.max?_eq_some_iff,same]
    refine ⟨List.mem_append_right _ (List.mem_singleton_self _),fun number inside => ?_⟩
    rcases List.mem_append.mp inside with before | final
    · obtain ⟨e,found,rfl⟩ := List.mem_map.mp before
      exact (old e found).trans (by simp)
    · exact (List.mem_singleton.mp final).le
  refine ⟨{ store with
    events := events.keep fun r => ¬(r.runId = id ∧ r.event.id ≤ log.length + 1 - store.retention) },?_,rfl,rfl,rfl,?_,?_⟩
  · have dropped : (events.keep fun r => ¬(r.runId = id ∧ (({ store with events } : DurableRunStore).lastSequence id).any
        fun top => r.event.id ≤ top - store.retention)) =
        events.keep fun r => ¬(r.runId = id ∧ r.event.id ≤ log.length + 1 - store.retention) := by
      congr 1
      funext r
      simp [top]
    rw [emit,last,← same]
    simp only [there,guard_true,inserted]
    exact congrArg (fun events => some (({ store with events } : DurableRunStore),event)) dropped
  · rw [eventsOf_drop,if_pos rfl,here,retained_concat some_,same]
  · intro other ne
    rw [eventsOf_drop,if_neg ne,elsewhere other ne]

end DurableRunStore

theorem find?_getD_insert? {κ ρ : Type} {key : ρ → κ} [DecidableEq κ] (t : Table key) (r : ρ) (k : κ) :
    ((t.insert? r).getD t).find? k = (t.find? k).or (if key r = k then some r else none) := by
  cases inserted : t.insert? r with
  | none =>
    have there : ∃ old, t.find? (key r) = some old := by
      by_contra none_
      obtain ⟨u,found⟩ := Table.insert?_of_absent (t := t) (r := r) (by simpa [Option.eq_none_iff_forall_ne_some] using none_)
      exact absurd (inserted.symm.trans found) (by simp)
    obtain ⟨old,found⟩ := there
    by_cases same : key r = k
    · subst same
      simp [found]
    · simp [same]
  | some u =>
    rw [Option.getD_some,Table.find?_insert? inserted]
    by_cases same : key r = k
    · subst same
      rw [if_pos rfl,if_pos rfl,(Table.insert?_eq_some_iff.mp inserted).1,Option.none_or]
    · rw [if_neg same,if_neg same,Option.or_none]

namespace DurableRunStore
variable {tenantId : String}

theorem find?_setStatus (store : DurableRunStore) (id other : String) (status : RunStatus) :
    (store.setStatus id status).runs.find? other =
      (store.runs.find? other).map fun r => if id = other then { r with status } else r := by
  unfold setStatus
  cases found : store.runs.find? id with
  | none =>
    by_cases same : id = other
    · subst same
      simp [found]
    · simp [same]
  | some r =>
    have named := Table.key_of_find? found
    dsimp only
    rw [Table.find?_put]
    by_cases same : id = other
    · subst same
      rw [if_pos named,found]
      simp
    · have elsewhere : RunRow.id { r with status } ≠ other := fun clash => same (named.symm.trans clash)
      rw [if_neg elsewhere]
      simp [same]

theorem setStatus_frame (store : DurableRunStore) (id : String) (status : RunStatus) :
    (store.setStatus id status).idempotency = store.idempotency ∧ (store.setStatus id status).events = store.events ∧
      (store.setStatus id status).retention = store.retention := by
  unfold setStatus
  cases store.runs.find? id <;> exact ⟨rfl,rfl,rfl⟩

theorem emit_frame {store store' : DurableRunStore} {id type : String} {data : Text} {event : DurableEvent}
    (emits : store.emit id type data = some (store',event)) :
    store'.runs = store.runs ∧ store'.idempotency = store.idempotency ∧ store'.retention = store.retention := by
  unfold emit at emits
  obtain ⟨_,_,emits⟩ := Option.bind_eq_some_iff.mp emits
  obtain ⟨events,_,emits⟩ := Option.bind_eq_some_iff.mp emits
  obtain ⟨rfl,_⟩ := Prod.mk.inj (Option.some.inj emits)
  exact ⟨rfl,rfl,rfl⟩

end DurableRunStore

section Requests
variable {tenantId : String} {store : DurableRunStore}

/-- Every run is of the one tenant of the server, and every key names a run. -/
structure Owned (tenantId : String) (store : DurableRunStore) : Prop where
  tenant : ∀ id r, store.runs.find? id = some r → r.tenantId = tenantId
  keys : ∀ key row, store.idempotency.find? (tenantId,key) = some row → (store.runs.find? row.runId).isSome

theorem Owned.get (owned : Owned tenantId store) {id : String} {r : RunRow} (found : store.runs.find? id = some r) :
    store.get id tenantId = some ⟨r.id,r.tenantId,r.sessionId,r.status,r.createdAt,
      (store.eventsOf id).insertionSort fun a b => a.id ≤ b.id⟩ := by
  simp [DurableRunStore.get,found,owned.tenant id r found]

/-- A key that was never used starts a run; any other gives the run it started. -/
theorem Owned.submit_cases (owned : Owned tenantId store) (id sessionId key : String) (now : ℤ) :
    (∃ old row, key ≠ "" ∧ store.idempotency.find? (tenantId,key) = some row ∧ store.get row.runId tenantId = some old ∧
      submit tenantId store id sessionId key now = (store,some old,false)) ∨
    ((key ≠ "" → store.idempotency.find? (tenantId,key) = none) ∧
      submit tenantId store id sessionId key now =
        (store.create ⟨id,tenantId,sessionId,.running,now,[]⟩ key,
          (store.create ⟨id,tenantId,sessionId,.running,now,[]⟩ key).get id tenantId,true)) := by
  unfold submit
  by_cases unnamed : key = ""
  · rw [if_pos unnamed]
    exact .inr ⟨fun given => absurd unnamed given,rfl⟩
  · rw [if_neg unnamed]
    cases found : store.idempotency.find? (tenantId,key) with
    | none =>
      refine .inr ⟨fun _ => rfl,?_⟩
      rw [DurableRunStore.idempotent,found]
      rfl
    | some row =>
      obtain ⟨r,there⟩ := Option.isSome_iff_exists.mp (owned.keys key row found)
      refine .inl ⟨_,row,unnamed,rfl,owned.get there,?_⟩
      rw [DurableRunStore.idempotent,found,Option.bind_some,owned.get there]

theorem find?_create (store : DurableRunStore) (id sessionId key other : String) (now : ℤ) :
    (store.create ⟨id,tenantId,sessionId,.running,now,[]⟩ key).runs.find? other =
      (store.runs.find? other).or (if id = other then some ⟨id,tenantId,sessionId,.running,now⟩ else none) :=
  find?_getD_insert? ..

theorem find?_create_key (store : DurableRunStore) (id sessionId key other : String) (now : ℤ) :
    (store.create ⟨id,tenantId,sessionId,.running,now,[]⟩ key).idempotency.find? (tenantId,other) =
      (store.idempotency.find? (tenantId,other)).or (if key ≠ "" ∧ key = other then some ⟨tenantId,key,id⟩ else none) := by
  unfold DurableRunStore.create
  by_cases unnamed : key = ""
  · simp [unnamed]
  · dsimp only
    rw [if_neg unnamed,find?_getD_insert?]
    simp [KeyRow.primary,unnamed]

theorem isSome_create {id other : String} (there : (store.runs.find? other).isSome) (sessionId key : String) (now : ℤ) :
    ((store.create ⟨id,tenantId,sessionId,.running,now,[]⟩ key).runs.find? other).isSome := by
  rw [find?_create]
  simp [there]

theorem Owned.create (owned : Owned tenantId store) (id sessionId key : String) (now : ℤ) :
    Owned tenantId (store.create ⟨id,tenantId,sessionId,.running,now,[]⟩ key) where
  tenant other r found := by
    rw [find?_create,Option.or_eq_some_iff] at found
    rcases found with old | ⟨_,new⟩
    · exact owned.tenant other r old
    · rw [Option.ite_none_right_eq_some] at new
      rw [← Option.some.inj new.2]
  keys other row found := by
    rw [find?_create_key,Option.or_eq_some_iff] at found
    rcases found with old | ⟨_,new⟩
    · exact isSome_create (owned.keys other row old) ..
    · rw [Option.ite_none_right_eq_some] at new
      rw [← Option.some.inj new.2,find?_create]
      simp

theorem Owned.frame {store' : DurableRunStore} (owned : Owned tenantId store) (runs : store'.runs = store.runs)
    (idempotency : store'.idempotency = store.idempotency) : Owned tenantId store' where
  tenant id r found := owned.tenant id r (runs ▸ found)
  keys key row found := runs ▸ owned.keys key row (idempotency ▸ found)

theorem Owned.setStatus (owned : Owned tenantId store) (id : String) (status : RunStatus) :
    Owned tenantId (store.setStatus id status) where
  tenant other r found := by
    rw [DurableRunStore.find?_setStatus] at found
    obtain ⟨old,there,rfl⟩ := Option.map_eq_some_iff.mp found
    have ours := owned.tenant other old there
    split <;> exact ours
  keys key row found := by
    rw [(DurableRunStore.setStatus_frame store id status).1] at found
    rw [DurableRunStore.find?_setStatus,Option.isSome_map]
    exact owned.keys key row found

theorem Owned.step (owned : Owned tenantId store) (op : Op) : Owned tenantId (step tenantId store op) := by
  cases op with
  | submit id sessionId key now =>
    rcases owned.submit_cases id sessionId key now with ⟨old,row,_,_,_,answers⟩ | ⟨_,answers⟩
    · simpa [RunStore.step,answers] using owned
    · simpa [RunStore.step,answers] using owned.create id sessionId key now
  | emit id type data =>
    rw [RunStore.step]
    cases emits : store.emit id type data with
    | none => exact owned
    | some result =>
      obtain ⟨runs,idempotency,_⟩ := DurableRunStore.emit_frame emits
      exact owned.frame runs idempotency
  | setStatus id status => exact owned.setStatus id status

/-- The run of a key, as far as it never changes. -/
structure Resolved (tenantId key : String) (store : DurableRunStore) (run : DurableRun) : Prop where
  row : store.idempotency.find? (tenantId,key) = some ⟨tenantId,key,run.id⟩
  started : ∃ r, store.runs.find? run.id = some r ∧ r.sessionId = run.sessionId ∧ r.createdAt = run.createdAt

theorem Resolved.step {key : String} {run : DurableRun} (owned : Owned tenantId store)
    (resolved : Resolved tenantId key store run) (op : Op) : Resolved tenantId key (step tenantId store op) run := by
  obtain ⟨row,r,found,session,created⟩ := resolved
  cases op with
  | submit id sessionId other now =>
    rcases owned.submit_cases id sessionId other now with ⟨old,_,_,_,_,answers⟩ | ⟨_,answers⟩
    · simp only [RunStore.step,answers]
      exact ⟨row,r,found,session,created⟩
    · simp only [RunStore.step,answers]
      refine ⟨?_,r,?_,session,created⟩
      · rw [find?_create_key,row,Option.some_or]
      · rw [find?_create,found,Option.some_or]
  | emit id type data =>
    rw [RunStore.step]
    cases emits : store.emit id type data with
    | none => exact ⟨row,r,found,session,created⟩
    | some result =>
      obtain ⟨runs,idempotency,_⟩ := DurableRunStore.emit_frame emits
      refine ⟨?_,r,?_,session,created⟩
      · rw [Option.map_some,Option.getD_some,idempotency]
        exact row
      · rw [Option.map_some,Option.getD_some,runs]
        exact found
  | setStatus id status =>
    have there := DurableRunStore.find?_setStatus store id run.id status
    rw [found,Option.map_some] at there
    refine ⟨?_,_,there,?_,?_⟩
    · rw [RunStore.step,(DurableRunStore.setStatus_frame store id status).1]
      exact row
    · split <;> exact session
    · split <;> exact created

theorem Owned.run (owned : Owned tenantId store) (ops : List Op) : Owned tenantId (Run.run (RunStore.step tenantId) store ops) := by
  induction ops generalizing store with
  | nil => exact owned
  | cons op ops ih => exact ih (owned.step op)

theorem Resolved.run {key : String} {run : DurableRun} (owned : Owned tenantId store)
    (resolved : Resolved tenantId key store run) (ops : List Op) :
    Resolved tenantId key (Run.run (RunStore.step tenantId) store ops) run := by
  induction ops generalizing store with
  | nil => exact resolved
  | cons op ops ih => exact ih (owned.step op) (resolved.step owned op)

theorem Owned.make (tenantId : String) (retention : ℤ) : Owned tenantId (.make retention) where
  tenant _ _ found := absurd found (by simp [DurableRunStore.make])
  keys _ _ found := absurd found (by simp [DurableRunStore.make])

/-- A request with a key resolves it, to the run that it answers. -/
theorem submit_resolves (owned : Owned tenantId store) {key : String} (given : key ≠ "") (id sessionId : String) (now : ℤ) :
    ∃ run, (submit tenantId store id sessionId key now).2.1 = some run ∧
      Resolved tenantId key (submit tenantId store id sessionId key now).1 run := by
  rcases owned.submit_cases id sessionId key now with ⟨old,row,_,found,got,answers⟩ | ⟨fresh,answers⟩
  · obtain ⟨r,there⟩ := Option.isSome_iff_exists.mp (owned.keys key row found)
    have named : row.primary = (tenantId,key) := Table.key_of_find? found
    obtain ⟨rowTenant,rowKey⟩ := Prod.mk.inj named
    rw [owned.get there] at got
    rw [answers]
    refine ⟨old,rfl,?_,r,?_,?_,?_⟩
    · rw [found,← Option.some.inj got,Table.key_of_find? there,← rowTenant,← rowKey]
    · rw [← Option.some.inj got]
      exact Table.key_of_find? there ▸ there
    · rw [← Option.some.inj got]
    · rw [← Option.some.inj got]
  · rw [answers]
    obtain ⟨r,there⟩ : ∃ r, (store.create ⟨id,tenantId,sessionId,.running,now,[]⟩ key).runs.find? id = some r := by
      rw [find?_create]
      cases store.runs.find? id <;> simp
    have named : r.id = id := Table.key_of_find? there
    refine ⟨_,(owned.create id sessionId key now).get there,?_,r,named.symm ▸ there,rfl,rfl⟩
    rw [find?_create_key,fresh given]
    simp [given,named]

/-- Requests that repeat a key start one run, whatever has happened between them. -/
theorem submit_once (tenantId : String) (retention now now' : ℤ) (before between : List Op)
    (id id' sessionId sessionId' key : String) (given : key ≠ "") :
    let first := submit tenantId (Run.run (step tenantId) (.make retention) before) id sessionId key now
    let store := Run.run (step tenantId) first.1 between
    ∃ run run', first.2.1 = some run ∧ submit tenantId store id' sessionId' key now' = (store,some run',false) ∧
      run'.id = run.id ∧ run'.sessionId = run.sessionId ∧ run'.createdAt = run.createdAt := by
  intro first store
  have owned := (Owned.make tenantId retention).run before
  have after : Owned tenantId first.1 := owned.step (.submit id sessionId key now)
  obtain ⟨run,answered,resolved⟩ := submit_resolves owned given id sessionId now
  obtain ⟨row,r,found,session,created⟩ := resolved.run after between
  rcases (after.run between).submit_cases id' sessionId' key now' with ⟨old,row',_,there,got,answers⟩ | ⟨fresh,_⟩
  · have same := Option.some.inj (there.symm.trans row)
    rw [same] at got
    rw [(after.run between).get found] at got
    have is_ := Option.some.inj got
    have named : r.id = run.id := Table.key_of_find? found
    refine ⟨run,old,answered,answers,?_,?_,?_⟩
    · rw [← is_]
      exact named
    · rw [← is_]
      exact session
    · rw [← is_]
      exact created
  · exact absurd (row.symm.trans (fresh given)) (by simp)

theorem submit_once_retried : ∃ run run', (submit "t" (.make 100) "a" "s" "k" 1).2.1 = some run ∧
    submit "t" (submit "t" (.make 100) "a" "s" "k" 1).1 "b" "s" "k" 2 =
      ((submit "t" (.make 100) "a" "s" "k" 1).1,some run',false) ∧
    run'.id = run.id ∧ run'.sessionId = run.sessionId ∧ run'.createdAt = run.createdAt :=
  submit_once "t" 100 1 2 [] [] "a" "b" "s" "s" "k" (by decide)

end Requests

section Events
variable {tenantId : String} {store : DurableRunStore} {logs : String → List (String × Text)}

/-- The store has the recent part of everything its runs have emitted. -/
structure Keeps (store : DurableRunStore) (logs : String → List (String × Text)) : Prop where
  events : ∀ id, store.eventsOf id = retained store.retention (logs id)
  absent : ∀ id, store.runs.find? id = none → logs id = []

theorem Keeps.make (retention : ℤ) : Keeps (.make retention) fun _ => [] where
  events _ := rfl
  absent _ _ := rfl

theorem Keeps.emit (keeps : Keeps store logs) (some_ : 1 ≤ store.retention) (id type : String) (data : Text) :
    let store' := ((store.emit id type data).map (·.1)).getD store
    store'.retention = store.retention ∧ Keeps store' fun other =>
      logs other ++ if id = other ∧ (store.runs.find? other).isSome then [(type,data)] else [] := by
  by_cases there : (store.runs.find? id).isSome
  · obtain ⟨store',emits,runs,_,retention,here,elsewhere⟩ :=
      DurableRunStore.emit_spec some_ (keeps.events id) there type data
    simp only [emits,Option.map_some,Option.getD_some]
    refine ⟨retention,fun other => ?_,fun other absent => ?_⟩
    · by_cases same : other = id
      · subst same
        simp [here,there,retention]
      · simp [elsewhere other same,keeps.events other,retention,Ne.symm same]
    · rw [runs] at absent
      simp [absent,keeps.absent other absent]
  · have refused : store.emit id type data = none := by
      simp [DurableRunStore.emit,there]
    rw [refused]
    refine ⟨rfl,fun other => ?_,fun other absent => ?_⟩
    · have nothing : ¬(id = other ∧ (store.runs.find? other).isSome) := by
        rintro ⟨rfl,present⟩
        exact there present
      simp [nothing,keeps.events other]
    · have nothing : ¬(id = other ∧ (store.runs.find? other).isSome) := by
        rintro ⟨rfl,present⟩
        exact there present
      simp [nothing,keeps.absent other absent]

theorem Keeps.frame {store' : DurableRunStore} (keeps : Keeps store logs) (events : store'.events = store.events)
    (retention : store'.retention = store.retention)
    (runs : ∀ id, store'.runs.find? id = none → store.runs.find? id = none) : Keeps store' logs where
  events id := by
    rw [DurableRunStore.eventsOf,events,retention]
    exact keeps.events id
  absent id none_ := keeps.absent id (runs id none_)

theorem Keeps.step (keeps : Keeps store logs) (owned : Owned tenantId store) (some_ : 1 ≤ store.retention) (op : Op) :
    (step tenantId store op).retention = store.retention ∧
      Keeps (RunStore.step tenantId store op) fun id => logs id ++ emitted tenantId id store [op] := by
  cases op with
  | submit id sessionId key now =>
    simp only [emitted,List.append_nil]
    rcases owned.submit_cases id sessionId key now with ⟨old,row,_,_,_,answers⟩ | ⟨_,answers⟩
    · rw [RunStore.step,answers]
      exact ⟨rfl,keeps⟩
    · rw [RunStore.step,answers]
      refine ⟨rfl,keeps.frame rfl rfl fun other none_ => ?_⟩
      rw [find?_create,Option.or_eq_none_iff] at none_
      exact none_.1
  | emit id type data =>
    simp only [emitted,List.append_nil]
    exact keeps.emit some_ id type data
  | setStatus id status =>
    simp only [emitted,List.append_nil]
    obtain ⟨_,events,retention⟩ := DurableRunStore.setStatus_frame store id status
    refine ⟨retention,keeps.frame events retention fun other none_ => ?_⟩
    rw [RunStore.step,DurableRunStore.find?_setStatus,Option.map_eq_none_iff] at none_
    exact none_

theorem emitted_append (id : String) (first second : List Op) (store : DurableRunStore) :
    emitted tenantId id store (first ++ second) =
      emitted tenantId id store first ++ emitted tenantId id (Run.run (RunStore.step tenantId) store first) second := by
  induction first generalizing store with
  | nil => rfl
  | cons op ops ih =>
    simp only [List.cons_append,emitted,ih,List.append_assoc]
    rfl

theorem Keeps.run (keeps : Keeps store logs) (owned : Owned tenantId store) (some_ : 1 ≤ store.retention) (ops : List Op) :
    (Run.run (RunStore.step tenantId) store ops).retention = store.retention ∧
      Keeps (Run.run (RunStore.step tenantId) store ops) fun id => logs id ++ emitted tenantId id store ops := by
  induction ops generalizing store logs with
  | nil => simpa [Run.run,emitted] using keeps
  | cons op ops ih =>
    obtain ⟨retention,next⟩ := keeps.step owned some_ op
    obtain ⟨same,after⟩ := ih next (owned.step op) (retention ▸ some_)
    refine ⟨same.trans retention,?_⟩
    have joined : (fun id => (logs id ++ emitted tenantId id store [op]) ++
        emitted tenantId id (RunStore.step tenantId store op) ops) = fun id => logs id ++ emitted tenantId id store (op :: ops) := by
      funext id
      rw [List.append_assoc]
      exact congrArg _ (emitted_append id [op] ops store).symm
    rw [← joined]
    exact after

theorem emitted_length_le (id : String) (ops : List Op) (store : DurableRunStore) :
    (emitted tenantId id store ops).length ≤ ops.countP (Op.emits id) := by
  induction ops generalizing store with
  | nil => exact Nat.le_refl _
  | cons op ops ih =>
    have rest := ih (RunStore.step tenantId store op)
    rw [List.countP_cons]
    cases op with
    | submit id' sessionId key now => simpa [emitted,Op.emits] using rest
    | setStatus id' status => simpa [emitted,Op.emits] using rest
    | emit run type data =>
      rw [emitted,List.length_append]
      by_cases same : run = id
      · have one : (if run = id ∧ (store.runs.find? id).isSome then [(type,data)] else []).length ≤ 1 := by
          split <;> simp
        have counted : Op.emits id (.emit run type data) = true := decide_eq_true same
        rw [if_pos counted,Nat.add_comm]
        exact Nat.add_le_add rest one
      · simpa [Op.emits,same] using rest

theorem Keeps.eventsAfter (keeps : Keeps store logs) (owned : Owned tenantId store) (id : String) (last : ℤ) :
    (eventsAfter tenantId store id (.finite last)).getD [] =
      (retained store.retention (logs id)).filter fun e => last < e.id := by
  rw [RunStore.eventsAfter]
  cases found : store.runs.find? id with
  | none =>
    have nothing := keeps.absent id found
    simp [DurableRunStore.get,found,nothing,retained,numbered]
  | some r =>
    have sorted : (store.eventsOf id).Pairwise fun a b => a.id ≤ b.id := by
      rw [keeps.events id]
      exact ((numbered_sorted _).imp Int.le_of_lt).filter _
    rw [owned.get found,Option.map_some,Option.getD_some]
    dsimp only
    rw [List.Pairwise.insertionSort_eq sorted,keeps.events id]
    refine List.filter_congr fun e _ => decide_eq_decide.mpr ?_
    change decide ((last : ℚ) < e.id) = true ↔ last < e.id
    rw [decide_eq_true_iff,Int.cast_lt]

/-- What a client has seen is in the log, up to the event it asks after. -/
theorem last_seen {log : List (String × Text)} {seen : List DurableEvent} (inside : seen.Sublist (numbered log)) :
    ∃ n : ℕ, (seen.getLast?.map (·.id)).getD 0 = n ∧ ∀ e ∈ seen, e.id ≤ n := by
  rcases seen.eq_nil_or_concat' with rfl | ⟨before,e,rfl⟩
  · exact ⟨0,rfl,fun e none_ => absurd none_ (by simp)⟩
  · have bounds := le_of_mem_numbered (inside.subset (List.mem_append_right before (List.mem_singleton_self e)))
    have ascending := (numbered_sorted log).sublist inside
    refine ⟨e.id.toNat,?_,fun a found => ?_⟩
    · rw [List.getLast?_concat,Option.map_some,Option.getD_some]
      omega
    · rcases List.mem_append.mp found with earlier | last
      · have less := (List.pairwise_append.mp ascending).2.2 a earlier e (List.mem_singleton_self e)
        omega
      · rw [List.mem_singleton.mp last]
        omega

theorem last_of_numbered (log : List (String × Text)) : ((numbered log).getLast?.map (·.id)).getD 0 = log.length := by
  rcases log.eq_nil_or_concat' with rfl | ⟨before,entry,rfl⟩
  · rfl
  · rw [numbered_concat,List.getLast?_concat]
    simp

/-- The events after the last one seen continue what was seen, without a repetition. -/
theorem sublist_resume {first second : List (String × Text)} {seen : List DurableEvent}
    (inside : seen.Sublist (numbered first)) (retention : ℤ) :
    (seen ++ (retained retention (first ++ second)).filter fun e => (seen.getLast?.map (·.id)).getD 0 < e.id).Sublist
      (numbered (first ++ second)) := by
  obtain ⟨n,last,le⟩ := last_seen inside
  have early : seen.Sublist ((numbered (first ++ second)).take n) := by
    have all : seen.filter (fun e => e.id ≤ (n : ℤ)) = seen := List.filter_eq_self.mpr fun e found => decide_eq_true (le e found)
    have whole : seen.Sublist (numbered (first ++ second)) :=
      inside.trans (numbered_append first second ▸ List.take_sublist _ _)
    rw [← filter_numbered_le,← all]
    exact whole.filter _
  have late : ((retained retention (first ++ second)).filter fun e => (n : ℤ) < e.id).Sublist
      ((numbered (first ++ second)).drop n) := by
    rw [← filter_numbered]
    exact List.filter_sublist.filter _
  rw [last]
  have joined := early.append late
  rwa [List.take_append_drop] at joined

/-- And without a loss where the store has kept what came since. -/
theorem eq_resume {first second : List (String × Text)} {retention : ℤ} (few : second.length ≤ retention) :
    (numbered first ++ (retained retention (first ++ second)).filter fun e =>
      ((numbered first).getLast?.map (·.id)).getD 0 < e.id) = numbered (first ++ second) := by
  have recent : (retained retention (first ++ second)).filter (fun e => (first.length : ℤ) < e.id) =
      (numbered (first ++ second)).filter fun e => (first.length : ℤ) < e.id := by
    rw [retained,List.filter_filter]
    refine List.filter_congr fun e _ => ?_
    by_cases after : (first.length : ℤ) < e.id
    · have kept : (first.length : ℤ) + second.length - retention < e.id := by omega
      simp [after,kept]
    · simp [after]
  rw [last_of_numbered,recent,filter_numbered]
  conv_lhs => rw [← numbered_append first second]
  exact List.take_append_drop _ _

theorem follow_spec (some_ : 1 ≤ store.retention) (owned : Owned tenantId store) (keeps : Keeps store logs) (id : String)
    {seen : List DurableEvent} (inside : seen.Sublist (numbered (logs id))) (polls : List (List Op)) :
    (follow tenantId id store seen polls).Sublist (numbered (logs id ++ emitted tenantId id store polls.flatten)) ∧
      (seen = numbered (logs id) → (∀ ops ∈ polls, (ops.countP (Op.emits id) : ℤ) ≤ store.retention) →
        follow tenantId id store seen polls = numbered (logs id ++ emitted tenantId id store polls.flatten)) := by
  induction polls generalizing store logs seen with
  | nil => simpa [follow,emitted] using inside
  | cons ops polls ih =>
    obtain ⟨retention,after⟩ := keeps.run owned some_ ops
    have asked := after.eventsAfter (owned.run ops) id ((seen.getLast?.map (·.id)).getD 0)
    have next := @sublist_resume _ (emitted tenantId id store ops) _ inside store.retention
    rw [retention] at asked
    rw [← asked] at next
    obtain ⟨sub,whole⟩ := ih (retention.symm ▸ some_) (owned.run ops) after next
    rw [List.flatten_cons,emitted_append,← List.append_assoc]
    refine ⟨sub,fun all few => whole ?_ fun ops' later => retention.symm ▸ few ops' (.tail _ later)⟩
    have arrived : ((emitted tenantId id store ops).length : ℤ) ≤ store.retention :=
      (Int.ofNat_le.mpr (emitted_length_le id ops store)).trans (few ops (.head _))
    rw [asked,all]
    exact eq_resume arrived

/-- A client that always asks after the last event it has gets the log of the run in order, no event twice; it gets
all of it where the run never emits more than the retention between two requests. -/
theorem events_resume (tenantId id : String) (retention : ℤ) (some_ : 1 ≤ retention) (polls : List (List Op)) :
    let seen := follow tenantId id (.make retention) [] polls
    let log := numbered (emitted tenantId id (.make retention) polls.flatten)
    seen.Sublist log ∧ ((∀ ops ∈ polls, (ops.countP (Op.emits id) : ℤ) ≤ retention) → seen = log) := by
  intro seen log
  obtain ⟨sub,whole⟩ := @follow_spec tenantId (.make retention) _ some_ (.make tenantId retention) (.make retention) id
    [] (List.Sublist.refl _) polls
  exact ⟨sub,fun few => whole rfl few⟩

theorem events_resume_twice :
    follow "t" "a" (.make 1) [] [[.submit "a" "s" "" 0,.emit "a" "run.started" []],[.emit "a" "run.completed" []]] =
      numbered (emitted "t" "a" (.make 1)
        [.submit "a" "s" "" 0,.emit "a" "run.started" [],.emit "a" "run.completed" []]) :=
  (events_resume "t" "a" 1 (by decide)
    [[.submit "a" "s" "" 0,.emit "a" "run.started" []],[.emit "a" "run.completed" []]]).2 (by decide)

end Events

end RatifyOs.Web.RunStore
