import RatifyOs.Autonomy.Outbox
import RatifyOs.Data.Result

/-! All instances of `SqliteEventBus` that one process opens on one path: each has its own
connection and its own subscriptions, and they share the database and the lock. -/
namespace RatifyOs.Autonomy.Instances
open Data Data.Run

/-- A write of a handler through its transaction, and the call of the handler it belongs to. -/
structure Effect where
  consumer : String
  eventId : String
  call : ℕ
  deriving DecidableEq

structure Database where
  tables : BusTables
  effects : List Effect

/-- The open transaction of a handler: the instance whose connection has it, what a rollback
brings back, and the number of the call. -/
structure Transaction where
  holder : ℕ
  before : Database
  call : ℕ

/-- `db` is what the connection of the open transaction sees, if there is one. The calls of
handlers are numbered; those that failed are no part of the code. -/
structure Process where
  db : Database
  transaction : Option Transaction
  subs : ℕ → List Sub
  serial : ℕ
  queue : List (ℕ × Task)
  passes : ℕ → Option (ℕ × Pass)
  count : ℕ
  calls : ℕ
  failed : List ℕ

inductive ProcessEvent where
  | subscribe (bus : ℕ) (name : String) (options : Options)
  | unsubscribe (bus : ℕ) (name : String)
  | publish (bus : ℕ) (input : EventEnvelope)
  | deliver (bus : ℕ)
  | turn (pass : ℕ)
  | work
  /-- The handler writes through its transaction. -/
  | execute
  | settle (answer : Except String Unit)

namespace Process

def empty : Process := ⟨⟨.empty,[]⟩,none,fun _ => [],1,[],fun _ => none,0,0,[]⟩

/-- What is durable. -/
def committed (p : Process) : Database := (p.transaction.map (·.before)).getD p.db

/-- Another connection has the write lock: a statement that writes throws. -/
def locked (p : Process) (bus : ℕ) : Bool := p.transaction.any (·.holder ≠ bus)

def setTables (p : Process) (tables : BusTables) : Process := { p with db := { p.db with tables } }

section Steps
variable (c : ℕ → BusConfig)

def subscribe (bus : ℕ) (name : String) (options : Options) (p : Process) : Process :=
  if p.locked bus ∨ (p.subs bus).any (·.name = name) then p
  else if (p.db.tables.subscriptions.lookup name).any (· ≠ options.definition) then p
  else { p.setTables (p.db.tables.subscribe name options.definition) with
    subs := Function.update p.subs bus (p.subs bus ++ [⟨p.serial,name,options.definition⟩])
    serial := p.serial + 1 }

/-- The start of `publish`, on the connection of its own instance, whether or not a handler
has a transaction open there. -/
def publish (bus : ℕ) (input : EventEnvelope) (p : Process) : Process :=
  if p.locked bus then p
  else match (c bus).normalize input with
    | .error _ => p
    | .ok envelope =>
      let old := p.db.tables.outbox.find? fun r => r.envelope.id = envelope.id
      let cursor := (old.map (·.cursor)).getD (p.db.tables.seq + 1)
      let stored : StoredEvent := ⟨cursor,envelope⟩
      { p.setTables (if old.isSome then p.db.tables
          else { p.db.tables with outbox := p.db.tables.outbox ++ [stored], seq := cursor }) with
        passes := Function.update p.passes p.count (some (bus,⟨some stored,0,false⟩))
        count := p.count + 1 }

def deliver (bus : ℕ) (p : Process) : Process :=
  { p with passes := Function.update p.passes p.count (some (bus,⟨none,0,false⟩)), count := p.count + 1 }

/-- A loop over the subscriptions asks for the lock for the next one, or is at its end. -/
def turn (i : ℕ) (p : Process) : Process :=
  match p.passes i with
  | some (bus,⟨stored,last,false⟩) =>
    match (p.subs bus).find? (·.serial > last) with
    | some s =>
      { p with
        passes := Function.update p.passes i (some (bus,⟨stored,s.serial,true⟩))
        queue := p.queue ++ [(bus,⟨i,s,stored.isSome,stored.toList,stored.isNone⟩)] }
    | none => { p with passes := Function.update p.passes i none }
  | _ => p

/-- The lock goes on to the next that waits for it, of whatever instance. -/
def release (failed : Bool) (p : Process) : Process :=
  match p.queue with
  | [] => p
  | (_,t) :: rest =>
    { p with
      queue := rest
      passes := Function.update p.passes t.pass
        ((p.passes t.pass).bind fun q => if failed && !t.direct then none else some (q.1,{ q.2 with waiting := false })) }

/-- What the holder of the lock does up to its next await. -/
def work (p : Process) : Process :=
  match p.transaction,p.queue with
  | none,(bus,t) :: rest =>
    let offset := p.db.tables.offsets t.sub.name
    match t.todo with
    | x :: todo =>
      if x.cursor ≤ offset then { p with queue := (bus,{ t with todo }) :: rest }
      else if (c bus).wants t.sub.definition x.envelope then
        { p with transaction := some ⟨bus,p.db,p.calls⟩, calls := p.calls + 1 }
      else { p.setTables (p.db.tables.acknowledge t.sub.name x) with queue := (bus,{ t with todo }) :: rest }
    | [] =>
      let rows := SqliteEventBus.replay (c bus) p.db.tables offset
      if t.refill = false ∨ rows.length = 0 then p.release false
      else { p with queue := (bus,{ t with todo := rows, refill := ¬((rows.length : ℤ) < (c bus).batch) }) :: rest }
  | _,_ => p

def execute (p : Process) : Process :=
  match p.transaction,p.queue with
  | some open_,(_,t) :: _ =>
    match t.todo with
    | [] => p
    | x :: _ => { p with db := { p.db with effects := p.db.effects ++ [⟨t.sub.name,x.envelope.id,open_.call⟩] } }
  | _,_ => p

/-- The handler returns, or throws. -/
def settle (answer : Except String Unit) (p : Process) : Process :=
  match p.transaction,p.queue with
  | some open_,(bus,t) :: rest =>
    match t.todo with
    | [] => p
    | x :: todo =>
      match answer with
      | .ok _ =>
        { p.setTables (p.db.tables.acknowledge t.sub.name x) with
          transaction := none
          queue := (bus,{ t with todo }) :: rest }
      | .error error =>
        let before := open_.before.tables
        let attempts := before.attempts t.sub.name x.cursor + 1
        let tables := before.setRetry t.sub.name x.cursor (some (attempts,error))
        let back := { p with db := { open_.before with tables }, transaction := none, failed := p.failed ++ [open_.call] }
        if (attempts : ℤ) ≥ (c bus).attemptsAllowed then
          { back.setTables (tables.bury t.sub.name x error) with queue := (bus,{ t with todo }) :: rest }
        else back.release true
  | _,_ => p

def step (p : Process) : ProcessEvent → Process
  | .subscribe bus name options => p.subscribe bus name options
  | .unsubscribe bus name => { p with subs := Function.update p.subs bus ((p.subs bus).filter (·.name ≠ name)) }
  | .publish bus input => p.publish c bus input
  | .deliver bus => p.deliver bus
  | .turn i => p.turn i
  | .work => p.work c
  | .execute => p.execute
  | .settle answer => p.settle c answer

end Steps

end Process

/-- A handler does not fail after an event was written into its transaction. -/
def Lossless (p : Process) : ProcessEvent → Prop
  | .settle (.error _) => ∀ open_ ∈ p.transaction, open_.before.tables.outbox = p.db.tables.outbox
  | _ => True

/-- The effects of two calls of a handler for one event are not both there, and none of a call
that failed. -/
structure AtMostOnce (p : Process) : Prop where
  once : ∀ e ∈ p.committed.effects, ∀ e' ∈ p.committed.effects, e.consumer = e'.consumer → e.eventId = e'.eventId →
    e.call = e'.call
  failed : ∀ e ∈ p.committed.effects, e.call ∉ p.failed

/-- No offset goes back, and a handler that fails leaves it where it is, or at an event that
is put aside. -/
structure Advances (p p' : Process) (event : ProcessEvent) : Prop where
  onward : ∀ n, p.committed.tables.offsets n ≤ p'.committed.tables.offsets n
  halted : ∀ error, event = .settle (.error error) → ∀ n,
    p'.committed.tables.offsets n = p.committed.tables.offsets n ∨
      ∃ d ∈ p'.committed.tables.deadLetters, d.consumer = n ∧ d.cursor = p'.committed.tables.offsets n

/-- The outbox has the event under its cursor. -/
def Known (p : Process) (x : StoredEvent) : Prop :=
  ∃ r ∈ p.db.tables.outbox, r.cursor = x.cursor ∧ r.envelope.id = x.envelope.id

/-- What holds while a handler runs, at the head of the queue. -/
structure Handling (p : Process) (open_ : Transaction) : Prop where
  offsets : p.db.tables.offsets = open_.before.tables.offsets
  head : ∃ t x todo, p.queue.head? = some (open_.holder,t) ∧ t.todo = x :: todo ∧
    p.db.tables.offsets t.sub.name < x.cursor ∧
    ∀ e ∈ p.db.effects, e ∈ open_.before.effects ∨ e = ⟨t.sub.name,x.envelope.id,open_.call⟩
  number : open_.call < p.calls
  fresh : ∀ e ∈ open_.before.effects, e.call < open_.call
  pending : open_.call ∉ p.failed

structure Sound (p : Process) : Prop where
  ids : (p.db.tables.outbox.map fun r => r.envelope.id).Nodup
  passes : ∀ i bus q, p.passes i = some (bus,q) → ∀ x ∈ q.stored, Known p x
  queue : ∀ waiting ∈ p.queue, ∀ x ∈ waiting.2.todo, Known p x
  backed : ∀ e ∈ p.committed.effects, ∃ r ∈ p.db.tables.outbox,
    r.envelope.id = e.eventId ∧ r.cursor ≤ p.db.tables.offsets e.consumer
  numbered : ∀ e ∈ p.committed.effects, e.call < p.calls
  failures : ∀ call ∈ p.failed, call < p.calls
  effects : AtMostOnce p
  handling : ∀ open_ ∈ p.transaction, Handling p open_

theorem sound_empty : Sound .empty := by
  constructor <;> simp [Process.empty,BusTables.empty,Process.committed]
  constructor <;> simp [Process.committed]

section Sound
variable {c : ℕ → BusConfig} {p p' : Process}

theorem Known.mono {x : StoredEvent} (known : Known p x) (outbox : ∀ r ∈ p.db.tables.outbox, r ∈ p'.db.tables.outbox) :
    Known p' x := by
  obtain ⟨r,inside,same⟩ := known
  exact ⟨r,outbox r inside,same⟩

/-- Steps that move no offset and settle no handler. -/
theorem Sound.frame (sound : Sound p) (transaction : p'.transaction = p.transaction)
    (ids : (p'.db.tables.outbox.map fun r => r.envelope.id).Nodup)
    (outbox : ∀ r ∈ p.db.tables.outbox, r ∈ p'.db.tables.outbox) (offsets : p'.db.tables.offsets = p.db.tables.offsets)
    (effects : p'.db.effects = p.db.effects) (calls : p'.calls = p.calls) (failed : p'.failed = p.failed)
    (passes : ∀ i bus q, p'.passes i = some (bus,q) → ∀ x ∈ q.stored, Known p' x)
    (queue : ∀ waiting ∈ p'.queue, ∀ x ∈ waiting.2.todo, Known p' x)
    (head : p.transaction.isSome → p'.queue.head? = p.queue.head?) : Sound p' := by
  have same : p'.committed.effects = p.committed.effects := by
    unfold Process.committed
    rw [transaction]
    cases p.transaction with
    | none => exact effects
    | some open_ => rfl
  refine ⟨ids,passes,queue,?_,?_,?_,?_,?_⟩
  · rw [same,offsets]
    intro e inside
    obtain ⟨r,there,about⟩ := sound.backed e inside
    exact ⟨r,outbox r there,about⟩
  · rw [same,calls]
    exact sound.numbered
  · rw [failed,calls]
    exact sound.failures
  · refine ⟨?_,?_⟩
    · rw [same]
      exact sound.effects.once
    · rw [same,failed]
      exact sound.effects.failed
  · intro open_ inside
    rw [transaction] at inside
    have handling := sound.handling open_ inside
    refine ⟨offsets.trans handling.offsets,?_,calls ▸ handling.number,handling.fresh,failed ▸ handling.pending⟩
    rw [head (by rw [inside]; rfl),offsets,effects]
    exact handling.head

theorem Sound.deliver (sound : Sound p) (bus : ℕ) : Sound (p.deliver bus) := by
  refine sound.frame rfl sound.ids (fun _ => id) rfl rfl rfl rfl ?_ sound.queue fun _ => rfl
  intro i bus' q found x stored
  by_cases here : i = p.count
  · simp only [Process.deliver,here,Function.update_self,Option.some.injEq,Prod.mk.injEq] at found
    rw [← found.2] at stored
    cases stored
  · simp only [Process.deliver,Function.update_of_ne here] at found
    exact sound.passes i bus' q found x stored

theorem Sound.subscribe (sound : Sound p) (bus : ℕ) (name : String) (options : Options) :
    Sound (p.subscribe bus name options) := by
  have same : (p.db.tables.subscribe name options.definition).outbox = p.db.tables.outbox ∧
      (p.db.tables.subscribe name options.definition).offsets = p.db.tables.offsets := by
    unfold BusTables.subscribe
    split <;> exact ⟨rfl,rfl⟩
  have known {x : StoredEvent} (known : Known p x) : Known (p.setTables (p.db.tables.subscribe name options.definition)) x :=
    known.mono fun r inside => by
      simp only [Process.setTables,same.1]
      exact inside
  unfold Process.subscribe
  split_ifs
  · exact sound
  · exact sound
  · refine sound.frame rfl ?_ ?_ same.2 rfl rfl rfl ?_ ?_ fun _ => rfl
    · simp only [Process.setTables,same.1]
      exact sound.ids
    · simp only [Process.setTables,same.1]
      exact fun _ => id
    · exact fun i bus q found x stored => known (sound.passes i bus q found x stored)
    · exact fun waiting inside x todo => known (sound.queue waiting inside x todo)

theorem Sound.publish (sound : Sound p) (bus : ℕ) (input : EventEnvelope) : Sound (p.publish c bus input) := by
  unfold Process.publish
  split_ifs
  · exact sound
  cases (c bus).normalize input with
  | error error => exact sound
  | ok envelope =>
    dsimp only
    have started {tables : BusTables} {x : StoredEvent} (ids : (tables.outbox.map fun r => r.envelope.id).Nodup)
        (outbox : ∀ r ∈ p.db.tables.outbox, r ∈ tables.outbox) (offsets : tables.offsets = p.db.tables.offsets)
        (here : ∃ r ∈ tables.outbox, r.cursor = x.cursor ∧ r.envelope.id = x.envelope.id) :
        Sound { p.setTables tables with
          passes := Function.update p.passes p.count (some (bus,⟨some x,0,false⟩)), count := p.count + 1 } := by
      refine sound.frame rfl ids outbox offsets rfl rfl rfl ?_ ?_ fun _ => rfl
      · intro i bus' q found y stored
        by_cases now : i = p.count
        · simp only [now,Function.update_self,Option.some.injEq,Prod.mk.injEq] at found
          rw [← found.2] at stored
          cases stored
          exact here
        · simp only [Function.update_of_ne now] at found
          exact (sound.passes i bus' q found y stored).mono outbox
      · exact fun waiting inside y todo => (sound.queue waiting inside y todo).mono outbox
    cases old : p.db.tables.outbox.find? fun r => r.envelope.id = envelope.id with
    | some r =>
      have same : r.envelope.id = envelope.id := by simpa using List.find?_some old
      exact started sound.ids (fun _ => id) rfl ⟨r,List.mem_of_find?_eq_some old,rfl,same⟩
    | none =>
      simp only [Option.isSome_none,Bool.false_eq_true,if_false]
      refine started ?_ (fun r inside => List.mem_append_left _ inside) rfl ⟨_,List.mem_append_right _ List.mem_cons_self,rfl,rfl⟩
      rw [List.map_append,List.nodup_append]
      refine ⟨sound.ids,by simp,?_⟩
      intro id inside id' single
      obtain ⟨r,listed,rfl⟩ := List.mem_map.mp inside
      simp only [List.map_cons,List.map_nil,List.mem_singleton] at single
      rw [single]
      simpa using List.find?_eq_none.mp old r listed

theorem Sound.turn (sound : Sound p) (i : ℕ) : Sound (p.turn i) := by
  unfold Process.turn
  split
  · rename_i bus stored last here
    have known : ∀ x ∈ stored, Known p x := sound.passes i bus _ here
    split
    · rename_i s next
      refine sound.frame rfl sound.ids (fun _ => id) rfl rfl rfl rfl ?_ ?_ ?_
      · intro j bus' q found x given
        by_cases now : j = i
        · simp only [now,Function.update_self,Option.some.injEq,Prod.mk.injEq] at found
          rw [← found.2] at given
          exact known x given
        · simp only [Function.update_of_ne now] at found
          exact sound.passes j bus' q found x given
      · simp only [List.forall_mem_append,List.forall_mem_singleton]
        refine ⟨sound.queue,fun x todo => known x ?_⟩
        simpa using todo
      · intro opened
        obtain ⟨open_,inside⟩ := Option.isSome_iff_exists.mp opened
        obtain ⟨t,x,todo,head,-⟩ := (sound.handling open_ inside).head
        cases queue : p.queue with
        | nil => simp [queue] at head
        | cons first rest => simp
    · refine sound.frame rfl sound.ids (fun _ => id) rfl rfl rfl rfl ?_ sound.queue fun _ => rfl
      intro j bus' q found x given
      by_cases now : j = i
      · simp [now] at found
      · simp only [Function.update_of_ne now] at found
        exact sound.passes j bus' q found x given
  · exact sound

theorem Sound.release (sound : Sound p) (idle : p.transaction = none) (failed : Bool) : Sound (p.release failed) := by
  unfold Process.release
  split
  · exact sound
  · rename_i bus t rest queued
    refine sound.frame rfl sound.ids (fun _ => id) rfl rfl rfl rfl ?_ ?_ (by simp [idle])
    · intro j bus' q found x given
      by_cases here : j = t.pass
      · simp only [here,Function.update_self,Option.bind_eq_some_iff] at found
        obtain ⟨⟨bus'',q'⟩,was,became⟩ := found
        split at became
        · cases became
        · cases became
          exact sound.passes t.pass bus'' q' was x given
      · simp only [Function.update_of_ne here] at found
        exact sound.passes j bus' q found x given
    · exact fun waiting inside => sound.queue waiting (by rw [queued]; exact List.mem_cons_of_mem _ inside)

/-- A normalized event is the event it was. -/
theorem normalize_id {c : BusConfig} {e e' : EventEnvelope} (normal : c.normalize e = .ok e') : e'.id = e.id := by
  unfold BusConfig.normalize at normal
  cases known : c.schemas e.type with
  | none =>
    rw [known] at normal
    cases normal
    rfl
  | some schema =>
    rw [known] at normal
    dsimp only at normal
    split at normal
    · cases normal
    · obtain ⟨payload,-,checked⟩ := Data.Result.bind_eq_ok.mp normal
      split at checked
      · cases checked
      · cases checked
        rfl

theorem known_replay {bus : ℕ} {offset : ℕ} {x : StoredEvent}
    (inside : x ∈ SqliteEventBus.replay (c bus) p.db.tables offset) : Known p x := by
  obtain ⟨r,taken,decodes⟩ := List.mem_filterMap.mp inside
  have listed := List.mem_of_mem_filter (List.mem_of_mem_take taken)
  cases normal : (c bus).normalize r.envelope with
  | error error => simp [normal,Except.toOption] at decodes
  | ok e =>
    simp only [normal,Except.toOption,Option.map_some,Option.some.injEq] at decodes
    subst decodes
    exact ⟨r,listed,rfl,(normalize_id normal).symm⟩

/-- Between two handlers, the head of the queue comes to the end of an event. -/
theorem Sound.rest (sound : Sound p) (tables : BusTables) (effects : List Effect) (failed : List ℕ) (queue : List (ℕ × Task))
    (outbox : tables.outbox = p.db.tables.outbox) (waiting : ∀ w ∈ queue, ∀ x ∈ w.2.todo, Known p x)
    (backed : ∀ e ∈ effects, ∃ r ∈ p.db.tables.outbox, r.envelope.id = e.eventId ∧ r.cursor ≤ tables.offsets e.consumer)
    (numbered : ∀ e ∈ effects, e.call < p.calls) (failures : ∀ call ∈ failed, call < p.calls)
    (once : ∀ e ∈ effects, ∀ e' ∈ effects, e.consumer = e'.consumer → e.eventId = e'.eventId → e.call = e'.call)
    (lost : ∀ e ∈ effects, e.call ∉ failed) :
    Sound { p with db := ⟨tables,effects⟩, transaction := none, failed, queue } := by
  have known {x : StoredEvent} (known : Known p x) :
      Known { p with db := ⟨tables,effects⟩, transaction := none, failed, queue } x :=
    known.mono fun r inside => by
      rw [outbox]
      exact inside
  refine ⟨?_,?_,fun w inside x todo => known (waiting w inside x todo),?_,numbered,failures,⟨once,lost⟩,nofun⟩
  · rw [outbox]
    exact sound.ids
  · exact fun i bus q found x stored => known (sound.passes i bus q found x stored)
  · rw [outbox]
    exact backed

/-- An offset that goes on leaves behind it what was there before. -/
theorem backed_of_move {rows : List StoredEvent} {offsets offsets' : String → ℕ} {effects : List Effect} {name : String} {cursor : ℕ}
    (backed : ∀ e ∈ effects, ∃ r ∈ rows, r.envelope.id = e.eventId ∧ r.cursor ≤ offsets e.consumer) (next : offsets name < cursor)
    (moved : ∀ n, offsets' n = if n = name then cursor else offsets n) :
    ∀ e ∈ effects, ∃ r ∈ rows, r.envelope.id = e.eventId ∧ r.cursor ≤ offsets' e.consumer := by
  intro e inside
  obtain ⟨r,there,id,reached⟩ := backed e inside
  refine ⟨r,there,id,?_⟩
  rw [moved]
  split_ifs with mine
  · rw [mine] at reached
    omega
  · exact reached

theorem Sound.work (sound : Sound p) : Sound (p.work c) := by
  unfold Process.work
  split
  · rename_i bus t rest idle queued
    have waiting := sound.queue
    rw [queued,List.forall_mem_cons] at waiting
    have durable : p.committed = p.db := by simp [Process.committed,idle]
    have backed := sound.backed
    have numbered := sound.numbered
    have effects := sound.effects
    rw [durable] at backed numbered
    dsimp only
    split
    · rename_i x todo listed
      have later : ∀ y ∈ todo, Known p y := fun y inside => waiting.1 y (listed ▸ List.mem_cons_of_mem _ inside)
      split_ifs with passed wanted
      · refine sound.frame rfl sound.ids (fun _ => id) rfl rfl rfl rfl sound.passes ?_ (by simp [idle])
        simp only [List.forall_mem_cons]
        exact ⟨later,waiting.2⟩
      · refine ⟨sound.ids,sound.passes,sound.queue,backed,?_,?_,?_,?_⟩
        · exact fun e inside => Nat.lt_succ_of_lt (numbered e inside)
        · exact fun call inside => Nat.lt_succ_of_lt (sound.failures call inside)
        · refine ⟨?_,?_⟩
          · have once := effects.once
            rw [durable] at once
            exact once
          · have failed := effects.failed
            rw [durable] at failed
            exact failed
        · rintro _ ⟨⟩
          refine ⟨rfl,⟨t,x,todo,by simp [queued],listed,by simpa using passed,fun e inside => .inl inside⟩,Nat.lt_succ_self _,
            numbered,fun failed => absurd (sound.failures _ failed) (Nat.lt_irrefl _)⟩
      · have once := effects.once
        have failed := effects.failed
        rw [durable] at once failed
        simp only [Process.setTables,idle]
        refine sound.rest (p.db.tables.acknowledge t.sub.name x) p.db.effects p.failed _ rfl ?_ ?_ numbered sound.failures once failed
        · simp only [List.forall_mem_cons]
          exact ⟨later,waiting.2⟩
        · exact backed_of_move backed (Nat.lt_of_not_le passed) (offsets_acknowledge _ _ · _)
    · split_ifs
      · exact sound.release idle false
      · refine sound.frame rfl sound.ids (fun _ => id) rfl rfl rfl rfl sound.passes ?_ (by simp [idle])
        simp only [List.forall_mem_cons]
        exact ⟨fun x inside => known_replay inside,waiting.2⟩
  · exact sound

theorem Sound.execute (sound : Sound p) : Sound p.execute := by
  unfold Process.execute
  split
  · rename_i open_ bus t rest opened queued
    split
    · exact sound
    · rename_i x todo listed
      have handling := sound.handling open_ opened
      refine ⟨sound.ids,sound.passes,sound.queue,?_,?_,sound.failures,?_,?_⟩
      · simpa only [Process.committed,opened,Option.map_some,Option.getD_some] using sound.backed
      · simpa only [Process.committed,opened,Option.map_some,Option.getD_some] using sound.numbered
      · have effects := sound.effects
        refine ⟨?_,?_⟩
        · simpa only [Process.committed,opened,Option.map_some,Option.getD_some] using effects.once
        · simpa only [Process.committed,opened,Option.map_some,Option.getD_some] using effects.failed
      · intro other same
        obtain rfl : open_ = other := Option.some.inj (opened.symm.trans same)
        obtain ⟨t',x',todo',head,listed',next,wrote⟩ := handling.head
        refine ⟨handling.offsets,⟨t',x',todo',head,listed',next,?_⟩,handling.number,handling.fresh,handling.pending⟩
        rw [queued] at head
        cases head
        rw [listed] at listed'
        cases listed'
        simp only [List.forall_mem_append,List.forall_mem_singleton,or_true,and_true]
        exact wrote
  · exact sound

theorem Sound.settle (sound : Sound p) {answer : Except String Unit} (lossless : Lossless p (.settle answer)) :
    Sound (p.settle c answer) := by
  unfold Process.settle
  split
  · rename_i open_ bus t rest opened queued
    split
    · exact sound
    · rename_i x todo listed
      have handling := sound.handling open_ opened
      obtain ⟨t',x',todo',head,listed',next,wrote⟩ := handling.head
      rw [queued] at head
      cases head
      rw [listed] at listed'
      cases listed'
      have waiting := sound.queue
      rw [queued,List.forall_mem_cons] at waiting
      have requeued : ∀ w ∈ (open_.holder,{ t with todo }) :: rest, ∀ y ∈ w.2.todo, Known p y := by
        simp only [List.forall_mem_cons]
        exact ⟨fun y inside => waiting.1 y (listed ▸ List.mem_cons_of_mem _ inside),waiting.2⟩
      have backed := sound.backed
      have effects := sound.effects
      have once := effects.once
      have failed := effects.failed
      simp only [Process.committed,opened,Option.map_some,Option.getD_some] at backed once failed
      -- What was there before is not of this event: its row lies before the offset.
      have apart : ∀ e ∈ open_.before.effects, e.consumer = t.sub.name → e.eventId ≠ x.envelope.id := by
        intro e inside consumer id
        obtain ⟨r,there,same,reached⟩ := backed e inside
        obtain ⟨r',there',cursor,same'⟩ := waiting.1 x (listed ▸ List.mem_cons_self)
        obtain rfl := List.inj_on_of_nodup_map sound.ids there there' ((same.trans id).trans same'.symm)
        rw [consumer] at reached
        omega
      cases answer with
      | ok _ =>
        refine sound.rest (p.db.tables.acknowledge t.sub.name x) p.db.effects p.failed _ rfl requeued ?_ ?_ sound.failures ?_ ?_
        · intro e inside
          rcases wrote e inside with old | rfl
          · exact backed_of_move backed next (offsets_acknowledge _ _ · _) e old
          · obtain ⟨r,there,cursor,id⟩ := waiting.1 x (listed ▸ List.mem_cons_self)
            refine ⟨r,there,id,?_⟩
            exact Nat.le_of_eq (by rw [offsets_acknowledge,if_pos rfl,cursor])
        · intro e inside
          rcases wrote e inside with old | rfl
          · exact Nat.lt_trans (handling.fresh e old) handling.number
          · exact handling.number
        · intro e inside e' inside' consumer id
          rcases wrote e inside with old | rfl <;> rcases wrote e' inside' with old' | rfl
          · exact once e old e' old' consumer id
          · exact absurd id (apart e old consumer)
          · exact absurd id.symm (apart e' old' consumer.symm)
          · rfl
        · intro e inside
          rcases wrote e inside with old | rfl
          · exact failed e old
          · exact handling.pending
      | error error =>
        have outbox := lossless open_ opened
        have failures : ∀ call ∈ p.failed ++ [open_.call], call < p.calls := by
          simp only [List.forall_mem_append,List.forall_mem_singleton]
          exact ⟨sound.failures,handling.number⟩
        have numbered : ∀ e ∈ open_.before.effects, e.call < p.calls :=
          fun e inside => Nat.lt_trans (handling.fresh e inside) handling.number
        have lost : ∀ e ∈ open_.before.effects, e.call ∉ p.failed ++ [open_.call] := by
          intro e inside failed'
          rcases List.mem_append.mp failed' with old | now
          · exact failed e inside old
          · exact Nat.lt_irrefl _ (List.mem_singleton.mp now ▸ handling.fresh e inside)
        dsimp only
        split_ifs with enough
        · refine sound.rest _ open_.before.effects _ _ outbox requeued ?_ numbered failures once lost
          refine backed_of_move backed next fun n => ?_
          rw [offsets_bury,handling.offsets]
          rfl
        · refine Sound.release (sound.rest (open_.before.tables.setRetry t.sub.name x.cursor
              (some (open_.before.tables.attempts t.sub.name x.cursor + 1,error)))
            open_.before.effects _ p.queue outbox sound.queue ?_ numbered failures once lost) rfl true
          intro e inside
          obtain ⟨r,there,id,reached⟩ := backed e inside
          rw [handling.offsets] at reached
          exact ⟨r,there,id,reached⟩
  · exact sound

theorem Sound.step (sound : Sound p) (event : ProcessEvent) (lossless : Lossless p event) : Sound (p.step c event) := by
  cases event with
  | subscribe bus name options => exact sound.subscribe bus name options
  | unsubscribe bus name =>
    exact sound.frame rfl sound.ids (fun _ => id) rfl rfl rfl rfl sound.passes sound.queue fun _ => rfl
  | publish bus input => exact sound.publish bus input
  | deliver bus => exact sound.deliver bus
  | turn i => exact sound.turn i
  | work => exact sound.work
  | execute => exact sound.execute
  | settle answer => exact sound.settle lossless

theorem committed_release (failed : Bool) (p : Process) : (p.release failed).committed = p.committed := by
  unfold Process.release
  split <;> rfl

theorem Advances.still {event : ProcessEvent} (same : p'.committed.tables.offsets = p.committed.tables.offsets) :
    Advances p p' event :=
  ⟨fun n => Nat.le_of_eq (by rw [same]),fun _ _ n => .inl (by rw [same])⟩

/-- A consumer moves to an event it has not come to. -/
theorem Advances.move {event : ProcessEvent} (name : String) (cursor : ℕ) (next : p.committed.tables.offsets name < cursor)
    (moved : ∀ n, p'.committed.tables.offsets n = if n = name then cursor else p.committed.tables.offsets n)
    (buried : ∀ error, event = .settle (.error error) →
      ∃ d ∈ p'.committed.tables.deadLetters, d.consumer = name ∧ d.cursor = cursor) : Advances p p' event := by
  constructor
  · intro n
    rw [moved]
    split_ifs with mine
    · rw [mine]
      omega
    · exact Nat.le_refl _
  · intro error failed n
    rw [moved]
    split_ifs with mine
    · exact .inr (mine ▸ buried error failed)
    · exact .inl rfl

/-- The last failure that is counted is put aside. -/
theorem mem_bury (t : BusTables) (n : String) (x : StoredEvent) (error : String) :
    ∃ d ∈ (t.bury n x error).deadLetters, d.consumer = n ∧ d.cursor = x.cursor := by
  unfold BusTables.bury BusTables.setOffset
  dsimp only
  split_ifs with there
  · obtain ⟨d,inside,same⟩ := List.any_eq_true.mp there
    exact ⟨d,inside,by simpa using same⟩
  · exact ⟨_,List.mem_append_right _ List.mem_cons_self,rfl,rfl⟩

theorem Sound.advances (sound : Sound p) (event : ProcessEvent) : Advances p (p.step c event) event := by
  have framed {db : Database} (offsets : db.tables.offsets = p.db.tables.offsets) :
      ((p.transaction.map (·.before)).getD db).tables.offsets = p.committed.tables.offsets := by
    unfold Process.committed
    cases p.transaction with
    | none => exact offsets
    | some open_ => rfl
  cases event with
  | subscribe bus name options =>
    have same : (p.db.tables.subscribe name options.definition).offsets = p.db.tables.offsets := by
      unfold BusTables.subscribe
      split <;> rfl
    simp only [Process.step,Process.subscribe]
    split_ifs
    · exact .still rfl
    · exact .still rfl
    · exact .still (framed same)
  | unsubscribe bus name => exact .still rfl
  | publish bus input =>
    simp only [Process.step,Process.publish]
    split_ifs
    · exact .still rfl
    split
    · exact .still rfl
    · refine .still (framed ?_)
      dsimp only
      split_ifs <;> rfl
  | deliver bus => exact .still rfl
  | turn i =>
    simp only [Process.step,Process.turn]
    split
    · split <;> exact .still rfl
    · exact .still rfl
  | work =>
    simp only [Process.step,Process.work]
    split
    · rename_i bus t rest idle queued
      have durable : p.committed = p.db := by simp [Process.committed,idle]
      split
      · rename_i x todo listed
        split_ifs with passed wanted
        · exact .still rfl
        · refine .still ?_
          rw [durable]
          rfl
        · refine .move t.sub.name x.cursor ?_ (fun n => ?_) nofun
          · rw [durable]
            omega
          · simp only [Process.committed,Process.setTables,idle]
            exact offsets_acknowledge _ _ _ _
      · split_ifs
        · exact .still (by rw [committed_release])
        · exact .still rfl
    · exact .still rfl
  | execute =>
    simp only [Process.step,Process.execute]
    split
    · split
      · exact .still rfl
      · exact .still (framed rfl)
    · exact .still rfl
  | settle answer =>
    simp only [Process.step,Process.settle]
    split
    · rename_i open_ bus t rest opened queued
      have handling := sound.handling open_ opened
      have durable : p.committed = open_.before := by simp [Process.committed,opened]
      split
      · exact .still rfl
      · rename_i x todo listed
        obtain ⟨t',x',todo',head,listed',next,-⟩ := handling.head
        rw [queued] at head
        cases head
        rw [listed] at listed'
        cases listed'
        rw [handling.offsets] at next
        split
        · refine .move t.sub.name x.cursor (durable ▸ next) (fun n => ?_) nofun
          rw [durable,← handling.offsets]
          exact offsets_acknowledge _ _ _ _
        · split_ifs with enough
          · refine .move t.sub.name x.cursor (durable ▸ next) (fun n => ?_) fun _ _ => ?_
            · rw [durable]
              exact offsets_bury _ _ _ _ _
            · exact mem_bury _ _ _ _
          · refine .still ?_
            rw [committed_release,durable]
            rfl
    · exact .still rfl

end Sound

/-- The effects of a handler for one event are committed once, whatever the other instances
do, in a run in which no failing handler takes a published event back. -/
theorem effects_at_most_once (c : ℕ → BusConfig) (events : List ProcessEvent)
    (lossless : Meets (Process.step c) Lossless .empty events) :
    let p := run (Process.step c) .empty events
    AtMostOnce p ∧ ∀ event, Advances p (p.step c event) event := by
  intro p
  have sound : Sound p := invariant (fun p event holds sound => sound.step event holds) sound_empty lossless
  exact ⟨sound.effects,fun event => sound.advances event⟩

namespace Sample

private def configs (_ : ℕ) : BusConfig := config

/-- Two instances have the same consumer; each publishes an event, and both handlers write. -/
private def apart : List ProcessEvent := [.subscribe 0 "a" ⟨none,none,none⟩,.subscribe 1 "a" ⟨none,none,none⟩,
  .publish 0 (event "first"),.turn 0,.work,.execute,.settle (.ok ()),.publish 1 (event "second"),.turn 1,.work,.work,
  .execute,.settle (.error "busy")]

theorem effects_at_most_once_apart :
    let p := run (Process.step configs) .empty apart
    AtMostOnce p ∧ ∀ event, Advances p (p.step configs event) event :=
  effects_at_most_once configs apart (by
    refine ⟨trivial,trivial,trivial,trivial,trivial,trivial,trivial,trivial,trivial,trivial,trivial,trivial,?_,trivial⟩
    rintro _ ⟨⟩
    rfl)

/-- The second event is published into the transaction of the first, which is taken back; its
own handler runs all the same, and again when it is published once more. -/
private def repeated : List ProcessEvent := [.subscribe 0 "a" ⟨none,none,none⟩,.publish 0 (event "first"),.turn 0,.work,
  .publish 0 (event "second"),.settle (.error "busy"),.turn 1,.work,.execute,.settle (.ok ()),.work,
  .publish 0 (event "third"),.publish 0 (event "second"),.turn 3,.work,.execute,.settle (.ok ())]

theorem effects_repeated : ¬∀ (c : ℕ → BusConfig) (events : List ProcessEvent),
    let p := run (Process.step c) .empty events
    AtMostOnce p ∧ ∀ event, Advances p (p.step c event) event := by
  intro all
  have once := (all configs repeated).1.once
  have effects : (run (Process.step configs) .empty repeated).committed.effects = [⟨"a","second",1⟩,⟨"a","second",2⟩] := by
    decide +kernel
  rw [effects] at once
  exact absurd (once ⟨"a","second",1⟩ (by simp) ⟨"a","second",2⟩ (by simp) rfl rfl) (by decide)

end Sample

end RatifyOs.Autonomy.Instances
