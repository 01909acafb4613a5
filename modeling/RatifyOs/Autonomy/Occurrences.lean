import RatifyOs.Autonomy.Fencing
import RatifyOs.Autonomy.Scheduler
import RatifyOs.Data.Run

/-! The key, the type and the payload of a job, which no call changes, and what a queue
therefore knows of a key. -/
namespace RatifyOs.Autonomy
open Data Data.Result JobQueue

namespace JobQueue

/-- What a job was asked for with. -/
def asked (j : JobRow) : Option String × String × Text := (j.idempotencyKey,j.type,j.payloadJson)

def Same (q q' : JobQueue) : Prop := q'.jobs.rows.map asked = q.jobs.rows.map asked

variable {q q' q'' : JobQueue}

theorem Same.refl (q : JobQueue) : Same q q := rfl

theorem Same.trans (first : Same q q') (second : Same q' q'') : Same q q'' := Eq.trans second first

theorem put_same {jobs : Table JobRow.id} {id : String} {j new : JobRow} (found : jobs.find? id = some j) (named : new.id = j.id)
    (keeps : asked new = asked j) : (jobs.put new).rows.map asked = jobs.rows.map asked := by
  simp only [Table.put,List.map_map]
  refine List.map_congr_left fun old inside => ?_
  simp only [Function.comp]
  split
  · rename_i same
    rw [List.inj_on_of_nodup_map jobs.distinct inside (Table.mem_of_find? found) (same.trans named)]
    exact keeps
  · rfl

theorem updateJob_same (q : JobQueue) (id : String) (p : JobRow → Bool) {change : JobRow → JobRow}
    (keeps : ∀ j, asked (change j) = asked j) : Same q (q.updateJob id p change).2 := by
  obtain same | ⟨j,found,_,_,changed⟩ := updateJob_cases q id p change
  · rw [same]
    exact .refl q
  · rw [changed]
    exact put_same found rfl (keeps j)

theorem finishAttempt_same (q : JobQueue) (id : String) (token : ℕ) (now : ℤ) (outcome : Outcome)
    (error resultRef : Option String) : Same q (q.finishAttempt id token now outcome error resultRef).2 := rfl

theorem recoverLease_same {now : ℤ} {j : JobRow} (done : recoverLease now j q = .ok q') : Same q q' := by
  simp only [recoverLease,bind_eq_ok,reject_eq_ok,pure_eq_ok] at done
  obtain ⟨_,_,_,_,rfl⟩ := done
  exact (finishAttempt_same ..).trans (updateJob_same _ _ _ fun _ => rfl)

theorem recoverLeases_same {now : ℤ} {turns : ℕ} (done : recoverLeases now turns q = .ok q') : Same q q' := by
  induction turns generalizing q with
  | zero => cases done
  | succ turns ih =>
    unfold recoverLeases at done
    split at done
    · obtain ⟨next,recovered,rest⟩ := bind_eq_ok.mp done
      exact (recoverLease_same recovered).trans (ih rest)
    · cases done
      exact .refl _

theorem claim_same {workerId : String} {leaseMs now : ℤ} {draining : Bool} {lease : Option Lease}
    (done : claim workerId leaseMs now draining q = .ok (lease,q')) : Same q q' := by
  unfold claim at done
  split at done
  · cases done
    exact .refl q
  · simp only [bind_eq_ok] at done
    obtain ⟨_,_,_,_,_,_,_,_,mid,recovered,done⟩ := done
    refine (recoverLeases_same recovered).trans ?_
    split at done
    · cases done
      exact .refl _
    · simp only [bind_eq_ok,pure_eq_ok,Prod.mk.injEq] at done
      obtain ⟨_,_,_,_,_,_,_,rfl⟩ := done
      exact updateJob_same _ _ _ fun _ => rfl

theorem heartbeat_same {l : Lease} {leaseMs now : ℤ} {b : Bool} (done : heartbeat l leaseMs now q = .ok (b,q')) : Same q q' := by
  simp only [heartbeat,bind_eq_ok,pure_eq_ok] at done
  obtain ⟨_,_,_,_,_,_,done⟩ := done
  rw [show q' = _ from (congrArg Prod.snd done).symm]
  exact updateJob_same _ _ _ fun _ => rfl

theorem completeTx_same {l : Lease} {resultRef : Option String} {now : ℤ} {b : Bool}
    (done : completeTx l resultRef now q = .ok (b,q')) : Same q q' := by
  unfold completeTx at done
  split at done
  · cases done
    exact .refl q
  · rename_i r found
    obtain ⟨found,held⟩ := Option.filter_eq_some_iff.mp found
    dsimp only at done
    rw [updateJob_eq found held] at done
    simp only [Bool.true_eq_false,if_false,bind_eq_ok,pure_eq_ok,Prod.mk.injEq] at done
    obtain ⟨_,_,_,rfl⟩ := done
    exact put_same found rfl rfl

theorem complete_same {l : Lease} {resultRef : Option String} {now : ℤ} {seen : JobQueue} {b : Bool}
    (done : complete l resultRef now seen q = .ok (b,q')) : Same q q' := by
  obtain ⟨_,_,done⟩ := bind_eq_ok.mp done
  split at done
  · cases done
    exact .refl q
  · obtain ⟨_,_,done⟩ := bind_eq_ok.mp done
    exact completeTx_same done

theorem fail_same {l : Lease} {error : String} {now delay : ℤ} {b : Bool} (done : fail l error now delay q = .ok (b,q')) :
    Same q q' := by
  simp only [fail,bind_eq_ok] at done
  obtain ⟨_,_,_,_,done⟩ := done
  split at done
  · cases done
    exact .refl q
  · rename_i r found
    obtain ⟨found,held⟩ := Option.filter_eq_some_iff.mp found
    rw [updateJob_eq found held] at done
    simp only [Bool.true_eq_false,if_false,bind_eq_ok,pure_eq_ok,Prod.mk.injEq] at done
    obtain ⟨_,_,_,_,_,rfl⟩ := done
    exact put_same found rfl rfl

theorem cancel_same {id : String} {now : ℤ} {b : Bool} (done : cancel id now q = .ok (b,q')) : Same q q' := by
  obtain ⟨_,_,done⟩ := bind_eq_ok.mp done
  split at done
  · cases done
    exact .refl q
  · split at done
    · cases done
      exact .refl q
    · split at done
      · cases done
        exact updateJob_same _ _ _ fun _ => rfl
      · cases done
        exact updateJob_same _ _ _ fun _ => rfl

/-- The jobs are those that were there, or one more, whose key nobody had. -/
def Grows (q q' : JobQueue) : Prop :=
  Same q q' ∨ ∃ j, q'.jobs.rows = q.jobs.rows ++ [j] ∧ ∀ key ∈ j.idempotencyKey, q.keyed key = none

theorem enqueue_grows {accept : String → Json → Except String Text} {job : NewJob} {fresh : String} {now : ℤ} {j : JobRow}
    (done : enqueue accept job fresh now q = .ok (j,q')) : Grows q q' := by
  simp only [enqueue,bind_eq_ok] at done
  obtain ⟨_,_,_,_,_,_,_,_,_,_,done⟩ := done
  split at done
  · simp only [bind_eq_ok,pure_eq_ok,Prod.mk.injEq] at done
    obtain ⟨_,_,_,rfl⟩ := done
    exact .inl (.refl q)
  · rename_i absent
    simp only [bind_eq_ok,required_eq_ok,pure_eq_ok,Prod.mk.injEq] at done
    obtain ⟨jobs,inserted,rfl,rfl⟩ := done
    refine .inr ⟨_,(Table.insert?_eq_some_iff.mp inserted).2,fun key under => ?_⟩
    rw [show job.idempotencyKey = some key from under] at absent
    exact absent

end JobQueue

theorem JobCall.grows {accept : String → Json → Except String Text} {call : JobCall} {q q' : JobQueue}
    (done : call.run accept q = .ok q') : Grows q q' := by
  cases call with
  | enqueue job fresh now =>
    obtain ⟨r,done⟩ := returned done
    exact enqueue_grows done
  | claim workerId leaseMs now draining =>
    obtain ⟨lease,done⟩ := returned done
    exact .inl (claim_same done)
  | use l call seen =>
    obtain ⟨b,done⟩ := returned done
    cases call with
    | heartbeat leaseMs now => exact .inl (heartbeat_same done)
    | complete resultRef now => exact .inl (complete_same done)
    | fail error now delay => exact .inl (fail_same done)
  | cancel id now =>
    obtain ⟨b,done⟩ := returned done
    exact .inl (cancel_same done)

namespace JobQueue

/-- No two jobs have one key. -/
def Unique (q : JobQueue) : Prop := ∀ key, (q.jobs.rows.countP fun j => j.idempotencyKey = some key) ≤ 1

variable {q q' : JobQueue}

theorem Same.keyed (same : Same q q') (key : String) : (q'.keyed key).map asked = (q.keyed key).map asked := by
  have mapped (q : JobQueue) : (q.keyed key).map asked = (q.jobs.rows.map asked).find? fun x => x.1 = some key := by
    rw [List.find?_map]
    rfl
  rw [mapped,mapped,same]

theorem Grows.keyed (grows : Grows q q') {key : String} {j : JobRow} (found : q.keyed key = some j) :
    ∃ j', q'.keyed key = some j' ∧ asked j' = asked j := by
  obtain same | ⟨new,rows,_⟩ := grows
  · have mapped := same.keyed key
    rw [found] at mapped
    obtain ⟨j',found',equal⟩ := Option.map_eq_some_iff.mp mapped
    exact ⟨j',found',equal⟩
  · exact ⟨j,by rw [keyed_append rows,found]; rfl,rfl⟩

theorem Grows.unique (grows : Grows q q') (unique : Unique q) : Unique q' := by
  intro key
  obtain same | ⟨new,rows,fresh⟩ := grows
  · have mapped (q : JobQueue) : (q.jobs.rows.countP fun j => j.idempotencyKey = some key) =
        (q.jobs.rows.map asked).countP fun x => x.1 = some key := by
      rw [List.countP_map]
      rfl
    rw [mapped,same,← mapped]
    exact unique key
  · rw [rows,List.countP_append]
    by_cases under : new.idempotencyKey = some key
    · have none_ : q.jobs.rows.countP (fun j => j.idempotencyKey = some key) = 0 :=
        List.countP_eq_zero.mpr (List.find?_eq_none.mp (fresh key under))
      simp [none_,under]
    · simpa [under] using unique key

end JobQueue

end RatifyOs.Autonomy

/-! Any number of schedulers over the same two databases. A call of `tick` reads its rows at
once and then writes by single statements, between which others write and any of them may
stop for good. -/
namespace RatifyOs.Autonomy.Occurrences
open Data Data.Result JobQueue

variable {ι : Type}

/-- A call of `tick` that is on its way. -/
structure Pending (ι : Type) where
  scheduler : ι
  rows : List ScheduleRow
  /-- The occurrence of the first of the rows has been enqueued. -/
  enqueued : Bool

def Pending.stopped (t : Pending ι) : Pending ι := ⟨t.scheduler,[],false⟩

structure World (ι : Type) where
  stores : Stores
  ticks : List (Pending ι)
  /-- The row and the time of each job that a `tick` has created. -/
  created : List (String × ℤ)

def World.start : World ι := ⟨⟨.empty,.empty⟩,[],[]⟩

/-- What happens next. A `tick` that another connection or the end of its process keeps from
going on has stopped; `other` is any call on the queue by a worker or a client. -/
inductive Event (ι : Type) where
  | upsert (id type : String) (payload : Json) (schedule : Schedule) (clock : Double)
  | tick (scheduler : ι) (clock : Double)
  | enqueue (i : ℕ) (fresh : String) (clock : ℤ)
  | update (i : ℕ)
  | stop (i : ℕ)
  | other (scheduler : ι) (call : JobCall)

/-- The event replaces the row of this id. -/
def Event.Upserts (id : String) : Event ι → Prop
  | .upsert id' .. => id' = id
  | _ => False

section Step
variable (accept : ι → String → Json → Except String Text)

def enqueueStep (t : Pending ι) (fresh : String) (clock : ℤ) (i : ℕ) (w : World ι) : World ι :=
  match t.rows, t.enqueued with
  | r :: _, false =>
    match w.stores.queue.enqueue (accept t.scheduler) (occurrence r) fresh clock with
    | .error _ => { w with ticks := w.ticks.set i t.stopped }
    | .ok (_,queue) => {
      stores := { w.stores with queue }
      ticks := w.ticks.set i { t with enqueued := true }
      created :=
        if queue.jobs.rows.length > w.stores.queue.jobs.rows.length then w.created ++ [(r.id,r.nextFire)] else w.created }
  | _, _ => w

def updateStep (t : Pending ι) (i : ℕ) (w : World ι) : World ι :=
  match t.rows, t.enqueued with
  | r :: rest, true =>
    match w.stores.rows.advance r with
    | .error _ => { w with ticks := w.ticks.set i t.stopped }
    | .ok rows => { w with stores := { w.stores with rows }, ticks := w.ticks.set i ⟨t.scheduler,rest,false⟩ }
  | _, _ => w

def step (w : World ι) : Event ι → World ι
  | .upsert id type payload schedule clock =>
    match w.stores.rows.upsert id type payload schedule clock with
    | .ok rows => { w with stores := { w.stores with rows } }
    | .error _ => w
  | .tick scheduler clock => { w with ticks := w.ticks ++ [⟨scheduler,w.stores.rows.due clock,false⟩] }
  | .enqueue i fresh clock =>
    match w.ticks[i]? with
    | some t => enqueueStep accept t fresh clock i w
    | none => w
  | .update i =>
    match w.ticks[i]? with
    | some t => updateStep t i w
    | none => w
  | .stop i => { w with ticks := w.ticks.modify i Pending.stopped }
  | .other scheduler call =>
    match call.run (accept scheduler) w.stores.queue with
    | .ok queue => { w with stores := { w.stores with queue } }
    | .error _ => w

end Step

/-- What an event does to the world. -/
inductive Move (accept : ι → String → Json → Except String Text) (w : World ι) (e : Event ι) : World ι → Prop where
  | upserted (r : ScheduleRow) (mine : e.Upserts r.id) :
      Move accept w e { w with stores := { w.stores with rows := Table.upsert w.stores.rows r } }
  | ticks {ticks : List (Pending ι)}
      (known : ∀ t ∈ ticks, t ∈ w.ticks ∨ t.enqueued = false ∧ ∀ r ∈ t.rows, r ∈ w.stores.rows.rows) :
      Move accept w e { w with ticks }
  | enqueued {i : ℕ} {t : Pending ι} {r : ScheduleRow} {rest : List ScheduleRow} {fresh : String} {clock : ℤ} {j : JobRow}
      {queue : JobQueue} (known : t ∈ w.ticks) (rows : t.rows = r :: rest)
      (done : w.stores.queue.enqueue (accept t.scheduler) (occurrence r) fresh clock = .ok (j,queue)) :
      Move accept w e ⟨{ w.stores with queue },w.ticks.set i { t with enqueued := true },
        if queue.jobs.rows.length > w.stores.queue.jobs.rows.length then w.created ++ [(r.id,r.nextFire)] else w.created⟩
  | updated {i : ℕ} {t : Pending ι} {r : ScheduleRow} {rest : List ScheduleRow} {rows : Schedules} (known : t ∈ w.ticks)
      (left : t.rows = r :: rest) (asked : t.enqueued = true) (done : w.stores.rows.advance r = .ok rows) :
      Move accept w e { w with stores := { w.stores with rows }, ticks := w.ticks.set i ⟨t.scheduler,rest,false⟩ }
  | other {queue : JobQueue} (grows : Grows w.stores.queue queue) :
      Move accept w e { w with stores := { w.stores with queue } }

section Runs
variable {accept : ι → String → Json → Except String Text} {w w' : World ι} {e : Event ι}

theorem Move.idle : Move accept w e w := .ticks fun _ inside => .inl inside

private theorem Move.stopped (i : ℕ) (t : Pending ι) : Move accept w e { w with ticks := w.ticks.set i t.stopped } := by
  refine .ticks fun t' inside => ?_
  obtain old | rfl := List.mem_or_eq_of_mem_set inside
  · exact .inl old
  · exact .inr ⟨rfl,fun r none_ => by cases none_⟩

theorem step_move (accept : ι → String → Json → Except String Text) (w : World ι) (e : Event ι) :
    Move accept w e (step accept w e) := by
  cases e with
  | upsert id type payload schedule clock =>
    simp only [step]
    split
    · rename_i rows done
      simp only [Schedules.upsert,bind_eq_ok,pure_eq_ok] at done
      obtain ⟨_,_,rfl⟩ := done
      exact .upserted _ rfl
    · exact .idle
  | tick scheduler clock =>
    refine .ticks fun t inside => ?_
    obtain old | new := List.mem_append.mp inside
    · exact .inl old
    · rw [List.mem_singleton.mp new]
      exact .inr ⟨rfl,fun r listed => (Table.mem_select.mp listed).1⟩
  | enqueue i fresh clock =>
    simp only [step]
    split
    · rename_i t found
      have known := List.mem_of_getElem? found
      unfold enqueueStep
      split
      · rename_i r rest rows _
        split
        · exact .stopped i t
        · rename_i j queue done
          exact .enqueued known rows done
      · exact .idle
    · exact .idle
  | update i =>
    simp only [step]
    split
    · rename_i t found
      have known := List.mem_of_getElem? found
      unfold updateStep
      split
      · rename_i r rest left asked
        split
        · exact .stopped i t
        · rename_i rows done
          exact .updated known left asked done
      · exact .idle
    · exact .idle
  | stop i =>
    refine .ticks fun t inside => ?_
    obtain ⟨k,found⟩ := List.mem_iff_getElem?.mp inside
    rw [List.getElem?_modify] at found
    obtain ⟨old,was,rfl⟩ := Option.map_eq_some_iff.mp found
    split
    · exact .inr ⟨rfl,fun r none_ => by cases none_⟩
    · exact .inl (List.mem_of_getElem? was)
  | other scheduler call =>
    simp only [step]
    split
    · rename_i queue done
      exact .other (JobCall.grows done)
    · exact .idle

/-- The queue knows every occurrence a job was created for, and created none twice. -/
structure Counted (w : World ι) : Prop where
  unique : Unique w.stores.queue
  once : w.created.Nodup
  known : ∀ x ∈ w.created, w.stores.queue.keyed (occurrenceKey x.1 x.2) ≠ none

theorem Move.counted (move : Move accept w e w') (counted : Counted w) : Counted w' := by
  have later {q : JobQueue} (grows : Grows w.stores.queue q) : ∀ x ∈ w.created, q.keyed (occurrenceKey x.1 x.2) ≠ none := by
    intro x inside none_
    obtain ⟨j,found⟩ := Option.ne_none_iff_exists'.mp (counted.known x inside)
    obtain ⟨j',found',_⟩ := grows.keyed found
    rw [none_] at found'
    cases found'
  cases move with
  | upserted r => exact ⟨counted.unique,counted.once,counted.known⟩
  | ticks known => exact ⟨counted.unique,counted.once,counted.known⟩
  | @enqueued i t r rest fresh clock j queue known rows done =>
    have grows := enqueue_grows done
    obtain ⟨_,_,under,rfl | ⟨absent,added,_⟩⟩ := enqueue_under rfl done
    · rw [if_neg (lt_irrefl _)]
      exact ⟨counted.unique,counted.once,counted.known⟩
    · have new : (r.id,r.nextFire) ∉ w.created := fun inside => counted.known _ inside absent
      have longer : queue.jobs.rows.length > w.stores.queue.jobs.rows.length := by
        rw [added,List.length_append]
        simp
      rw [if_pos longer]
      refine ⟨grows.unique counted.unique,?_,fun x inside => ?_⟩
      · simpa using List.Nodup.concat new counted.once
      · obtain old | last := List.mem_append.mp inside
        · exact later grows x old
        · rw [List.mem_singleton.mp last,under]
          simp
  | updated => exact ⟨counted.unique,counted.once,counted.known⟩
  | other grows => exact ⟨grows.unique counted.unique,counted.once,later grows⟩

/-- Whatever row a `tick` in flight has still to see is in the table. -/
def Listed (w : World ι) : Prop := ∀ t ∈ w.ticks, ∀ r ∈ t.rows, w.stores.rows.find? r.id ≠ none

theorem Move.listed (move : Move accept w e w') (listed : Listed w) : Listed w' := by
  cases move with
  | upserted r =>
    intro t inside x left
    rw [Table.find?_upsert]
    split
    · simp
    · exact listed t inside x left
  | ticks known =>
    intro t inside x left
    obtain old | ⟨_,new⟩ := known t inside
    · exact listed t old x left
    · rw [Table.find?_of_mem (new x left)]
      simp
  | enqueued known rows done =>
    intro t inside x left
    obtain old | rfl := List.mem_or_eq_of_mem_set inside
    · exact listed t old x left
    · exact listed _ known x left
  | @updated i t r rest rows known left asked done =>
    have kept (id : String) (there : w.stores.rows.find? id ≠ none) : rows.find? id ≠ none := by
      obtain ⟨_,rfl⟩ | ⟨_,_,_,rfl⟩ := Schedules.advance_eq_ok.mp done
      · rw [Schedules.find?_update]
        split <;> simp_all
      · rw [Schedules.find?_update]
        split <;> simp_all
    intro t' inside x left'
    obtain old | rfl := List.mem_or_eq_of_mem_set inside
    · exact kept _ (listed t' old x left')
    · exact kept _ (listed t known x (left ▸ .tail _ left'))
  | other grows => exact listed

end Runs

section Row
variable (accept : ι → String → Json → Except String Text) (id type : String) (payload : Json) (schedule : Schedule) (first : ℤ)

/-- There is a job for this time of the schedule. -/
def HasJob (q : JobQueue) (o : ℤ) : Prop :=
  ∃ j, q.keyed (occurrenceKey id o) = some j ∧ j.type = type ∧ ∃ scheduler, accept scheduler type payload = .ok j.payloadJson

/-- The row is the one that was entered, and every time of its schedule before its next one
has a job. -/
structure Behind (q : JobQueue) (r : ScheduleRow) : Prop where
  sameType : r.type = type
  samePayload : r.payload = payload
  sameSchedule : r.schedule = schedule
  fires : Fires first schedule r.nextFire
  jobs : ∀ o, Fires first schedule o → o < r.nextFire ∨ r.enabled = false → HasJob accept id type payload q o

structure Kept (w : World ι) : Prop where
  row : ∃ r, w.stores.rows.find? id = some r ∧ Behind accept id type payload schedule first w.stores.queue r
  left : ∀ t ∈ w.ticks, ∀ r ∈ t.rows, r.id = id → Behind accept id type payload schedule first w.stores.queue r
  asked : ∀ t ∈ w.ticks, t.enqueued = true → ∀ r ∈ t.rows.head?, r.id = id →
    HasJob accept id type payload w.stores.queue r.nextFire

variable {accept id type payload schedule first}

theorem HasJob.grows {q q' : JobQueue} (grows : Grows q q') {o : ℤ} (has : HasJob accept id type payload q o) :
    HasJob accept id type payload q' o := by
  obtain ⟨j,found,type_,scheduler,accepted⟩ := has
  obtain ⟨j',found',same⟩ := grows.keyed found
  simp only [JobQueue.asked,Prod.mk.injEq] at same
  exact ⟨j',found',same.2.1.trans type_,scheduler,same.2.2 ▸ accepted⟩

theorem Behind.grows {q q' : JobQueue} (grows : Grows q q') {r : ScheduleRow}
    (behind : Behind accept id type payload schedule first q r) : Behind accept id type payload schedule first q' r :=
  { behind with jobs := fun o fires past => (behind.jobs o fires past).grows grows }

/-- A row that has gone on from a time with a job is still behind its schedule, whatever the
time it had gone on from in between. -/
theorem Behind.advance {q : JobQueue} {r stored : ScheduleRow} {rows rows' : Schedules} (found : rows.find? id = some stored)
    (behind : Behind accept id type payload schedule first q stored) (mine : r.id = id)
    (seen : Behind accept id type payload schedule first q r) (has : HasJob accept id type payload q r.nextFire)
    (done : rows.advance r = .ok rows') :
    ∃ r', rows'.find? id = some r' ∧ Behind accept id type payload schedule first q r' := by
  obtain ⟨⟨time,once⟩,rfl⟩ | ⟨again,next,found_,rfl⟩ := Schedules.advance_eq_ok.mp done
  · refine ⟨{ stored with id, enabled := false },by rw [Schedules.find?_update,if_pos mine,mine,found]; rfl,
      behind.sameType,behind.samePayload,behind.sameSchedule,behind.fires,fun o fires _ => ?_⟩
    have single : schedule = .at_ time := seen.sameSchedule.symm.trans once
    have here := seen.fires
    subst single
    rw [show o = first from fires,← show r.nextFire = first from here]
    exact has
  · obtain ⟨a,safe,_,following⟩ := next_of_ok found_
    rw [safeInteger_intCast safe,seen.sameSchedule] at following
    obtain ⟨fires | ⟨time,once⟩,between⟩ := following.covers seen.fires
    · refine ⟨{ stored with id, nextFire := next },by rw [Schedules.find?_update,if_pos mine,mine,found]; rfl,
        behind.sameType,behind.samePayload,behind.sameSchedule,fires,fun o hit past => ?_⟩
      obtain early | off := past
      · obtain before | rfl := (between o hit early).lt_or_eq
        · exact seen.jobs o hit (.inl before)
        · exact has
      · exact behind.jobs o hit (.inr off)
    · exact absurd (seen.sameSchedule.trans once) (again time)

theorem Move.kept {w w' : World ι} {e : Event ι} (move : Move accept w e w') (alone : ¬e.Upserts id)
    (kept : Kept accept id type payload schedule first w) : Kept accept id type payload schedule first w' := by
  obtain ⟨stored,found,behind⟩ := kept.row
  cases move with
  | upserted r mine =>
    refine ⟨⟨stored,?_,behind⟩,kept.left,kept.asked⟩
    rw [Table.find?_upsert,if_neg fun same : r.id = id => alone (same ▸ mine)]
    exact found
  | ticks known =>
    refine ⟨kept.row,fun t inside r listed mine => ?_,fun t inside asked r listed mine => ?_⟩
    · obtain old | ⟨_,new⟩ := known t inside
      · exact kept.left t old r listed mine
      · have same := Table.find?_of_mem (new r listed)
        rw [mine,found] at same
        exact Option.some.inj same ▸ behind
    · obtain old | ⟨idle,_⟩ := known t inside
      · exact kept.asked t old asked r listed mine
      · rw [idle] at asked
        cases asked
  | @enqueued i t r rest fresh clock j queue known rows done =>
    have grows := enqueue_grows done
    refine ⟨⟨stored,found,behind.grows grows⟩,fun t' inside x listed mine => ?_,fun t' inside asked x listed mine => ?_⟩
    · obtain old | rfl := List.mem_or_eq_of_mem_set inside
      · exact (kept.left t' old x listed mine).grows grows
      · exact (kept.left t known x listed mine).grows grows
    · obtain old | rfl := List.mem_or_eq_of_mem_set inside
      · exact (kept.asked t' old asked x listed mine).grows grows
      · obtain rfl : r = x := by simpa [rows] using listed
        have seen := kept.left t known r (rows ▸ .head _) mine
        obtain ⟨accepted,type_,under,_⟩ := enqueue_under rfl done
        rw [mine] at under
        exact ⟨j,under,type_.trans seen.sameType,t.scheduler,by rw [← seen.sameType,← seen.samePayload]; exact accepted⟩
  | @updated i t r rest rows known left asked done =>
    have others : ∀ t' ∈ w.ticks.set i ⟨t.scheduler,rest,false⟩, t' ∈ w.ticks ∨ t'.enqueued = false ∧ ∀ x ∈ t'.rows, x ∈ t.rows := by
      intro t' inside
      obtain old | rfl := List.mem_or_eq_of_mem_set inside
      · exact .inl old
      · exact .inr ⟨rfl,fun x listed => left ▸ .tail _ listed⟩
    refine ⟨?_,fun t' inside x listed mine => ?_,fun t' inside asked' x listed mine => ?_⟩
    · by_cases mine : r.id = id
      · exact behind.advance found mine (kept.left t known r (left ▸ .head _) mine)
          (kept.asked t known asked r (by simp [left]) mine) done
      · exact ⟨stored,(Schedules.advance_rows done (Ne.symm mine)).trans found,behind⟩
    · obtain old | ⟨_,among⟩ := others t' inside
      · exact kept.left t' old x listed mine
      · exact kept.left t known x (among x listed) mine
    · obtain old | ⟨idle,_⟩ := others t' inside
      · exact kept.asked t' old asked' x listed mine
      · rw [idle] at asked'
        cases asked'
  | other grows =>
    exact ⟨⟨stored,found,behind.grows grows⟩,fun t inside r listed mine => (kept.left t inside r listed mine).grows grows,
      fun t inside asked r listed mine => (kept.asked t inside asked r listed mine).grows grows⟩

end Row

/-- An undisturbed call of `tick` is one of the runs. -/
theorem turns_run (accept : ι → String → Json → Except String Text) (draw : String → String × ℤ) {scheduler : ι}
    {todo : List ScheduleRow} {w : World ι} {i : ℕ} (here : w.ticks[i]? = some ⟨scheduler,todo,false⟩) :
    ∃ events, (Run.run (step accept) w events).stores = (turns (accept scheduler) draw todo w.stores).2 := by
  induction todo generalizing w with
  | nil => exact ⟨[],rfl⟩
  | cons r rest ih =>
    obtain ⟨bound,_⟩ := List.getElem?_eq_some_iff.mp here
    cases answer : w.stores.queue.enqueue (accept scheduler) (occurrence r) (draw r.id).1 (draw r.id).2 with
    | error error =>
      refine ⟨[],?_⟩
      simp only [turns,answer]
      rfl
    | ok answer' =>
      obtain ⟨j,queue⟩ := answer'
      let mid := step accept w (.enqueue i (draw r.id).1 (draw r.id).2)
      have first : mid = ⟨{ w.stores with queue },w.ticks.set i ⟨scheduler,r :: rest,true⟩,
          if queue.jobs.rows.length > w.stores.queue.jobs.rows.length then w.created ++ [(r.id,r.nextFire)] else w.created⟩ := by
        simp only [mid,step,here,enqueueStep,answer]
      have again : mid.ticks[i]? = some ⟨scheduler,r :: rest,true⟩ := by
        rw [first]
        exact List.getElem?_set_self bound
      cases gone : w.stores.rows.advance r with
      | error error =>
        refine ⟨[.enqueue i (draw r.id).1 (draw r.id).2],?_⟩
        change mid.stores = _
        simp only [first,turns,answer,gone]
      | ok rows =>
        have second : step accept mid (.update i) = { mid with
            stores := ⟨rows,queue⟩, ticks := mid.ticks.set i ⟨scheduler,rest,false⟩ } := by
          simp only [step,again,updateStep]
          simp only [first,gone]
        have next : (step accept mid (.update i)).ticks[i]? = some ⟨scheduler,rest,false⟩ := by
          rw [second]
          exact List.getElem?_set_self (by rw [first]; simpa using bound)
        obtain ⟨events,same⟩ := ih next
        refine ⟨.enqueue i (draw r.id).1 (draw r.id).2 :: .update i :: events,?_⟩
        rw [second] at same
        simp only [turns,answer,gone]
        rw [← same,← second]
        rfl

theorem tick_run (accept : ι → String → Json → Except String Text) (draw : String → String × ℤ) (scheduler : ι)
    (now : Double) (w : World ι) :
    ∃ events, (Run.run (step accept) w events).stores = (tick (accept scheduler) draw now w.stores).2 := by
  have here : (step accept w (.tick scheduler now)).ticks[w.ticks.length]? = some ⟨scheduler,w.stores.rows.due now,false⟩ := by
    simp [step]
  obtain ⟨events,same⟩ := turns_run accept draw here
  exact ⟨.tick scheduler now :: events,same⟩

/-- However many schedulers there are, and wherever their calls stop, no occurrence becomes two
jobs; and a schedule that is not entered again has a job for every time before the one its row
is at, and once it is switched off for every time. -/
theorem occurrences_once (accept : ι → String → Json → Except String Text) (before after : List (Event ι))
    {id type : String} {payload : Json} {schedule : Schedule} {clock : Double} {first : ℤ}
    (new : (Run.run (step accept) .start before).stores.rows.find? id = none)
    (entered : nextScheduleTime schedule clock = .ok first) (alone : ∀ e ∈ after, ¬e.Upserts id) :
    let w := Run.run (step accept) .start (before ++ .upsert id type payload schedule clock :: after)
    w.created.Nodup ∧ Unique w.stores.queue ∧
      ∃ r, w.stores.rows.find? id = some r ∧ Behind accept id type payload schedule first w.stores.queue r := by
  intro w
  have counted : Counted w := Run.invariant (fun w e _ holds => (step_move accept w e).counted holds)
    ⟨fun key => by simp [World.start,JobQueue.empty],by simp [World.start],by simp [World.start]⟩
    (Run.Meets.of_forall (fun _ _ => trivial) World.start)
  refine ⟨counted.once,counted.unique,?_⟩
  have listed : Listed (Run.run (step accept) .start before) := Run.invariant
    (fun w e _ holds => (step_move accept w e).listed holds) (by simp [Listed,World.start])
    (Run.Meets.of_forall (fun _ _ => trivial) World.start)
  rw [show w = Run.run (step accept) (step accept (Run.run (step accept) .start before) (.upsert id type payload schedule clock))
    after from List.foldl_append]
  generalize Run.run (step accept) .start before = mid at *
  have stored : step accept mid (.upsert id type payload schedule clock) = { mid with stores := { mid.stores with
      rows := Table.upsert mid.stores.rows ⟨id,type,payload,schedule,first,true⟩ } } := by
    simp [step,Schedules.upsert,entered,bind,Except.bind,pure,Except.pure]
  have kept : Kept accept id type payload schedule first (step accept mid (.upsert id type payload schedule clock)) := by
    obtain ⟨a,_,_,next⟩ := next_of_ok entered
    rw [stored]
    refine ⟨⟨_,by rw [Table.find?_upsert,if_pos rfl],rfl,rfl,rfl,next.first,fun o fires past => ?_⟩,
      fun t inside r left mine => absurd (mine ▸ new) (listed t inside r left),
      fun t inside _ r left mine => absurd (mine ▸ new) (listed t inside r (List.mem_of_head? left))⟩
    obtain early | off := past
    · exact absurd fires.le (not_le.mpr early)
    · cases off
  exact (Run.invariant (fun w e alone holds => (step_move accept w e).kept alone holds) kept
    (Run.Meets.of_forall alone _)).row

namespace Sample

private def registry (_ : Bool) (type : String) (_ : Json) : Except String Text :=
  if type = "known" then .ok ['1'] else .error ("Unknown job type: " ++ type)

/-- The second tick sees the row before the first has moved it on, and moves it back. -/
private def stale : List (Event Bool) := [.tick false 1000,.tick true 1000,.enqueue 0 "j" 1000,.update 0,.tick false 2000,
  .enqueue 2 "k" 2000,.update 2,.enqueue 1 "l" 2000,.update 1,.stop 1]

theorem occurrences_once_stale :
    let w := Run.run (step registry) .start (.upsert "a" "known" (.num 1) (.everyMs 1000) 0 :: stale)
    w.created.Nodup ∧ Unique w.stores.queue ∧ ∃ r, w.stores.rows.find? "a" = some r ∧
      Behind registry "a" "known" (.num 1) (.everyMs 1000) 1000 w.stores.queue r :=
  occurrences_once registry [] stale rfl (by decide +kernel) (by simp [stale,Event.Upserts])

end Sample

end RatifyOs.Autonomy.Occurrences
