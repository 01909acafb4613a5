import RatifyOs.Autonomy.Schedule
import RatifyOs.Data.JsonParse

/-! `DurableScheduler`: a table of schedules, whose due rows `tick` turns into jobs. The
table and the queue are two databases, written by separate statements. -/
namespace RatifyOs.Autonomy
open Data Data.Result JobQueue

/-- A row of `schedules`; payload and schedule are what their texts are parsed to. -/
structure ScheduleRow where
  id : String
  type : String
  payload : Json
  schedule : Schedule
  nextFire : ℤ
  enabled : Bool

abbrev Schedules := Table ScheduleRow.id

/-- The idempotency key of one occurrence. -/
def occurrenceKey (id : String) (time : ℤ) : String := "schedule:" ++ id ++ ":" ++ toString time

/-- What `tick` asks the queue for. -/
def occurrence (r : ScheduleRow) : NewJob :=
  ⟨r.type,r.payload,none,some (occurrenceKey r.id r.nextFire),none,none,none⟩

namespace Schedules

def upsert (id type : String) (payload : Json) (schedule : Schedule) (now : Double) (rows : Schedules) :
    Except String Schedules := do
  let next ← nextScheduleTime schedule now
  return Table.upsert rows ⟨id,type,payload,schedule,next,true⟩

/-- `SELECT * FROM schedules WHERE enabled=1 AND next_fire<=?` -/
def due (now : Double) (rows : Schedules) : List ScheduleRow := rows.select fun r => r.enabled ∧ .finite r.nextFire ≤ now

/-- `UPDATE schedules SET … WHERE id=?` -/
def update (rows : Schedules) (id : String) (change : ScheduleRow → ScheduleRow) : Schedules :=
  match rows.find? id with
  | some old => rows.put { change old with id := old.id }
  | none => rows

/-- The row after its occurrence was enqueued. -/
def advance (r : ScheduleRow) (rows : Schedules) : Except String Schedules :=
  match r.schedule with
  | .at_ _ => return rows.update r.id fun old => { old with enabled := false }
  | schedule => do
    let next ← nextScheduleTime schedule (.finite r.nextFire)
    return rows.update r.id fun old => { old with nextFire := next }

theorem find?_update (rows : Schedules) (id id' : String) (change : ScheduleRow → ScheduleRow) :
    (rows.update id change).find? id' =
      if id = id' then (rows.find? id).map fun old => { change old with id } else rows.find? id' := by
  cases found : rows.find? id with
  | none =>
    simp only [update,found]
    split
    · rename_i same
      rw [← same,found]
      rfl
    · rfl
  | some old =>
    have same : old.id = id := Table.key_of_find? found
    simp only [update,found,Option.map_some]
    rw [Table.find?_put]
    simp only [same]
    split
    · rename_i here
      rw [← here,found]
      rfl
    · rfl

theorem advance_eq_ok {r : ScheduleRow} {rows rows' : Schedules} : rows.advance r = .ok rows' ↔
    (∃ time, r.schedule = .at_ time) ∧ rows' = rows.update r.id (fun old => { old with enabled := false }) ∨
    (∀ time, r.schedule ≠ .at_ time) ∧ ∃ next, nextScheduleTime r.schedule (.finite r.nextFire) = .ok next ∧
      rows' = rows.update r.id fun old => { old with nextFire := next } := by
  unfold advance
  cases schedule : r.schedule with
  | at_ time =>
    simp only [pure_eq_ok]
    simp [eq_comm]
  | everyMs period =>
    simp only [bind_eq_ok,pure_eq_ok]
    simp [eq_comm (a := rows')]
  | cron cron =>
    simp only [bind_eq_ok,pure_eq_ok]
    simp [eq_comm (a := rows')]

theorem advance_rows {r : ScheduleRow} {rows rows' : Schedules} (done : rows.advance r = .ok rows') {id : String}
    (other : id ≠ r.id) : rows'.find? id = rows.find? id := by
  obtain ⟨_,rfl⟩ | ⟨_,_,_,rfl⟩ := advance_eq_ok.mp done
  · rw [find?_update,if_neg (Ne.symm other)]
  · rw [find?_update,if_neg (Ne.symm other)]

end Schedules

/-- The two databases. -/
structure Stores where
  rows : Schedules
  queue : JobQueue

section Tick
variable (accept : String → Json → Except String Text) (draw : String → String × ℤ)

/-- The loop of `tick`. What it wrote before a row threw stays written; `draw` gives the
random id and the time that the queue draws at a row. -/
def turns : List ScheduleRow → Stores → Except String Unit × Stores
  | [], s => (.ok (),s)
  | r :: rest, s =>
    match s.queue.enqueue accept (occurrence r) (draw r.id).1 (draw r.id).2 with
    | .error error => (.error error,s)
    | .ok (_,queue) =>
      match s.rows.advance r with
      | .error error => (.error error,{ s with queue })
      | .ok rows => turns rest ⟨rows,queue⟩

def tick (now : Double) (s : Stores) : Except String ℕ × Stores :=
  let rows := s.rows.due now
  let answer := turns accept draw rows s
  (answer.1.map fun _ => rows.length,answer.2)

end Tick

theorem occurrenceKey_inj {id id' : String} {time time' : ℤ} (same : occurrenceKey id time = occurrenceKey id' time') :
    id = id' ∧ time = time' := by
  have digits (z : ℤ) : ':' ∉ Json.number z := by
    have plain (n : ℕ) : ':' ∉ Nat.toDigits 10 n := fun inside =>
      absurd (Nat.isDigit_of_mem_toDigits (by decide) (by decide) inside) (by decide)
    cases z with
    | ofNat n =>
      rw [Json.number_ofNat]
      exact plain n
    | negSucc n =>
      rw [Json.number_negSucc]
      simpa using plain (n + 1)
  have split (id : String) (time : ℤ) : (occurrenceKey id time).toList = ("schedule:" ++ id).toList ++ ':' :: Json.number time := by
    simp [occurrenceKey,Json.number]
  have lists := (split id time).symm.trans ((congrArg String.toList same).trans (split id' time'))
  obtain rfl := Json.number_injective (after_last (digits time) (digits time') lists)
  have heads : ("schedule:" ++ id).toList = ("schedule:" ++ id').toList := List.append_cancel_right lists
  refine ⟨?_,rfl⟩
  simpa [← String.toList_inj] using heads

namespace JobQueue

/-- `SELECT * FROM jobs WHERE idempotency_key=?` -/
def keyed (q : JobQueue) (key : String) : Option JobRow := q.jobs.rows.find? fun j => j.idempotencyKey = some key

theorem keyed_append {q q' : JobQueue} {j : JobRow} (rows : q'.jobs.rows = q.jobs.rows ++ [j]) (key : String) :
    q'.keyed key = (q.keyed key).or (if j.idempotencyKey = some key then some j else none) := by
  unfold keyed
  rw [rows,List.find?_append]
  by_cases same : j.idempotencyKey = some key <;> simp [same]

theorem key_of_keyed {q : JobQueue} {key : String} {j : JobRow} (found : q.keyed key = some j) :
    j.idempotencyKey = some key := by
  simpa using List.find?_some found

section Enqueue
variable {accept : String → Json → Except String Text} {job : NewJob} {fresh : String} {now : ℤ} {q q' : JobQueue} {j : JobRow}

/-- A job that was asked for under a key is there, and was not there twice. -/
theorem enqueue_under {key : String} (under : job.idempotencyKey = some key)
    (done : q.enqueue accept job fresh now = .ok (j,q')) :
    accept job.type job.payload = .ok j.payloadJson ∧ j.type = job.type ∧ q'.keyed key = some j ∧
      (q' = q ∨ q.keyed key = none ∧ q'.jobs.rows = q.jobs.rows ++ [j] ∧ j.id = job.id.getD fresh) := by
  simp only [enqueue,bind_eq_ok,under,Option.bind_some] at done
  obtain ⟨json,accepted,_,_,_,_,_,_,_,_,done⟩ := done
  rw [← keyed] at done
  cases found : q.keyed key with
  | some old =>
    simp only [found,bind_eq_ok,reject_eq_ok,pure_eq_ok,Prod.mk.injEq,not_or,not_not] at done
    obtain ⟨_,⟨type,payload⟩,rfl,rfl⟩ := done
    exact ⟨payload ▸ accepted,type,found,.inl rfl⟩
  | none =>
    simp only [found,bind_eq_ok,required_eq_ok,pure_eq_ok,Prod.mk.injEq] at done
    obtain ⟨jobs,inserted,rfl,rfl⟩ := done
    have rows := (Table.insert?_eq_some_iff.mp inserted).2
    refine ⟨accepted,rfl,?_,.inr ⟨rfl,rows,rfl⟩⟩
    rw [keyed_append rows,found]
    simp

theorem keyed_occurrence (r : ScheduleRow) :
    ((occurrence r).idempotencyKey.bind fun key => q.jobs.rows.find? fun j => j.idempotencyKey = some key) =
      q.keyed (occurrenceKey r.id r.nextFire) := rfl

/-- A random id apart, what the queue asks of an occurrence is that its payload is accepted
and that the job of its key, if there is one, is the same. -/
theorem enqueue_occurrence_iff {r : ScheduleRow} (text : fresh ≠ "" ∧ (codeUnits fresh).length ≤ maxText)
    (new : q.jobs.find? fresh = none) :
    (∃ answer, q.enqueue accept (occurrence r) fresh now = .ok answer) ↔
      ∃ json, accept r.type r.payload = .ok json ∧ (0 ≤ now ∧ now ≤ maxSafe) ∧
        (codeUnits (occurrenceKey r.id r.nextFire)).length ≤ maxText ∧
        ∀ old, q.keyed (occurrenceKey r.id r.nextFire) = some old → old.type = r.type ∧ old.payloadJson = json := by
  constructor
  · intro answers
    obtain ⟨⟨j,q'⟩,done⟩ := answers
    have under := enqueue_under rfl done
    simp only [enqueue,bind_eq_ok] at done
    obtain ⟨json,accepted,_,clock,_,_,_,keyText,_,_,rest⟩ := done
    refine ⟨json,accepted,?_,?_,fun old found => ?_⟩
    · simpa [validClock,and_comm,not_or] using clock
    · simp only [occurrence,givenText,validText,reject_eq_ok,not_or,not_lt] at keyText
      exact keyText.2
    · rw [keyed_occurrence,found] at rest
      simp only [bind_eq_ok,reject_eq_ok,not_or,not_not] at rest
      exact rest.choose_spec.1
  · intro allowed
    obtain ⟨json,accepted,clock,keyText,agrees⟩ := allowed
    have named : occurrenceKey r.id r.nextFire ≠ "" := by
      intro empty
      simpa [occurrenceKey] using congrArg String.toList empty
    have checks : validClock now = .ok () ∧ validText fresh "job id" false = .ok () ∧
        givenText (occurrence r).idempotencyKey "idempotency key" false = .ok () := by
      simp [validClock,occurrence,givenText,validText,clock,text,named,keyText]
    have options : ¬(maxSafe < now ∨ now < 0 ∨ (3 : ℤ) < 1 ∨ maxSafe < 1000 ∨ (1000 : ℤ) < 0) := by
      unfold maxSafe at *
      omega
    cases found : q.keyed (occurrenceKey r.id r.nextFire) with
    | some old =>
      refine ⟨(old,q),?_⟩
      simp only [enqueue,bind_eq_ok]
      refine ⟨json,accepted,(),checks.1,(),checks.2.1,(),checks.2.2,(),reject_eq_ok.mpr options,?_⟩
      rw [keyed_occurrence,found]
      simp only [bind_eq_ok]
      exact ⟨(),reject_eq_ok.mpr (by rw [not_or,not_not,not_not]; exact agrees old found),rfl⟩
    | none =>
      let row : JobRow := ⟨fresh,r.type,json,if now > now then .scheduled else .queued,now,0,3,
        some (occurrenceKey r.id r.nextFire),1000,none,0,none,false,none,none,now,now⟩
      obtain ⟨jobs,inserted⟩ := Table.insert?_of_absent (t := q.jobs) (r := row) new
      refine ⟨(row,⟨jobs,q.attempts⟩),?_⟩
      simp only [enqueue,bind_eq_ok]
      refine ⟨json,accepted,(),checks.1,(),checks.2.1,(),checks.2.2,(),reject_eq_ok.mpr options,?_⟩
      rw [keyed_occurrence,found]
      simp only [bind_eq_ok,required_eq_ok]
      exact ⟨jobs,inserted,rfl⟩

end Enqueue

end JobQueue

end RatifyOs.Autonomy
