import Mathlib.Logic.Relation
import RatifyOs.Autonomy.Jobs

/-! What the calls on a job queue can do to it, and what therefore holds of the attempts
and the leases after any of them. -/
namespace RatifyOs.Autonomy
open Data Data.Result

namespace JobQueue

/-- The one thing done to a job by a call, or by a turn of the loop in `claim`. -/
inductive Change (q : JobQueue) : JobQueue → Prop where
  | added {row : JobRow} {jobs : Table JobRow.id} (inserted : q.jobs.insert? row = some jobs)
      (count : row.attemptCount = 0) (token : row.fencingToken = 0) (idle : row.status ≠ .running)
      (max : 0 < row.maxAttempts) : Change q { q with jobs }
  | kept {old new : JobRow} (found : q.jobs.find? old.id = some old) (id : new.id = old.id)
      (count : new.attemptCount = old.attemptCount) (token : new.fencingToken = old.fencingToken)
      (max : new.maxAttempts = old.maxAttempts) (running : new.status = .running ↔ old.status = .running)
      (last : final old.status → new = old) (done : new.status = .succeeded → old.status = .succeeded) :
      Change q { q with jobs := q.jobs.put new }
  | finished {old new : JobRow} (now : ℤ) (outcome : Outcome) (error resultRef : Option String)
      (found : q.jobs.find? old.id = some old) (running : old.status = .running) (id : new.id = old.id)
      (count : new.attemptCount = old.attemptCount) (token : new.fencingToken = old.fencingToken)
      (max : new.maxAttempts = old.maxAttempts) (idle : new.status ≠ .running) :
      Change q ⟨q.jobs.put new,(q.finishAttempt old.id old.fencingToken now outcome error resultRef).2.attempts⟩
  | started {old new : JobRow} {attempt : AttemptRow} (found : q.jobs.find? old.id = some old)
      (waiting : old.status ≠ .running ∧ ¬final old.status) (room : old.attemptCount < old.maxAttempts)
      (id : new.id = old.id) (count : new.attemptCount = old.attemptCount + 1)
      (token : new.fencingToken = old.fencingToken + 1) (max : new.maxAttempts = old.maxAttempts)
      (running : new.status = .running) (job : attempt.jobId = new.id) (number : attempt.number = new.attemptCount)
      (lease : attempt.fencingToken = new.fencingToken) (open_ : attempt.finishedAt = none) :
      Change q ⟨q.jobs.put new,q.attempts ++ [attempt]⟩

abbrev Steps : JobQueue → JobQueue → Prop := Relation.ReflTransGen Change

/-- What the attempts at a job say about its row. -/
structure Sound (j : JobRow) (attempts : List AttemptRow) : Prop where
  bound : j.attemptCount ≤ j.maxAttempts
  token : j.fencingToken = j.attemptCount
  numbers : attempts.map AttemptRow.number = List.range' 1 j.attemptCount
  tokens : ∀ a ∈ attempts, a.fencingToken = a.number
  current : ∀ a ∈ attempts, a.finishedAt = none ↔ j.status = .running ∧ a.number = j.attemptCount
  begun : j.status = .running → 0 < j.attemptCount

structure Valid (q : JobQueue) : Prop where
  known : ∀ a ∈ q.attempts, ∃ j ∈ q.jobs.rows, j.id = a.jobId
  sound : ∀ j ∈ q.jobs.rows, Sound j (q.attemptsOf j.id)

theorem valid_empty : Valid .empty := ⟨by simp [empty],by simp [empty]⟩

namespace Sound
variable {old new : JobRow} {attempts : List AttemptRow}

theorem kept (s : Sound old attempts) (count : new.attemptCount = old.attemptCount)
    (token : new.fencingToken = old.fencingToken) (max : new.maxAttempts = old.maxAttempts)
    (running : new.status = .running ↔ old.status = .running) : Sound new attempts := by
  refine ⟨?_,?_,?_,s.tokens,?_,?_⟩
  · rw [count,max]; exact s.bound
  · rw [token,count]; exact s.token
  · rw [count]; exact s.numbers
  · rw [running,count]; exact s.current
  · rw [running,count]; exact s.begun

theorem added (count : new.attemptCount = 0) (token : new.fencingToken = 0) (idle : new.status ≠ .running) :
    Sound new [] :=
  ⟨by omega,by omega,by simp [count],by simp,by simp,fun running => absurd running idle⟩

theorem unfinished_iff (s : Sound old attempts) {a : AttemptRow} (inside : a ∈ attempts) (job : a.jobId = old.id)
    (running : old.status = .running) : unfinished old.id old.fencingToken a ↔ a.number = old.attemptCount := by
  simp only [unfinished,job,s.tokens a inside,s.token,s.current a inside,running]
  simp

theorem finished (s : Sound old attempts) (jobs : ∀ a ∈ attempts, a.jobId = old.id)
    (running : old.status = .running) (count : new.attemptCount = old.attemptCount)
    (token : new.fencingToken = old.fencingToken) (max : new.maxAttempts = old.maxAttempts)
    (idle : new.status ≠ .running) (change : AttemptRow → AttemptRow)
    (number : ∀ a, (change a).number = a.number) (lease : ∀ a, (change a).fencingToken = a.fencingToken)
    (closed : ∀ a, (change a).finishedAt ≠ none) :
    Sound new (attempts.map fun a => if unfinished old.id old.fencingToken a then change a else a) := by
  refine ⟨?_,?_,?_,?_,?_,fun now => absurd now idle⟩
  · rw [count,max]; exact s.bound
  · rw [token,count]; exact s.token
  · rw [count,← s.numbers,List.map_map]
    apply List.map_congr_left
    intro a _
    by_cases hit : unfinished old.id old.fencingToken a <;> simp [hit,number]
  · intro b inside
    obtain ⟨a,was,rfl⟩ := List.mem_map.mp inside
    have same := s.tokens a was
    by_cases hit : unfinished old.id old.fencingToken a <;> simp [hit,number,lease,same]
  · intro b inside
    obtain ⟨a,was,rfl⟩ := List.mem_map.mp inside
    simp only [idle,false_and,iff_false]
    have hit := s.unfinished_iff was (jobs a was) running
    split
    · exact closed a
    · rename_i miss
      rw [s.current a was]
      intro now
      exact miss (hit.mpr now.2)

theorem started {attempt : AttemptRow} (s : Sound old attempts) (idle : old.status ≠ .running)
    (room : old.attemptCount < old.maxAttempts) (count : new.attemptCount = old.attemptCount + 1)
    (token : new.fencingToken = old.fencingToken + 1) (max : new.maxAttempts = old.maxAttempts)
    (running : new.status = .running) (number : attempt.number = new.attemptCount)
    (lease : attempt.fencingToken = new.fencingToken) (open_ : attempt.finishedAt = none) :
    Sound new (attempts ++ [attempt]) := by
  have same : new.fencingToken = new.attemptCount := by rw [token,count,s.token]
  refine ⟨by omega,same,?_,?_,?_,fun _ => by omega⟩
  · rw [List.map_append,s.numbers,count,List.range'_1_concat]
    simp [number,count,Nat.add_comm]
  · intro a inside
    obtain was | now := List.mem_append.mp inside
    · exact s.tokens a was
    · rw [List.mem_singleton.mp now,lease,number,same]
  · intro a inside
    obtain was | now := List.mem_append.mp inside
    · have below : a.number ∈ List.range' 1 old.attemptCount := s.numbers ▸ List.mem_map_of_mem was
      rw [List.mem_range'_1] at below
      rw [s.current a was]
      simp only [idle,false_and,false_iff,not_and]
      intro _
      omega
    · rw [List.mem_singleton.mp now]
      simp [open_,running,number]

/-- Exactly one attempt is unfinished while the job runs, and none otherwise. -/
theorem open_attempts (s : Sound old attempts) :
    (attempts.filter fun a => a.finishedAt = none).map AttemptRow.fencingToken =
      if old.status = .running then [old.fencingToken] else [] := by
  have same : (attempts.filter fun a => a.finishedAt = none).map AttemptRow.fencingToken =
      (attempts.map AttemptRow.number).filter fun n => old.status = .running ∧ n = old.attemptCount := by
    rw [List.filter_map]
    have tokens : ∀ a ∈ attempts.filter fun a => a.finishedAt = none, a.fencingToken = a.number :=
      fun a inside => s.tokens a (List.mem_of_mem_filter inside)
    rw [List.map_congr_left tokens]
    congr 1
    apply List.filter_congr
    intro a inside
    rw [Bool.eq_iff_iff]
    simpa using s.current a inside
  rw [same,s.numbers]
  by_cases running : old.status = .running
  · have begun := s.begun running
    simp only [running,true_and,if_pos]
    rw [List.filter_eq,List.count_eq_one_of_mem List.nodup_range' (by rw [List.mem_range'_1]; omega)]
    simp [s.token]
  · simp [running]

end Sound

theorem attemptsOf_job {q : JobQueue} {id : String} {a : AttemptRow} (inside : a ∈ q.attemptsOf id) : a.jobId = id := by
  simpa using List.of_mem_filter inside

theorem attemptsOf_append (q : JobQueue) (jobs : Table JobRow.id) (attempt : AttemptRow) (id : String) :
    attemptsOf ⟨jobs,q.attempts ++ [attempt]⟩ id =
      q.attemptsOf id ++ if attempt.jobId = id then [attempt] else [] := by
  simp only [attemptsOf,List.filter_append,List.filter_cons,List.filter_nil,decide_eq_true_eq]

theorem attemptsOf_finish (q : JobQueue) (jobs : Table JobRow.id) (id : String) (token : ℕ) (now : ℤ)
    (outcome : Outcome) (error resultRef : Option String) (k : String) :
    attemptsOf ⟨jobs,(q.finishAttempt id token now outcome error resultRef).2.attempts⟩ k =
      (q.attemptsOf k).map fun a => if unfinished id token a then
        { a with finishedAt := some now, outcome := some outcome, error, resultRef } else a := by
  simp only [attemptsOf,finishAttempt,List.filter_map]
  congr 1
  apply List.filter_congr
  intro a _
  simp only [Function.comp]
  split <;> rfl

theorem attemptsOf_finish_other (q : JobQueue) (jobs : Table JobRow.id) {id k : String} (other : id ≠ k) (token : ℕ)
    (now : ℤ) (outcome : Outcome) (error resultRef : Option String) :
    attemptsOf ⟨jobs,(q.finishAttempt id token now outcome error resultRef).2.attempts⟩ k = q.attemptsOf k := by
  rw [attemptsOf_finish]
  conv_rhs => rw [← List.map_id (q.attemptsOf k)]
  apply List.map_congr_left
  intro a inside
  have job := attemptsOf_job inside
  simp [unfinished,job,Ne.symm other]

theorem jobs_of_put (jobs : Table JobRow.id) (new : JobRow) {k : String} (known : ∃ j ∈ jobs.rows, j.id = k) : ∃ j ∈ (jobs.put new).rows, j.id = k := by
  obtain ⟨j,inside,rfl⟩ := known
  have now := Table.find?_put jobs new j.id
  rw [Table.find?_of_mem inside] at now
  split at now
  · rename_i same
    exact ⟨new,Table.mem_of_find? now,same⟩
  · exact ⟨j,Table.mem_of_find? now,rfl⟩

theorem Change.valid {q q' : JobQueue} (change : Change q q') (v : Valid q) : Valid q' := by
  cases change with
  | added inserted count token idle max =>
    rename_i row jobs
    obtain ⟨absent,rows⟩ := Table.insert?_eq_some_iff.mp inserted
    refine ⟨?_,?_⟩
    · intro a inside
      obtain ⟨j,was,job⟩ := v.known a inside
      exact ⟨j,by simp [rows,was],job⟩
    · intro j inside
      simp only [rows,List.mem_append,List.mem_singleton] at inside
      obtain was | rfl := inside
      · exact v.sound j was
      · have none_ : attemptsOf { q with jobs } j.id = [] := by
          apply List.filter_eq_nil_iff.mpr
          intro a inside same
          obtain ⟨old,was,job⟩ := v.known a inside
          exact Table.find?_eq_none_iff.mp absent old was (job.trans (by simpa using same))
        rw [none_]
        exact .added count token idle
  | kept found id count token max running last done =>
    rename_i old new
    refine ⟨fun a inside => jobs_of_put _ _ (v.known a inside),?_⟩
    intro j inside
    obtain rfl | ⟨was,_⟩ := Table.mem_put inside
    · rw [id]
      exact (v.sound old (Table.mem_of_find? found)).kept count token max running
    · exact v.sound j was
  | finished now outcome error resultRef found running id count token max idle =>
    rename_i old new
    refine ⟨?_,?_⟩
    · intro b inside
      obtain ⟨a,was,rfl⟩ := List.mem_map.mp inside
      have known := jobs_of_put q.jobs new (v.known a was)
      split <;> exact known
    · intro j inside
      obtain rfl | ⟨was,other⟩ := Table.mem_put inside
      · rw [attemptsOf_finish,id]
        exact (v.sound old (Table.mem_of_find? found)).finished (fun a => attemptsOf_job) running count token max idle
          _ (fun _ => rfl) (fun _ => rfl) (fun _ => by simp)
      · rw [attemptsOf_finish_other _ _ fun same => other (same.symm.trans id.symm)]
        exact v.sound j was
  | started found waiting room id count token max running job number lease open_ =>
    rename_i old new attempt
    refine ⟨?_,?_⟩
    · intro a inside
      obtain was | now := List.mem_append.mp inside
      · exact jobs_of_put _ _ (v.known a was)
      · rw [List.mem_singleton.mp now,job,id]
        exact jobs_of_put _ _ ⟨old,Table.mem_of_find? found,rfl⟩
    · intro j inside
      rw [attemptsOf_append]
      obtain rfl | ⟨was,other⟩ := Table.mem_put inside
      · rw [if_pos job,id]
        exact (v.sound old (Table.mem_of_find? found)).started waiting.1 room count token max running number lease open_
      · rw [if_neg fun same => other (same.symm.trans job),List.append_nil]
        exact v.sound j was

theorem Steps.valid {q q' : JobQueue} (steps : Steps q q') (v : Valid q) : Valid q' := by
  induction steps with
  | refl => exact v
  | tail _ change ih => exact change.valid ih

/-- What becomes of the row of a job, whatever is done to the queue. -/
structure Later (j j' : JobRow) : Prop where
  token : j.fencingToken ≤ j'.fencingToken
  last : final j.status → j' = j
  running : j'.fencingToken = j.fencingToken → j'.status = .running → j.status = .running
  succeeded : j'.fencingToken = j.fencingToken → j'.status = .succeeded → j.status = .running ∨ j.status = .succeeded

theorem Later.refl (j : JobRow) : Later j j := ⟨le_rfl,fun _ => rfl,fun _ => id,fun _ => .inr⟩

theorem Later.trans {a b c : JobRow} (first : Later a b) (second : Later b c) : Later a c := by
  have up := first.token
  have up' := second.token
  refine ⟨by omega,?_,?_,?_⟩
  · intro last
    have same := first.last last
    subst same
    exact second.last last
  · intro same running
    exact first.running (by omega) (second.running (by omega) running)
  · intro same succeeded
    obtain running | done := second.succeeded (by omega) succeeded
    · exact .inl (first.running (by omega) running)
    · exact first.succeeded (by omega) done

private theorem later_put {jobs : Table JobRow.id} {old new : JobRow} (found : jobs.find? old.id = some old)
    (id : new.id = old.id) (later : Later old new) {k : String} {j : JobRow} (row : jobs.find? k = some j) :
    ∃ j', (jobs.put new).find? k = some j' ∧ Later j j' := by
  by_cases same : new.id = k
  · have this : old = j := by
      rw [← same,id,found] at row
      exact Option.some.inj row
    subst this
    exact ⟨new,by rw [Table.find?_put,if_pos same,row]; rfl,later⟩
  · exact ⟨j,by rw [Table.find?_put_of_ne same,row],.refl j⟩

theorem Change.later {q q' : JobQueue} (change : Change q q') {k : String} {j : JobRow} (row : q.jobs.find? k = some j) :
    ∃ j', q'.jobs.find? k = some j' ∧ Later j j' := by
  cases change with
  | added inserted count token idle max =>
    rename_i new jobs
    refine ⟨j,?_,.refl j⟩
    rw [Table.find?_insert? inserted,if_neg,row]
    intro same
    rw [← same,(Table.insert?_eq_some_iff.mp inserted).1] at row
    cases row
  | kept found id count token max running last done =>
    exact later_put found id ⟨token.ge,last,fun _ => running.mp,fun _ now => .inr (done now)⟩ row
  | finished now outcome error resultRef found running id count token max idle =>
    refine later_put found id ⟨token.ge,?_,fun _ now => absurd now idle,fun _ _ => .inl running⟩ row
    intro last
    rw [running] at last
    cases last
  | started found waiting room id count token max running job number lease open_ =>
    refine later_put found id ⟨by omega,fun last => absurd last waiting.2,?_,?_⟩ row <;> intro same _ <;> omega

theorem Steps.later {q q' : JobQueue} (steps : Steps q q') {k : String} {j : JobRow} (row : q.jobs.find? k = some j) :
    ∃ j', q'.jobs.find? k = some j' ∧ Later j j' := by
  induction steps with
  | refl => exact ⟨j,row,.refl j⟩
  | tail _ change ih =>
    obtain ⟨mid,found,later⟩ := ih
    obtain ⟨j',found',later'⟩ := change.later found
    exact ⟨j',found',later.trans later'⟩

theorem first_some {q : JobQueue} {p : JobRow → Bool} {j : JobRow} (found : q.first p = some j) :
    q.jobs.find? j.id = some j ∧ p j := by
  have inside := List.mem_of_mem_head? found
  rw [List.mem_insertionSort,Table.mem_select] at inside
  exact ⟨Table.find?_of_mem inside.1,inside.2⟩

theorem updateJob_eq {q : JobQueue} {id : String} {p : JobRow → Bool} {change : JobRow → JobRow} {j : JobRow}
    (found : q.jobs.find? id = some j) (holds : p j) :
    q.updateJob id p change = (true,{ q with jobs := q.jobs.put { change j with id := j.id } }) := by
  simp [updateJob,found,holds]

theorem finishAttempt_one {q : JobQueue} (v : Valid q) {j : JobRow} (found : q.jobs.find? j.id = some j)
    (running : j.status = .running) (now : ℤ) (outcome : Outcome) (error resultRef : Option String) :
    (q.finishAttempt j.id j.fencingToken now outcome error resultRef).1 = 1 := by
  have s := v.sound j (Table.mem_of_find? found)
  have begun := s.begun running
  have narrowed : q.attempts.countP (unfinished j.id j.fencingToken) =
      (q.attemptsOf j.id).countP (unfinished j.id j.fencingToken) := by
    unfold attemptsOf
    rw [List.countP_filter]
    apply List.countP_congr
    intro a _
    simp only [unfinished,Bool.and_eq_true,decide_eq_true_eq]
    tauto
  have numbered : (q.attemptsOf j.id).countP (unfinished j.id j.fencingToken) =
      ((q.attemptsOf j.id).map AttemptRow.number).countP (· = j.attemptCount) := by
    rw [List.countP_map]
    apply List.countP_congr
    intro a inside
    simpa using s.unfinished_iff inside (attemptsOf_job inside) running
  change q.attempts.countP _ = 1
  rw [narrowed,numbered,s.numbers]
  exact List.count_eq_one_of_mem List.nodup_range' (by rw [List.mem_range'_1]; omega)

section Calls
variable {q q' : JobQueue} {now : ℤ}

theorem enqueue_steps {accept : String → Json → Except String Text} {job : NewJob} {fresh : String} {r : JobRow}
    (done : enqueue accept job fresh now q = .ok (r,q')) : Steps q q' := by
  simp only [enqueue,bind_eq_ok,reject_eq_ok] at done
  obtain ⟨json,_,_,_,_,_,_,_,_,options,done⟩ := done
  split at done
  · simp only [bind_eq_ok,pure_eq_ok,Prod.mk.injEq] at done
    obtain ⟨_,_,_,rfl⟩ := done
    exact .refl
  · simp only [bind_eq_ok,required_eq_ok,pure_eq_ok,Prod.mk.injEq] at done
    obtain ⟨jobs,inserted,_,rfl⟩ := done
    refine .single (.added inserted rfl rfl ?_ ?_)
    · simp only
      split <;> simp
    · simp only
      omega

theorem recoverLease_ok (now : ℤ) (v : Valid q) {j : JobRow} (found : q.jobs.find? j.id = some j) (running : j.status = .running) :
    ∃ after, recoverLease now j q = .ok after ∧ Change q after ∧
      ∃ row : JobRow, row.status ≠ .running ∧ row.id = j.id ∧ after.jobs = q.jobs.put row := by
  simp only [recoverLease,bind_eq_ok,reject_eq_ok,pure_eq_ok]
  have one := finishAttempt_one v found running now
  rw [updateJob_eq (by exact found) (by simp [running])]
  refine ⟨_,⟨(),not_not.mpr (one _ _ _),(),by simp,rfl⟩,?_,_,?_,?_,rfl⟩
  · refine .finished now _ _ _ found running rfl rfl rfl rfl ?_
    simp only
    split_ifs <;> simp
  · simp only
    split_ifs <;> simp
  · rfl

private theorem countP_lt {α : Type} {p p' : α → Bool} {l : List α} (wider : ∀ x ∈ l, p x → p' x) {x : α}
    (inside : x ∈ l) (hit : p' x) (miss : ¬p x) : l.countP p < l.countP p' := by
  obtain ⟨s,t,rfl⟩ := List.append_of_mem inside
  have before := List.countP_mono_left fun y i => wider y (List.mem_append_left _ i)
  have after := List.countP_mono_left fun y i => wider y (List.mem_append_right _ (List.mem_cons_of_mem _ i))
  simp only [List.countP_append,List.countP_cons,hit,miss,if_true]
  simp only [Bool.false_eq_true,if_false]
  omega

private theorem expired_put {jobs : Table JobRow.id} {j row : JobRow} (found : jobs.find? j.id = some j)
    (late : expired now j) (idle : row.status ≠ .running) (id : row.id = j.id) :
    (jobs.put row).rows.countP (expired now) < jobs.rows.countP (expired now) := by
  obtain ⟨rows,distinct⟩ := jobs
  have inside : j ∈ rows := Table.mem_of_find? found
  simp only [Table.put,List.countP_map]
  refine countP_lt ?_ inside late ?_
  · intro old _ hit
    simp only [Function.comp] at hit
    split at hit
    · simp [expired,idle] at hit
    · exact hit
  · simp [expired,idle,id]

theorem recoverLeases_ok (now : ℤ) (turns : ℕ) (v : Valid q) (enough : q.jobs.rows.countP (expired now) < turns) :
    ∃ after, recoverLeases now turns q = .ok after ∧ Steps q after := by
  induction turns generalizing q with
  | zero => omega
  | succ turns ih =>
    unfold recoverLeases
    split
    · rename_i j found
      obtain ⟨row,late⟩ := first_some found
      have running : j.status = .running := by
        simp only [expired,Bool.decide_and,Bool.and_eq_true,decide_eq_true_eq] at late
        exact late.1
      obtain ⟨next,ok,change,new,idle,id,jobs⟩ := recoverLease_ok now v row running
      have fewer := expired_put row late idle id
      rw [← jobs] at fewer
      obtain ⟨after,rest,steps⟩ := ih (change.valid v) (by omega)
      refine ⟨after,?_,steps.head change⟩
      rw [ok]
      exact rest
    · exact ⟨q,rfl,.refl⟩

theorem claim_spec (v : Valid q) (workerId : String) (leaseMs now : ℤ) (draining : Bool) :
    (∃ error, claim workerId leaseMs now draining q = .error error ∧
      error ∈ ["Invalid or too large worker id","Invalid lease","Invalid clock timestamp"]) ∨
    ∃ lease after, claim workerId leaseMs now draining q = .ok (lease,after) ∧ Steps q after := by
  unfold claim
  split
  · exact .inr ⟨none,q,rfl,.refl⟩
  unfold validText validClock reject
  split
  · exact .inl ⟨_,rfl,by simp⟩
  split
  · exact .inl ⟨_,rfl,by simp⟩
  split
  · exact .inl ⟨_,rfl,by simp⟩
  split
  · exact .inl ⟨_,rfl,by simp⟩
  right
  obtain ⟨mid,recovered,steps⟩ := recoverLeases_ok now (q.jobs.rows.length + 1) v
    (Nat.lt_succ_of_le List.countP_le_length)
  have v' := steps.valid v
  simp only [recovered,bind,Except.bind]
  split
  · exact ⟨none,mid,rfl,steps⟩
  · rename_i r found
    obtain ⟨row,free⟩ := first_some found
    have waiting : claimable now r := by
      rw [decide_eq_true_eq] at free
      exact free.2
    rw [updateJob_eq row waiting]
    have s := v'.sound r (Table.mem_of_find? row)
    have fresh : ¬∃ a ∈ mid.attempts, a.jobId = r.id ∧ a.number = r.attemptCount + 1 := by
      intro taken
      obtain ⟨a,inside,job,number⟩ := taken
      have one : a ∈ mid.attemptsOf r.id := List.mem_filter.mpr ⟨inside,by simpa using job⟩
      have below : a.number ∈ List.range' 1 r.attemptCount := s.numbers ▸ List.mem_map_of_mem one
      rw [List.mem_range'_1] at below
      omega
    have self := Table.find?_put_self (t := mid.jobs) (r := { r with
      status := .running, workerId := some workerId, fencingToken := r.fencingToken + 1
      leaseExpiresAt := some (now + leaseMs), attemptCount := r.attemptCount + 1, updatedAt := now }) row
    simp only [Bool.true_eq_false,if_false,required,self,fresh,pure,Except.pure]
    refine ⟨_,_,rfl,steps.tail (.started row ?_ ?_ rfl rfl rfl rfl rfl rfl rfl rfl rfl)⟩
    · simp only [claimable,Bool.decide_and,Bool.and_eq_true,decide_eq_true_eq] at waiting
      obtain queued | scheduled := waiting.1
      · simp [queued,final]
      · simp [scheduled,final]
    · simp only [claimable,Bool.decide_and,Bool.and_eq_true,decide_eq_true_eq] at waiting
      exact waiting.2.2

theorem updateJob_cases (q : JobQueue) (id : String) (p : JobRow → Bool) (change : JobRow → JobRow) :
    q.updateJob id p change = (false,q) ∨ ∃ j, q.jobs.find? id = some j ∧ j.id = id ∧ p j ∧
      q.updateJob id p change = (true,{ q with jobs := q.jobs.put { change j with id := j.id } }) := by
  cases found : q.jobs.find? id with
  | none => simp [updateJob,found]
  | some j =>
    by_cases holds : p j
    · exact .inr ⟨j,rfl,Table.key_of_find? found,holds,updateJob_eq found holds⟩
    · simp [updateJob,found,holds]

theorem heartbeat_steps {l : Lease} {leaseMs : ℤ} {b : Bool} (done : heartbeat l leaseMs now q = .ok (b,q')) :
    Steps q q' := by
  simp only [heartbeat,bind_eq_ok,pure_eq_ok] at done
  obtain ⟨_,_,_,_,_,_,done⟩ := done
  obtain same | ⟨j,found,key,held,changed⟩ := updateJob_cases q l.job.id
    (fun j => holds l now j ∧ j.cancelRequested = false) fun j =>
      { j with leaseExpiresAt := some (now + leaseMs), updatedAt := now }
  · rw [same,Prod.mk.injEq] at done
    exact done.2 ▸ .refl
  · rw [changed,Prod.mk.injEq] at done
    have running : j.status = .running := by
      simp only [holds,Bool.decide_and,Bool.and_eq_true,decide_eq_true_eq] at held
      exact held.1.1
    rw [← key] at found
    rw [← done.2]
    refine .single (.kept found rfl rfl rfl rfl Iff.rfl ?_ id)
    intro last
    rw [running] at last
    cases last

private theorem holds_running {l : Lease} {j : JobRow} (held : holds l now j) :
    j.status = .running ∧ j.fencingToken = l.fencingToken := by
  simp only [holds,decide_eq_true_eq] at held
  exact ⟨held.1,held.2.2.1⟩

/-- The end of `complete` and of `fail`: the row leaves `running` and its attempt is closed. -/
private theorem close_steps {l : Lease} {j : JobRow} (found : q.jobs.find? l.job.id = some j) (held : holds l now j)
    (new : JobRow) (id : new.id = j.id) (count : new.attemptCount = j.attemptCount)
    (token : new.fencingToken = j.fencingToken) (max : new.maxAttempts = j.maxAttempts) (idle : new.status ≠ .running)
    (outcome : Outcome) (error resultRef : Option String) :
    Steps q (finishAttempt { q with jobs := q.jobs.put new } l.job.id l.fencingToken now outcome error resultRef).2 := by
  obtain ⟨running,same⟩ := holds_running held
  have key : j.id = l.job.id := Table.key_of_find? found
  rw [← same,← key]
  rw [← key] at found
  exact .single (.finished now outcome error resultRef found running id count token max idle)

theorem completeTx_steps {l : Lease} {resultRef : Option String} {b : Bool}
    (done : completeTx l resultRef now q = .ok (b,q')) : Steps q q' := by
  unfold completeTx at done
  split at done
  · simp only [pure_eq_ok,Prod.mk.injEq] at done
    exact done.2 ▸ .refl
  · rename_i r found
    obtain ⟨found,held⟩ := Option.filter_eq_some_iff.mp found
    dsimp only at done
    rw [updateJob_eq found held] at done
    simp only [Bool.true_eq_false,if_false,bind_eq_ok,reject_eq_ok,pure_eq_ok,Prod.mk.injEq] at done
    obtain ⟨_,_,_,rfl⟩ := done
    refine close_steps found held _ (by rfl) (by rfl) (by rfl) (by rfl) ?_ _ _ _
    simp only
    split_ifs <;> simp

theorem complete_steps {l : Lease} {resultRef : Option String} {b : Bool} {seen : JobQueue}
    (done : complete l resultRef now seen q = .ok (b,q')) : Steps q q' := by
  simp only [complete,bind_eq_ok] at done
  obtain ⟨_,_,done⟩ := done
  split at done
  · simp only [pure_eq_ok,Prod.mk.injEq] at done
    exact done.2 ▸ .refl
  · simp only [bind_eq_ok] at done
    obtain ⟨_,_,done⟩ := done
    exact completeTx_steps done

theorem fail_steps {l : Lease} {error : String} {delay : ℤ} {b : Bool}
    (done : fail l error now delay q = .ok (b,q')) : Steps q q' := by
  simp only [fail,bind_eq_ok] at done
  obtain ⟨_,_,_,_,done⟩ := done
  split at done
  · simp only [pure_eq_ok,Prod.mk.injEq] at done
    exact done.2 ▸ .refl
  · rename_i r found
    obtain ⟨found,held⟩ := Option.filter_eq_some_iff.mp found
    rw [updateJob_eq found held] at done
    simp only [Bool.true_eq_false,if_false,bind_eq_ok,reject_eq_ok,pure_eq_ok,Prod.mk.injEq] at done
    obtain ⟨_,_,_,_,_,rfl⟩ := done
    refine close_steps found held _ (by rfl) (by rfl) (by rfl) (by rfl) ?_ _ _ _
    simp only
    split_ifs <;> simp

theorem cancel_steps {id : String} {b : Bool} (done : cancel id now q = .ok (b,q')) : Steps q q' := by
  simp only [cancel,bind_eq_ok] at done
  obtain ⟨_,_,done⟩ := done
  split at done
  · simp only [pure_eq_ok,Prod.mk.injEq] at done
    exact done.2 ▸ .refl
  · rename_i r found
    obtain rfl : r.id = id := Table.key_of_find? found
    split at done
    · simp only [pure_eq_ok,Prod.mk.injEq] at done
      exact done.2 ▸ .refl
    · rename_i live
      split at done
      · rename_i running
        rw [updateJob_eq found (by simpa using running)] at done
        simp only [pure_eq_ok,Prod.mk.injEq] at done
        rw [← done.2]
        exact .single (.kept found rfl rfl rfl rfl Iff.rfl (fun last => absurd last live) fun x => x)
      · rename_i idle
        have waiting : r.status = .queued ∨ r.status = .scheduled := by
          cases status : r.status <;> simp_all [final]
        rw [updateJob_eq found (by simpa using waiting)] at done
        simp only [pure_eq_ok,Prod.mk.injEq] at done
        rw [← done.2]
        exact .single (.kept found rfl rfl rfl rfl (by simp [idle]) (fun last => absurd last live) (by simp))

end Calls

end JobQueue

end RatifyOs.Autonomy
