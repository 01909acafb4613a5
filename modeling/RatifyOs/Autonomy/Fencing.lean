import RatifyOs.Autonomy.Leases

/-! Runs of a job queue: what its tables say about one another after any calls, and what a
worker can still do with a lease that is no longer the current one. -/
namespace RatifyOs.Autonomy
open Data Data.Result JobQueue

/-- What a worker does with a lease. -/
inductive LeaseCall where
  | heartbeat (leaseMs now : ℤ)
  | complete (resultRef : Option String) (now : ℤ)
  | fail (error : String) (now delay : ℤ)

/-- A call on the queue. Where another connection wrote between the two reads of `complete`,
`seen` is the queue as the first read met it. -/
inductive JobCall where
  | enqueue (job : NewJob) (fresh : String) (now : ℤ)
  | claim (workerId : String) (leaseMs now : ℤ) (draining : Bool)
  | use (l : Lease) (call : LeaseCall) (seen : JobQueue)
  | cancel (id : String) (now : ℤ)

namespace LeaseCall

def run (l : Lease) (seen q : JobQueue) : LeaseCall → Except String (Bool × JobQueue)
  | heartbeat leaseMs now => q.heartbeat l leaseMs now
  | complete resultRef now => JobQueue.complete l resultRef now seen q
  | fail error now delay => q.fail l error now delay

/-- The checks of the arguments pass. -/
def Accepted : LeaseCall → Prop
  | heartbeat leaseMs now => 0 < leaseMs ∧ leaseMs ≤ maxSafe ∧ 0 ≤ now ∧ now ≤ maxSafe ∧ now + leaseMs ≤ maxSafe
  | complete resultRef now => (∀ ref ∈ resultRef, (codeUnits ref).length ≤ maxText) ∧ 0 ≤ now ∧ now ≤ maxSafe
  | fail error now _ => (codeUnits error).length ≤ maxText ∧ 0 ≤ now ∧ now ≤ maxSafe

/-- `complete` with the very result that the job has succeeded with. -/
def Echoes (l : Lease) (seen : JobQueue) : LeaseCall → Prop
  | complete resultRef _ => ∃ j, seen.jobs.find? l.job.id = some j ∧ j.status = .succeeded ∧ j.resultRef = resultRef
  | _ => False

end LeaseCall

/-- The token was given out for the job, which neither runs nor has succeeded under it now. -/
def Stale (l : Lease) (q : JobQueue) : Prop :=
  ∃ j, q.jobs.find? l.job.id = some j ∧ l.fencingToken ≤ j.fencingToken ∧
    (j.fencingToken = l.fencingToken → j.status ≠ .running ∧ j.status ≠ .succeeded)

section Runs
variable (accept : String → Json → Except String Text)

def JobCall.run (q : JobQueue) : JobCall → Except String JobQueue
  | .enqueue job fresh now => (q.enqueue accept job fresh now).map Prod.snd
  | .claim workerId leaseMs now draining => (q.claim workerId leaseMs now draining).map Prod.snd
  | .use l call seen => (call.run l seen q).map Prod.snd
  | .cancel id now => (q.cancel id now).map Prod.snd

/-- The queue after the calls; one that throws is rolled back. -/
def runCalls (q : JobQueue) (calls : List JobCall) : JobQueue :=
  calls.foldl (fun q call => ((call.run accept q).toOption.getD q)) q

theorem LeaseCall.steps {l : Lease} {call : LeaseCall} {seen q q' : JobQueue} {b : Bool}
    (done : call.run l seen q = .ok (b,q')) : Steps q q' := by
  cases call with
  | heartbeat leaseMs now => exact heartbeat_steps done
  | complete resultRef now => exact complete_steps done
  | fail error now delay => exact fail_steps done

theorem returned {α : Type} {x : Except String (α × JobQueue)} {q : JobQueue} (ok : x.map Prod.snd = .ok q) :
    ∃ a, x = .ok (a,q) := by
  cases x with
  | error e => cases ok
  | ok a => exact ⟨a.1,by cases ok; rfl⟩

theorem JobCall.steps {call : JobCall} {q q' : JobQueue} (v : Valid q) (done : call.run accept q = .ok q') :
    Steps q q' := by
  cases call with
  | enqueue job fresh now =>
    obtain ⟨r,done⟩ := returned done
    exact enqueue_steps done
  | claim workerId leaseMs now draining =>
    obtain ⟨lease,done⟩ := returned done
    obtain ⟨_,threw,_⟩ | ⟨_,_,ok,steps⟩ := claim_spec v workerId leaseMs now draining
    · rw [threw] at done
      cases done
    · rw [ok] at done
      cases done
      exact steps
  | use l call seen =>
    obtain ⟨b,done⟩ := returned done
    exact LeaseCall.steps done
  | cancel id now =>
    obtain ⟨b,done⟩ := returned done
    exact cancel_steps done

theorem runCalls_steps {q : JobQueue} (v : Valid q) (calls : List JobCall) : Steps q (runCalls accept q calls) := by
  induction calls generalizing q with
  | nil => exact .refl
  | cons call calls ih =>
    change Steps q (runCalls accept ((call.run accept q).toOption.getD q) calls)
    cases done : call.run accept q with
    | error e => exact ih v
    | ok q' =>
      have steps := JobCall.steps accept v done
      exact steps.trans (ih (steps.valid v))

theorem runCalls_valid (calls : List JobCall) : Valid (runCalls accept .empty calls) :=
  (runCalls_steps accept valid_empty calls).valid valid_empty

theorem queue_represents (calls : List JobCall) :
    let q := runCalls accept .empty calls
    (∀ j ∈ q.jobs.rows,
      j.attemptCount ≤ j.maxAttempts ∧
      j.fencingToken = j.attemptCount ∧
      (q.attemptsOf j.id).map AttemptRow.number = List.range' 1 j.attemptCount ∧
      ((q.attemptsOf j.id).filter fun a => a.finishedAt = none).map AttemptRow.fencingToken =
        (if j.status = .running then [j.fencingToken] else []) ∧
      ∀ more, final j.status → ∃ j', (runCalls accept q more).jobs.find? j.id = some j' ∧ j'.status = j.status) ∧
    (∀ a ∈ q.attempts, ∃ j ∈ q.jobs.rows, j.id = a.jobId) ∧
    ∀ workerId leaseMs now draining error, q.claim workerId leaseMs now draining = .error error →
      error ∈ ["Invalid or too large worker id","Invalid lease","Invalid clock timestamp"] := by
  intro q
  have v : Valid q := runCalls_valid accept calls
  refine ⟨fun j inside => ?_,v.known,?_⟩
  · have s := v.sound j inside
    refine ⟨s.bound,s.token,s.numbers,s.open_attempts,?_⟩
    intro more last
    obtain ⟨j',found,later⟩ := (runCalls_steps accept v more).later (Table.find?_of_mem inside)
    exact ⟨j',found,congrArg JobRow.status (later.last last)⟩
  · intro workerId leaseMs now draining error threw
    obtain ⟨_,threw',about⟩ | ⟨_,_,ok,_⟩ := claim_spec v workerId leaseMs now draining
    · rw [threw] at threw'
      cases threw'
      exact about
    · rw [threw] at ok
      cases ok

theorem Stale.later {l : Lease} {q q' : JobQueue} (stale : Stale l q) (steps : Steps q q') : Stale l q' := by
  obtain ⟨j,found,given,released⟩ := stale
  obtain ⟨j',found',later⟩ := steps.later found
  have up := later.token
  refine ⟨j',found',by omega,?_⟩
  intro same
  have kept : j'.fencingToken = j.fencingToken := by omega
  obtain ⟨idle,undone⟩ := released (by omega)
  refine ⟨fun running => idle (later.running kept running),fun done => ?_⟩
  obtain running | succeeded := later.succeeded kept done
  · exact idle running
  · exact undone succeeded

theorem Stale.not_held {l : Lease} {q : JobQueue} (stale : Stale l q) (now : ℤ) :
    ∀ j ∈ q.jobs.find? l.job.id, ¬holds l now j := by
  obtain ⟨j,found,_,released⟩ := stale
  rw [found]
  intro j' same held
  cases same
  simp only [holds,decide_eq_true_eq] at held
  exact (released held.2.2.1).1 held.1

theorem Stale.filter {l : Lease} {q : JobQueue} (stale : Stale l q) (now : ℤ) :
    (q.jobs.find? l.job.id).filter (holds l now) = none :=
  Option.filter_eq_none_iff.mpr (stale.not_held now)

/-- A worker whose lease is over is turned away, unless `complete` tells the result that is
known already. -/
theorem stale_call {l : Lease} {seen q : JobQueue} (before : Stale l seen) (stale : Stale l q) {call : LeaseCall}
    (accepted : call.Accepted) : call.run l seen q = .ok (false,q) ↔ ¬call.Echoes l seen := by
  cases call with
  | heartbeat leaseMs now =>
    obtain ⟨pos,small,clock,clock',sum⟩ := accepted
    have idle : q.updateJob l.job.id (fun j => holds l now j ∧ j.cancelRequested = false) (fun j =>
        { j with leaseExpiresAt := some (now + leaseMs), updatedAt := now }) = (false,q) := by
      obtain same | ⟨j,found,_,held,_⟩ := updateJob_cases q l.job.id
        (fun j => holds l now j ∧ j.cancelRequested = false) fun j =>
          { j with leaseExpiresAt := some (now + leaseMs), updatedAt := now }
      · exact same
      · rw [decide_eq_true_eq] at held
        exact absurd held.1 (stale.not_held now j found)
    simp only [LeaseCall.run,LeaseCall.Echoes,not_false_iff,iff_true,heartbeat,validClock,bind_eq_ok,reject_eq_ok,idle,
      pure_eq_ok]
    exact ⟨(),by omega,(),by omega,(),by omega,trivial⟩
  | complete resultRef now =>
    obtain ⟨text,clock,clock'⟩ := accepted
    have passed : givenText resultRef "result reference" true = .ok () := by
      cases resultRef with
      | none => rfl
      | some ref => simpa [givenText,validText] using text ref rfl
    have tx : JobQueue.completeTx l resultRef now q = .ok (false,q) := by
      unfold completeTx
      rw [stale.filter now]
      rfl
    obtain ⟨j,found,_,_⟩ := before
    simp only [LeaseCall.run,LeaseCall.Echoes,JobQueue.complete,passed,bind_eq_ok,found,completeEarly]
    by_cases succeeded : j.status = .succeeded
    · simp [succeeded]
    · simp [succeeded,tx,validClock,clock,clock']
  | fail error now delay =>
    obtain ⟨text,clock,clock'⟩ := accepted
    simp only [LeaseCall.run,LeaseCall.Echoes,not_false_iff,iff_true,fail,validClock,validText,bind_eq_ok,reject_eq_ok,
      stale.filter now,pure_eq_ok]
    refine ⟨(),?_,(),by omega,trivial⟩
    simp
    omega

/-- `complete` says yes to the lease that the job succeeded under, or to one that tells its
result once more. -/
theorem complete_true {l : Lease} {seen q after : JobQueue} (steps : Steps seen q) {resultRef : Option String} {now : ℤ}
    (done : JobQueue.complete l resultRef now seen q = .ok (true,after)) :
    ∃ j, after.jobs.find? l.job.id = some j ∧ j.status = .succeeded ∧ j.resultRef = resultRef ∧
      (j.fencingToken = l.fencingToken ∨ (LeaseCall.complete resultRef now).Echoes l seen) := by
  simp only [JobQueue.complete,bind_eq_ok] at done
  obtain ⟨_,_,done⟩ := done
  split at done
  · rename_i answer early
    simp only [pure_eq_ok,Prod.mk.injEq] at done
    obtain ⟨rfl,rfl⟩ := done
    unfold completeEarly at early
    split at early
    · rename_i j found
      split at early
      · rename_i succeeded
        have told : j.resultRef = resultRef := by simpa using early
        obtain ⟨j',found',later⟩ := steps.later found
        have same := later.last (by simp [final,succeeded])
        subst same
        exact ⟨j',found',succeeded,told,.inr ⟨j',found,succeeded,told⟩⟩
      · cases early
    · cases early
  · simp only [bind_eq_ok] at done
    obtain ⟨_,_,done⟩ := done
    unfold completeTx at done
    split at done
    · simp at done
    · rename_i r found
      obtain ⟨found,held⟩ := Option.filter_eq_some_iff.mp found
      dsimp only at done
      rw [updateJob_eq found held] at done
      simp only [Bool.true_eq_false,if_false,bind_eq_ok,reject_eq_ok,pure_eq_ok,Prod.mk.injEq,Bool.not_eq_true'] at done
      obtain ⟨_,_,wanted,rfl⟩ := done
      have key : r.id = l.job.id := Table.key_of_find? found
      simp only [finishAttempt,wanted,Bool.false_eq_true,if_false]
      rw [← key] at found ⊢
      refine ⟨_,Table.find?_put_self found,rfl,rfl,.inl ?_⟩
      simp only [holds,decide_eq_true_eq] at held
      exact held.2.2.1

theorem stale_fenced (before during : List JobCall) :
    let seen := runCalls accept .empty before
    let q := runCalls accept seen during
    (∀ l (call : LeaseCall), Stale l seen → call.Accepted →
      (call.run l seen q = .ok (false,q) ↔ ¬call.Echoes l seen)) ∧
    ∀ l resultRef now after, JobQueue.complete l resultRef now seen q = .ok (true,after) →
      ∃ j, after.jobs.find? l.job.id = some j ∧ j.status = .succeeded ∧ j.resultRef = resultRef ∧
        (j.fencingToken = l.fencingToken ∨ (LeaseCall.complete resultRef now).Echoes l seen) := by
  intro seen q
  have steps : Steps seen q := runCalls_steps accept (runCalls_valid accept before) during
  refine ⟨fun l call stale accepted => ?_,fun l resultRef now after done => complete_true steps done⟩
  exact stale_call stale (stale.later steps) accepted

end Runs

section Race

private def accepting : String → Json → Except String Text := fun _ _ => .ok []

private def row (workerId : String) (token : ℕ) (expires : ℤ) : JobRow :=
  ⟨"job","mail",[],.running,0,token,3,none,1000,some workerId,token,some expires,false,none,none,0,0⟩

private def firstLease : Lease := ⟨row "a" 1 10,"a",1,10⟩

private def secondLease : Lease := ⟨row "b" 2 30,"b",2,30⟩

/-- The first lease runs out, and the second worker takes the job. -/
private def claims : List JobCall :=
  [.enqueue ⟨"mail",.null,some "job",none,none,none,none⟩ "" 0,.claim "a" 10 0 false,.claim "b" 10 20 false]

private def race : List JobCall :=
  claims ++ [.use secondLease (.complete (some "sent") 21) (runCalls accepting .empty claims)]

private def sent : JobRow :=
  { row "b" 2 30 with status := .succeeded, workerId := none, leaseExpiresAt := none, error := some "Lease expired"
                      resultRef := some "sent", updatedAt := 21 }

private theorem race_row : (runCalls accepting .empty race).jobs.find? "job" = some sent := by decide +kernel

private theorem race_stale : Stale firstLease (runCalls accepting .empty race) :=
  ⟨sent,race_row,by decide,by decide⟩

theorem stale_completed :
    let q := runCalls accepting .empty race
    Stale firstLease q ∧ ∃ after, JobQueue.complete firstLease (some "sent") 22 q q = .ok (true,after) ∧
      (after.jobs.find? "job").map JobRow.fencingToken = some 2 := by
  refine ⟨race_stale,_,rfl,?_⟩
  decide +kernel

theorem stale_fenced_race :
    let q := runCalls accepting .empty race
    JobQueue.complete firstLease (some "lost") 22 q q = .ok (false,q) := by
  intro q
  refine ((stale_fenced accepting race []).1 firstLease (.complete (some "lost") 22) race_stale ?_).mpr ?_
  · exact ⟨by intro ref given; cases given; decide,by decide,by decide⟩
  · intro echo
    obtain ⟨j,found,_,told⟩ := echo
    have same : (runCalls accepting .empty race).jobs.find? "job" = some j := found
    rw [race_row] at same
    cases same
    revert told
    decide

end Race

end RatifyOs.Autonomy
