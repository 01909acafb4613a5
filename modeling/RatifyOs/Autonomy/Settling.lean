import RatifyOs.Autonomy.Bookkeeping

/-! Every run of a `DelegationManager` keeps its books, and every child comes to its result. -/
namespace RatifyOs.Autonomy.Delegation
open Data Data.Result

/-- A verifier accepts the result of a child only while the child is not aborted. -/
def InTime (s : DelegationManager) : Event → Prop
  | .verified child (.ok true) => ∀ e safe, s.entries.find? child = some e → e.stage = .verifying safe → e.aborted = none
  | _ => True

section Steps
variable {options : DelegationOptions} {slips : Prop} {s : DelegationManager}

theorem Balanced.fewer {queue : List ℕ} (balanced : Balanced options s queue) :
    Balanced options { s with drains := s.drains - 1 } queue :=
  ⟨balanced.fresh,balanced.proper,balanced.queue,balanced.counts,balanced.bound,balanced.active,balanced.room⟩

theorem Rested.step (rested : Rested options s) {event : Event} (allowed : InTime s event ∨ slips) :
    Rested options (s.step options event) ∧ Later slips s (s.step options event) := by
  have still : Rested options s ∧ Later slips s s := ⟨rested,.refl s⟩
  cases event <;> simp only [DelegationManager.step]
  case spawn request =>
    cases spawned : s.spawn options request with
    | error message => exact still
    | ok t => exact rested.spawn spawned
  case cancel child reason =>
    cases found : s.entries.find? child with
    | none => exact still
    | some e =>
      obtain rfl := Table.key_of_find? found
      exact rested.cancel found reason
  case cancelParent parent reason => exact Rested.visit reason _ parent rested
  case drains =>
    split_ifs with none_
    · exact still
    · obtain ⟨drained,later⟩ := Rested.drain rested.balanced.fewer
      have fewer : Later slips s { s with drains := s.drains - 1 } := Later.same rfl
      exact ⟨drained,fewer.trans later⟩
  case deadline child =>
    cases found : s.entries.find? child with
    | none => exact still
    | some e =>
      obtain rfl := Table.key_of_find? found
      dsimp only
      split_ifs
      · exact rested.touch (DelegationManager.abort e "deadline exceeded") found
          ((rested.balanced.proper e (Table.mem_of_find? found)).abort _) rfl rfl rfl rfl (.abort _)
      · exact still
  case raced child outcome =>
    cases found : s.entries.find? child with
    | none => exact still
    | some e =>
      obtain rfl := Table.key_of_find? found
      cases at_ : e.stage
      case racing => simpa only [at_] using rested.raced found at_ outcome
      all_goals simpa only [at_] using still
  case verified child outcome =>
    cases found : s.entries.find? child with
    | none => exact still
    | some e =>
      obtain rfl := Table.key_of_find? found
      cases at_ : e.stage
      case verifying safe =>
        simp only [at_]
        refine rested.verified found at_ fun accepts => ?_
        subst accepts
        exact allowed.imp_left fun inTime => inTime e safe found at_
      all_goals simpa only [at_] using still
  case announced child outcome =>
    cases found : s.entries.find? child with
    | none => exact still
    | some e =>
      obtain rfl := Table.key_of_find? found
      cases at_ : e.stage
      case announcing => simpa only [at_] using rested.announced found at_ outcome
      all_goals simpa only [at_] using still
  case archived child outcome =>
    cases found : s.entries.find? child with
    | none => exact still
    | some e =>
      obtain rfl := Table.key_of_find? found
      cases at_ : e.stage
      case archiving => simpa only [at_] using rested.archived found at_ outcome
      all_goals simpa only [at_] using still
  case returned child =>
    cases found : s.entries.find? child with
    | none => exact still
    | some e =>
      obtain rfl := Table.key_of_find? found
      cases at_ : e.stage
      case returning =>
        have later : Later slips s { s.put { e with stage := .ended } with active := s.active - 1 } :=
          Later.put { e with stage := .ended } found rfl (.pass _ _)
        obtain ⟨drained,later'⟩ := Rested.drain (rested.balanced.leave found at_)
        simpa only [at_] using And.intro drained (later.trans later')
      all_goals simpa only [at_] using still

theorem Rested.new (options : DelegationOptions) : Rested options .new := by
  constructor
  case balanced => constructor <;> simp [DelegationManager.new]
  case idle => exact fun _ some_ => absurd rfl some_

theorem Rested.anyStep (rested : Rested options s) (event : Event) :
    Rested options (s.step options event) ∧ Later True s (s.step options event) := rested.step (.inr trivial)

theorem Rested.run {events : List Event} (rested : Rested options s)
    (meets : Run.Meets (DelegationManager.step options) (fun s event => InTime s event ∨ slips) s events) :
    Rested options (Run.run (DelegationManager.step options) s events) ∧
      Later slips s (Run.run (DelegationManager.step options) s events) := by
  induction events generalizing s with
  | nil => exact ⟨rested,.refl s⟩
  | cons event events ih =>
    obtain ⟨stepped,later⟩ := rested.step meets.1
    obtain ⟨after,later'⟩ := ih stepped meets.2
    exact ⟨after,later.trans later'⟩

/-- In any run, with a slip where it comes. -/
theorem Rested.anyRun (events : List Event) (rested : Rested options s) :
    Rested options (Run.run (DelegationManager.step options) s events) ∧
      Later True s (Run.run (DelegationManager.step options) s events) := by
  refine rested.run ?_
  induction events generalizing s with
  | nil => trivial
  | cons event events ih => exact ⟨.inr trivial,ih (rested.anyStep event).1⟩

end Steps

/-! The steps that are to come once nobody asks for more. -/

/-- How many of them a child can still take, at most. -/
def Stage.work : Stage → ℕ
  | .waiting => 6
  | .racing => 5
  | .verifying _ => 4
  | .announcing _ => 3
  | .archiving _ => 2
  | .returning => 1
  | .ended => 0

def Stage.pends : Stage → Bool
  | .waiting | .ended => false
  | _ => true

def DelegationManager.work (s : DelegationManager) : ℕ :=
  s.drains + (s.entries.rows.map fun e => e.stage.work).sum

/-- No microtask is queued, and no child is on its way. -/
def Quiet (s : DelegationManager) : Prop := s.drains = 0 ∧ ∀ e ∈ s.entries.rows, e.stage.pends = false

/-- A step that is pending: a microtask, the end of a race, or a callback that settles. -/
def Pending (s : DelegationManager) : Event → Prop
  | .drains => s.drains ≠ 0
  | .raced child _ => ∃ e, s.entries.find? child = some e ∧ e.stage = .racing
  | .verified child _ => ∃ e safe, s.entries.find? child = some e ∧ e.stage = .verifying safe
  | .announced child _ => ∃ e f, s.entries.find? child = some e ∧ e.stage = .announcing f
  | .archived child _ => ∃ e f, s.entries.find? child = some e ∧ e.stage = .archiving f
  | .returned child => ∃ e, s.entries.find? child = some e ∧ e.stage = .returning
  | .spawn _ | .cancel _ _ | .cancelParent _ _ | .deadline _ => False

section Work
variable {options : DelegationOptions} {s : DelegationManager} {e e' : Entry}

theorem pending_of_not_quiet (busy : ¬Quiet s) : ∃ event, Pending s event := by
  by_cases none_ : s.drains = 0
  swap
  · exact ⟨.drains,none_⟩
  have some_ : ∃ e ∈ s.entries.rows, e.stage.pends = true := by
    by_contra all
    exact busy ⟨none_,fun e inside => by
      by_contra pends
      exact all ⟨e,inside,by simpa using pends⟩⟩
  obtain ⟨e,inside,pends⟩ := some_
  have found := Table.find?_of_mem inside
  cases at_ : e.stage <;> rw [at_] at pends
  case waiting => cases pends
  case ended => cases pends
  case racing => exact ⟨.raced e.number (.ok none),e,found,at_⟩
  case verifying safe => exact ⟨.verified e.number (.ok true),e,safe,found,at_⟩
  case announcing f => exact ⟨.announced e.number (.ok ()),e,f,found,at_⟩
  case archiving f => exact ⟨.archived e.number (.ok ()),e,f,found,at_⟩
  case returning => exact ⟨.returned e.number,e,found,at_⟩

theorem work_put (e' : Entry) (found : s.entries.find? e'.number = some e) :
    (s.put e').work + e.stage.work = s.work + e'.stage.work := by
  obtain ⟨before,after,rows,rows',-⟩ := Table.put_split found
  simp only [DelegationManager.work,DelegationManager.put,rows,rows',List.map_append,List.map_cons,List.sum_append,List.sum_cons]
  omega

theorem work_finish (found : s.entries.find? e.number = some e) (open_ : e.settled = false) (counted : e.counted = true)
    (partial_ : Partial) (announce awaited : Bool) : (s.finish e partial_ announce awaited).work + e.stage.work ≤ s.work + 3 := by
  rw [finish_eq open_ counted]
  have work := work_put (s := s.setCount e.request.parentSessionId ((s.counts e.request.parentSessionId).getD 1 - 1))
    (settledWith e partial_ announce awaited) found
  have less : (settledWith e partial_ announce awaited).stage.work ≤ 3 := by
    cases announce <;> simp [settledWith,Stage.work]
  have same : (s.setCount e.request.parentSessionId ((s.counts e.request.parentSessionId).getD 1 - 1)).work = s.work := rfl
  omega

theorem work_run (found : s.entries.find? e.number = some e) (proper : Proper e) (queued : e.status = .queued) :
    (s.run options e).work ≤ s.work := by
  have waiting : e.stage.work = 6 := by rw [(proper.waiting queued).1]; rfl
  obtain ⟨open_,counted⟩ := proper.alive (by rw [queued]; rfl)
  have started := work_put (s := { s with active := s.active + 1 }) (startedNow e) found
  have five : (startedNow e).stage.work = 5 := rfl
  have same : ({ s with active := s.active + 1 } : DelegationManager).work = s.work := rfl
  rw [run_eq]
  cases options.runtimeFactory e.id with
  | none =>
    dsimp only
    omega
  | some message =>
    dsimp only
    have found' : ({ s with active := s.active + 1 }.put (startedNow e)).entries.find? (startedNow e).number = some (startedNow e) :=
      Table.find?_put_self (t := s.entries) (r := startedNow e) found
    obtain ⟨partial_,-,-,caught⟩ := caught_eq (s := { s with active := s.active + 1 }) (e := startedNow e) message
    have finished := work_finish found' (show (startedNow e).settled = false from open_) counted partial_ false true
    rw [finish_put (e := startedNow e) open_ counted,← caught] at finished
    omega

theorem Balanced.work_drainQueue {queue : List ℕ} (balanced : Balanced options s queue) :
    (s.drainQueue options queue).work ≤ s.work := by
  induction queue generalizing s with
  | nil => exact le_refl s.work
  | cons number rest ih =>
    unfold DelegationManager.drainQueue
    split_ifs with room
    · obtain ⟨e,found,rfl,queued⟩ := balanced.head
      rw [found]
      dsimp only
      rw [if_pos queued]
      have started : (s.run options e).work ≤ s.work := work_run found (balanced.proper e (Table.mem_of_find? found)) queued
      have run : Balanced options (s.run options e) rest ∧ Later True s (s.run options e) := balanced.run found queued room
      exact (ih run.1).trans started
    · exact le_refl s.work

section Stages
variable (rested : Rested options s) (found : s.entries.find? e.number = some e)
include rested found

/-- A settlement of a child that runs is a step towards its end. -/
theorem Rested.work_settle (running : e.status = .running) (far : 4 ≤ e.stage.work) (partial_ : Partial) (announce : Bool) :
    (s.finish e partial_ announce true).work < s.work := by
  obtain ⟨open_,counted⟩ := (rested.balanced.proper e (Table.mem_of_find? found)).alive (by rw [running]; rfl)
  have finished := work_finish found open_ counted partial_ announce true
  omega

theorem Rested.work_raced (racing : e.stage = .racing) (outcome : Except String (Option ChildRuntimeResult)) :
    (s.raced options e outcome).work < s.work := by
  have five : e.stage.work = 5 := by rw [racing]; rfl
  have running : e.status = .running := ((rested.balanced.proper e (Table.mem_of_find? found)).atStage racing).1
  have settled := rested.work_settle found running (by omega)
  have caught (message : String) : (s.caught e message).work < s.work := by
    obtain ⟨partial_,-,-,caught⟩ := caught_eq (s := s) (e := e) message
    rw [caught]
    exact settled partial_ false
  unfold DelegationManager.raced
  split
  · exact caught _
  · exact caught _
  · exact caught _
  · rename_i raw unaborted
    cases DelegationManager.judge options raw with
    | invalid => exact caught _
    | exceeded => exact settled _ _
    | fine =>
      dsimp only
      split_ifs
      · exact caught _
      · have put := work_put { e with stage := .verifying raw } found
        have four : (Stage.verifying raw).work = 4 := rfl
        dsimp only at put
        omega
      · exact settled _ _

theorem Rested.work_verified {safe : ChildRuntimeResult} (verifying : e.stage = .verifying safe) (outcome : Except String Bool) :
    (s.verified e safe outcome).work < s.work := by
  have four : e.stage.work = 4 := by rw [verifying]; rfl
  have running : e.status = .running := ((rested.balanced.proper e (Table.mem_of_find? found)).atStage verifying).1
  have settled := rested.work_settle found running four.ge
  unfold DelegationManager.verified
  split <;> exact settled _ _

omit rested in
theorem work_announced {f : Finishing} (announcing : e.stage = .announcing f) (outcome : Except String Unit) :
    (s.announced e f outcome).work < s.work := by
  have three : e.stage.work = 3 := by rw [announcing]; rfl
  have put (g : Finishing) : (s.put { e with stage := .archiving g }).work < s.work := by
    have put := work_put { e with stage := .archiving g } found
    have two : (Stage.archiving g).work = 2 := rfl
    dsimp only at put
    omega
  cases outcome with
  | ok => exact put _
  | error message => exact put _

omit rested in
theorem work_archived {f : Finishing} (archiving : e.stage = .archiving f) (outcome : Except String Unit) :
    (s.archived e f outcome).work < s.work := by
  have two : e.stage.work = 2 := by rw [archiving]; rfl
  have put (result : DelegationResult) : (s.put { e with
      resolved := e.resolved ++ [result], stage := if f.awaited then .returning else .ended }).work < s.work := by
    have put := work_put { e with
      resolved := e.resolved ++ [result], stage := if f.awaited then .returning else .ended } found
    have less : (if f.awaited then Stage.returning else .ended).work ≤ 1 := by cases f.awaited <;> simp [Stage.work]
    dsimp only at put
    omega
  exact put _

theorem Rested.work_returned (returning : e.stage = .returning) :
    ({ s.put { e with stage := .ended } with active := s.active - 1 }.drain options).work < s.work := by
  have one : e.stage.work = 1 := by rw [returning]; rfl
  have put := work_put { e with stage := .ended } found
  have none_ : Stage.ended.work = 0 := rfl
  have drained := (rested.balanced.leave found returning).work_drainQueue
  have same : ({ s.put { e with stage := .ended } with active := s.active - 1 } : DelegationManager).work =
    (s.put { e with stage := .ended }).work := rfl
  refine lt_of_le_of_lt drained ?_
  dsimp only at put
  omega

end Stages

/-- A step that was pending is one step less. -/
theorem Rested.work_step (rested : Rested options s) {event : Event} (pending : Pending s event) :
    (s.step options event).work < s.work := by
  cases event <;> simp only [Pending] at pending <;> simp only [DelegationManager.step]
  case drains =>
    rw [if_neg pending]
    refine lt_of_le_of_lt rested.balanced.fewer.work_drainQueue ?_
    simp only [DelegationManager.work]
    omega
  case raced child outcome =>
    obtain ⟨e,found,racing⟩ := pending
    obtain rfl := Table.key_of_find? found
    simp only [found,racing]
    exact rested.work_raced found racing outcome
  case verified child outcome =>
    obtain ⟨e,safe,found,verifying⟩ := pending
    obtain rfl := Table.key_of_find? found
    simp only [found,verifying]
    exact rested.work_verified found verifying outcome
  case announced child outcome =>
    obtain ⟨e,f,found,announcing⟩ := pending
    obtain rfl := Table.key_of_find? found
    simp only [found,announcing]
    exact work_announced found announcing outcome
  case archived child outcome =>
    obtain ⟨e,f,found,archiving⟩ := pending
    obtain rfl := Table.key_of_find? found
    simp only [found,archiving]
    exact work_archived found archiving outcome
  case returned child =>
    obtain ⟨e,found,returning⟩ := pending
    obtain rfl := Table.key_of_find? found
    simp only [found,returning]
    exact rested.work_returned found returning

theorem Rested.work_run (rested : Rested options s) {events : List Event}
    (pending : Run.Meets (DelegationManager.step options) Pending s events) : events.length ≤ s.work := by
  induction events generalizing s with
  | nil => exact Nat.zero_le _
  | cons event events ih =>
    obtain ⟨here,rest⟩ := pending
    have less := rested.work_step here
    have fewer := ih (rested.anyStep event).1 rest
    rw [List.length_cons]
    omega

end Work

/-- The books of a manager at `t`, which a run has reached from `s`. -/
structure Books (options : DelegationOptions) (s t : DelegationManager) : Prop where
  places : t.active ≤ options.limits.concurrency
  children : ∀ parent, (t.counts parent).getD 0 = t.entries.rows.countP (unsettledOf parent) ∧
    (t.counts parent).getD 0 ≤ options.limits.maxChildren
  started : ∀ e ∈ t.entries.rows, e.starts.length ≤ 1 ∧ ∀ status ∈ e.starts, status = .queued
  resolved : ∀ e ∈ t.entries.rows, e.resolved.length ≤ 1 ∧ (∀ result ∈ e.resolved, result.status = e.status) ∧
    ((∀ event, ¬Pending t event) → e.resolved.length = 1)
  final : ∀ e ∈ s.entries.rows, ∃ e' ∈ t.entries.rows, e'.number = e.number ∧ (e.status.terminal → e'.status = e.status)
  idle : t.drains = 0 → t.active < options.limits.concurrency → ∀ e ∈ t.entries.rows, e.status ≠ .queued
  /-- The steps that are pending come to an end. -/
  ends : ∀ events, Run.Meets (DelegationManager.step options) Pending t events → events.length ≤ t.work

section Results
variable {options : DelegationOptions} {s : DelegationManager} {e : Entry}

/-- Where no child is queued beside a free place, a quiet manager has none that waits. -/
theorem Rested.resolved (rested : Rested options s) (quiet : Quiet s) (inside : e ∈ s.entries.rows) : e.resolved.length = 1 := by
  obtain ⟨none_,still⟩ := quiet
  have idle : s.active = 0 := by
    rw [rested.balanced.active,List.countP_eq_zero]
    intro other there
    have pends := still other there
    unfold isArmed
    cases at_ : other.stage <;> simp only [at_,Stage.pends,reduceCtorEq] at pends <;> simp [DelegationManager.armed]
  have empty : s.queue = [] := by
    by_contra some_
    have full := rested.idle none_ some_
    have positive := options.limits.concurrency_pos
    omega
  have pends := still e inside
  have stage := (rested.balanced.proper e inside).stage
  cases at_ : e.stage <;> simp only [at_,AtStage,Stage.pends,reduceCtorEq] at stage pends
  case waiting =>
    have queued : e ∈ s.entries.rows.filter isQueued := List.mem_filter.mpr ⟨inside,by simp [isQueued,stage.1]⟩
    have queue := rested.balanced.queue
    rw [empty] at queue
    simp [List.map_eq_nil_iff.mp queue.symm] at queued
  case ended =>
    obtain ⟨-,result,resolved,-⟩ := stage
    simp [resolved]

/-- In every run: the places, the counters, the starts, the results and the queue are as the
manager keeps them, and what is terminal stays as it is. -/
theorem books_kept (options : DelegationOptions) (before after : List Event) :
    Books options (Run.run (DelegationManager.step options) .new before)
      (Run.run (DelegationManager.step options) .new (before ++ after)) := by
  have first := (Rested.new options).anyRun before
  have second := first.1.anyRun after
  rw [← Run.run_append] at second
  obtain ⟨rested,later⟩ := second
  have balanced := rested.balanced
  constructor
  case places => exact balanced.room
  case children => exact fun parent => ⟨balanced.counts parent,balanced.bound parent⟩
  case started =>
    intro e inside
    rcases (balanced.proper e inside).starts with none_ | once
    · simp [none_]
    · simp [once]
  case resolved =>
    intro e inside
    obtain ⟨once,statuses⟩ := (balanced.proper e inside).resolved
    refine ⟨once,statuses,fun idle => ?_⟩
    have quiet : Quiet (Run.run (DelegationManager.step options) .new (before ++ after)) := by
      by_contra busy
      obtain ⟨event,pending⟩ := pending_of_not_quiet busy
      exact idle event pending
    exact rested.resolved quiet inside
  case final =>
    intro e inside
    obtain ⟨e',inside',number,moved⟩ := later.kept e inside
    exact ⟨e',inside',number,moved.final (first.1.balanced.proper e inside).settled⟩
  case idle =>
    intro none_ room e inside queued
    have listed : e.number ∈ (Run.run (DelegationManager.step options) .new (before ++ after)).queue := by
      rw [balanced.queue]
      exact List.mem_map_of_mem (List.mem_filter.mpr ⟨inside,by simp [isQueued,queued]⟩)
    have full := rested.idle none_ (List.ne_nil_of_mem listed)
    omega
  case ends => exact fun events pending => rested.work_run pending

end Results

end RatifyOs.Autonomy.Delegation
