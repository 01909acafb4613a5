import RatifyOs.Autonomy.Moves

/-! The books of a `DelegationManager` over its runs. -/
namespace RatifyOs.Autonomy.Delegation
open Data Data.Result

/-! Replacing an entry. -/

section Replace
variable {t : Table Entry.number} {e e' : Entry}

theorem countP_put (found : t.find? e'.number = some e) (p : Entry → Bool) :
    (t.put e').rows.countP p + (if p e then 1 else 0) = t.rows.countP p + if p e' then 1 else 0 := by
  obtain ⟨before,after,rows,rows',-⟩ := Table.put_split found
  rw [rows,rows',List.countP_append,List.countP_append,List.countP_cons,List.countP_cons]
  omega

theorem countP_same (found : t.find? e'.number = some e) {p : Entry → Bool} (same : p e' = p e) :
    (t.put e').rows.countP p = t.rows.countP p := by
  have count := countP_put found p
  rw [same] at count
  omega

theorem forall_put (found : t.find? e'.number = some e) {P : Entry → Prop} (all : ∀ other ∈ t.rows, P other) (new : P e') :
    ∀ other ∈ (t.put e').rows, P other := by
  intro other there
  rcases (Table.mem_put_iff found).mp there with rfl | ⟨old,-⟩
  · exact new
  · exact all other old

theorem numbers_put (found : t.find? e'.number = some e) {p : Entry → Bool} (same : p e' = p e) :
    ((t.put e').rows.filter p).map Entry.number = (t.rows.filter p).map Entry.number := by
  obtain ⟨before,after,rows,rows',-⟩ := Table.put_split found
  have number : e.number = e'.number := Table.key_of_find? found
  rw [rows,rows',List.filter_append,List.filter_append,List.filter_cons,List.filter_cons,same]
  split_ifs <;> simp [number]

theorem numbers_erase (e' : Entry) (found : t.find? e'.number = some e) {p : Entry → Bool} (was : p e) (not_ : p e' = false) :
    ((t.put e').rows.filter p).map Entry.number = ((t.rows.filter p).map Entry.number).erase e'.number := by
  obtain ⟨before,after,rows,rows',apart⟩ := Table.put_split found
  have number : e.number = e'.number := Table.key_of_find? found
  have absent : e'.number ∉ (before.filter p).map Entry.number := by
    intro inside
    obtain ⟨other,there,same⟩ := List.mem_map.mp inside
    exact apart other (List.mem_append_left _ (List.mem_of_mem_filter there)) same
  rw [rows,rows',List.filter_append,List.filter_append,List.filter_cons_of_pos was,
    List.filter_cons_of_neg (by simp [not_]),List.map_append,List.map_append,List.map_cons,number,
    List.erase_append_right _ absent,List.erase_cons_head]

end Replace

def isQueued (e : Entry) : Bool := e.status = .queued

def unsettledOf (parent : String) (e : Entry) : Bool := e.request.parentSessionId = parent ∧ e.settled = false

def isArmed (e : Entry) : Bool := DelegationManager.armed e.stage

/-- The books balance, for a queue. -/
structure Balanced (options : DelegationOptions) (s : DelegationManager) (queue : List ℕ) : Prop where
  fresh : ∀ e ∈ s.entries.rows, e.number ≤ s.sequence
  proper : ∀ e ∈ s.entries.rows, Proper e
  queue : queue = (s.entries.rows.filter isQueued).map Entry.number
  counts : ∀ parent, (s.counts parent).getD 0 = s.entries.rows.countP (unsettledOf parent)
  bound : ∀ parent, (s.counts parent).getD 0 ≤ options.limits.maxChildren
  active : s.active = s.entries.rows.countP isArmed
  room : s.active ≤ options.limits.concurrency

section Parts
variable {options : DelegationOptions} {slips : Prop} {s : DelegationManager} {e e' : Entry} {queue : List ℕ}

/-- An entry changes, but nothing that the books are about. -/
theorem Balanced.touch (balanced : Balanced options s queue) (e' : Entry) (found : s.entries.find? e'.number = some e)
    (proper : Proper e') (request : e'.request.parentSessionId = e.request.parentSessionId) (status : e'.status = e.status)
    (settled : e'.settled = e.settled) (armed : isArmed e' = isArmed e) : Balanced options (s.put e') queue := by
  have inside := Table.mem_of_find? found
  have number : e.number = e'.number := Table.key_of_find? found
  constructor
  case fresh => exact forall_put found balanced.fresh (number ▸ balanced.fresh e inside)
  case proper => exact forall_put found balanced.proper proper
  case queue => exact balanced.queue.trans (numbers_put found (by simp [isQueued,status])).symm
  case counts =>
    exact fun parent => (balanced.counts parent).trans
      (countP_same found (by simp [unsettledOf,request,settled])).symm
  case bound => exact balanced.bound
  case active =>
    exact balanced.active.trans (countP_same found armed).symm
  case room => exact balanced.room

theorem Balanced.withQueue (balanced : Balanced options s queue) (other : List ℕ) :
    Balanced options { s with queue := other } queue :=
  ⟨balanced.fresh,balanced.proper,balanced.queue,balanced.counts,balanced.bound,balanced.active,balanced.room⟩

theorem setCount_getD (parent other : String) (count : ℕ) :
    ((s.setCount parent count).counts other).getD 0 = if other = parent then count else (s.counts other).getD 0 := by
  unfold DelegationManager.setCount
  dsimp only
  split_ifs <;> rfl

theorem finish_eq (open_ : e.settled = false) (counted : e.counted = true) (partial_ : Partial) (announce awaited : Bool) :
    s.finish e partial_ announce awaited =
      (s.setCount e.request.parentSessionId ((s.counts e.request.parentSessionId).getD 1 - 1)).put
        (settledWith e partial_ announce awaited) := by
  simp only [DelegationManager.finish,open_,counted,if_true,Bool.false_eq_true,if_false]
  rfl

/-- A settlement takes one from the parent's counter, and the child out of the queue if it is
there. -/
theorem Balanced.finish (balanced : Balanced options s queue) (found : s.entries.find? e.number = some e)
    (open_ : e.settled = false) {partial_ : Partial} (over_ : partial_.status.terminal) (announce : Bool) {awaited : Bool}
    (armed : isArmed e = awaited) : Balanced options (s.finish e partial_ announce awaited)
      (if isQueued e then queue.erase e.number else queue) := by
  have inside := Table.mem_of_find? found
  have proper := balanced.proper e inside
  rw [finish_eq open_ (by rw [proper.counted,open_]; rfl)]
  have number : (settledWith e partial_ announce awaited).number = e.number := rfl
  have found' : s.entries.find? (settledWith e partial_ announce awaited).number = some e := found
  have settled := proper.settledWith (proper.unresolved open_) over_ announce awaited
  have unqueued : isQueued (settledWith e partial_ announce awaited) = false := by
    simp only [isQueued,decide_eq_false_iff_not]
    intro queued
    rw [show partial_.status = .queued from queued] at over_
    cases over_
  have counts (parent : String) : ((s.setCount e.request.parentSessionId
      ((s.counts e.request.parentSessionId).getD 1 - 1)).counts parent).getD 0 =
        (s.entries.put (settledWith e partial_ announce awaited)).rows.countP (unsettledOf parent) := by
    have count := countP_put found' (unsettledOf parent)
    have closed : unsettledOf parent (settledWith e partial_ announce awaited) = false := by
      simp [unsettledOf,show (settledWith e partial_ announce awaited).settled = true from rfl]
    rw [← balanced.counts parent,closed] at count
    rw [setCount_getD]
    by_cases mine : parent = e.request.parentSessionId
    · subst mine
      have open' : unsettledOf e.request.parentSessionId e = true := by simp [unsettledOf,open_]
      have less : (s.counts e.request.parentSessionId).getD 1 - 1 = (s.counts e.request.parentSessionId).getD 0 - 1 := by
        cases s.counts e.request.parentSessionId <;> rfl
      simp only [open',if_true,Bool.false_eq_true,if_false] at count
      rw [if_pos rfl,less]
      omega
    · have other : unsettledOf parent e = false := by simp [unsettledOf,Ne.symm mine]
      simp only [other,Bool.false_eq_true,if_false] at count
      rw [if_neg mine]
      omega
  constructor
  case fresh => exact forall_put found' balanced.fresh (balanced.fresh e inside)
  case proper => exact forall_put found' balanced.proper settled
  case queue =>
    split_ifs with queued
    · rw [balanced.queue]
      exact (numbers_erase _ found' queued unqueued).symm
    · exact balanced.queue.trans (numbers_put found' (by rw [unqueued]; simpa using queued)).symm
  case counts => exact counts
  case bound =>
    intro parent
    have bound := balanced.bound parent
    refine (counts parent).le.trans (le_trans ?_ bound)
    have count := countP_put found' (unsettledOf parent)
    have closed : unsettledOf parent (settledWith e partial_ announce awaited) = false := by
      simp [unsettledOf,show (settledWith e partial_ announce awaited).settled = true from rfl]
    rw [closed,← balanced.counts parent] at count
    simp only [Bool.false_eq_true,if_false] at count
    omega
  case active =>
    refine balanced.active.trans (countP_same found' ?_).symm
    rw [armed]
    cases announce <;> rfl
  case room => exact balanced.room

/-- A queued child that starts leaves the head of the queue. -/
theorem Balanced.start {rest : List ℕ} (balanced : Balanced options s (e.number :: rest))
    (found : s.entries.find? e.number = some e) (queued : e.status = .queued)
    (room : s.active < options.limits.concurrency) :
    Balanced options ({ s with active := s.active + 1 }.put (startedNow e)) rest := by
  have inside := Table.mem_of_find? found
  have proper := balanced.proper e inside
  have found' : s.entries.find? (startedNow e).number = some e := found
  have waiting := proper.waiting queued
  constructor
  case fresh => exact forall_put found' balanced.fresh (balanced.fresh e inside)
  case proper => exact forall_put found' balanced.proper (proper.startedNow queued)
  case queue =>
    have erased := numbers_erase (startedNow e) (p := isQueued) found' (by simp [isQueued,queued]) (by simp [isQueued,startedNow])
    rw [← balanced.queue] at erased
    exact (erased.trans (by simp [startedNow])).symm
  case counts => exact fun parent => (balanced.counts parent).trans (countP_same found' rfl).symm
  case bound => exact balanced.bound
  case active =>
    have count := countP_put found' isArmed
    have was : isArmed e = false := by simp [isArmed,waiting.1,DelegationManager.armed]
    have is_ : isArmed (startedNow e) = true := rfl
    simp only [was,is_,Bool.false_eq_true,if_false,if_true,← balanced.active] at count
    simpa [DelegationManager.put] using count.symm
  case room => exact room

/-- A child whose result is resolved ends, and frees its place. -/
theorem Balanced.leave (balanced : Balanced options s queue) (found : s.entries.find? e.number = some e)
    (returning : e.stage = .returning) :
    Balanced options { s.put { e with stage := .ended } with active := s.active - 1 } queue := by
  have inside := Table.mem_of_find? found
  have proper := balanced.proper e inside
  have found' : s.entries.find? ({ e with stage := .ended } : Entry).number = some e := found
  have proper' : Proper { e with stage := .ended } :=
    ⟨proper.counted,proper.settled,proper.starts,proper.atStage returning⟩
  have count := countP_put found' isArmed
  have was : isArmed e = true := by simp [isArmed,returning,DelegationManager.armed]
  have is_ : isArmed { e with stage := .ended } = false := rfl
  simp only [was,is_,Bool.false_eq_true,if_false,if_true,← balanced.active] at count
  constructor
  case fresh => exact forall_put found' balanced.fresh (balanced.fresh e inside)
  case proper => exact forall_put found' balanced.proper proper'
  case queue => exact balanced.queue.trans (numbers_put found' rfl).symm
  case counts => exact fun parent => (balanced.counts parent).trans (countP_same found' rfl).symm
  case bound => exact balanced.bound
  case active =>
    dsimp only [DelegationManager.put]
    omega
  case room => exact (Nat.sub_le _ _).trans balanced.room

theorem finish_put (open_ : e.settled = false) (counted : e.counted = true) (partial_ : Partial) (announce awaited : Bool) :
    (s.put e).finish e partial_ announce awaited = s.finish e partial_ announce awaited := by
  rw [finish_eq open_ counted,finish_eq open_ counted]
  unfold DelegationManager.put DelegationManager.setCount
  dsimp only
  rw [Table.put_put (show (settledWith e partial_ announce awaited).number = e.number from rfl)]

theorem finish_later (found : s.entries.find? e.number = some e) (open_ : e.settled = false) (counted : e.counted = true)
    {partial_ : Partial} (over_ : partial_.status.terminal) (announce : Bool)
    (allowed : announce = true ∨ partial_.status = .completed → e.aborted = none ∨ slips) (awaited : Bool) :
    Later slips s (s.finish e partial_ announce awaited) := by
  rw [finish_eq open_ counted]
  exact Later.put (settledWith e partial_ announce awaited) found rfl (.settle awaited open_ over_ allowed)

@[simp] theorem finish_queue (partial_ : Partial) (announce awaited : Bool) :
    (s.finish e partial_ announce awaited).queue = s.queue := by
  unfold DelegationManager.finish
  split_ifs <;> rfl

@[simp] theorem finish_active (partial_ : Partial) (announce awaited : Bool) :
    (s.finish e partial_ announce awaited).active = s.active := by
  unfold DelegationManager.finish
  split_ifs <;> rfl

@[simp] theorem finish_drains (partial_ : Partial) (announce awaited : Bool) :
    (s.finish e partial_ announce awaited).drains = s.drains := by
  unfold DelegationManager.finish
  split_ifs <;> rfl

/-- The `catch` is a settlement. -/
theorem caught_eq (message : String) : ∃ partial_ : Partial, partial_.status.terminal ∧ partial_.status ≠ .completed ∧
    s.caught e message = s.finish e partial_ false true := by
  unfold DelegationManager.caught
  cases e.aborted with
  | none => exact ⟨{ status := .failed, error := some message },rfl,by simp,rfl⟩
  | some reason => exact ⟨{ status := .cancelled, error := some reason },rfl,by simp,rfl⟩

theorem run_eq : s.run options e = match options.runtimeFactory e.id with
    | none => { s with active := s.active + 1 }.put (startedNow e)
    | some message => { s with active := s.active + 1 }.caught (startedNow e) message := rfl

theorem Balanced.run {rest : List ℕ} (balanced : Balanced options s (e.number :: rest))
    (found : s.entries.find? e.number = some e) (queued : e.status = .queued) (room : s.active < options.limits.concurrency) :
    Balanced options (s.run options e) rest ∧ Later slips s (s.run options e) := by
  have started := balanced.start found queued room
  have proper := balanced.proper e (Table.mem_of_find? found)
  have alive : e.settled = false := by rw [proper.settled,queued]; rfl
  have found' : ({ s with active := s.active + 1 }.put (startedNow e)).entries.find? (startedNow e).number = some (startedNow e) :=
    Table.find?_put_self (t := s.entries) (r := startedNow e) found
  have later : Later slips s ({ s with active := s.active + 1 }.put (startedNow e)) :=
    Later.put (startedNow e) found rfl (.start queued)
  rw [run_eq]
  cases options.runtimeFactory e.id with
  | none => exact ⟨started,later⟩
  | some message =>
    obtain ⟨partial_,over_,incomplete,caught⟩ := caught_eq (s := { s with active := s.active + 1 }) (e := startedNow e) message
    have counted : (startedNow e).counted = true := by rw [show (startedNow e).counted = e.counted from rfl,proper.counted,alive]; rfl
    have armed : isArmed (startedNow e) = true := rfl
    have settled := started.finish found' alive over_ false armed
    have later' : Later slips _ _ := finish_later found' alive counted over_ false (by simp [incomplete]) true
    rw [finish_put (e := startedNow e) alive counted] at settled later'
    dsimp only
    rw [caught]
    exact ⟨settled,later.trans later'⟩

@[simp] theorem run_drains : (s.run options e).drains = s.drains := by
  rw [run_eq]
  cases options.runtimeFactory e.id with
  | none => rfl
  | some message =>
    obtain ⟨partial_,-,-,caught⟩ := caught_eq (s := { s with active := s.active + 1 }) (e := startedNow e) message
    dsimp only
    rw [caught,finish_drains]

/-- The head of the queue is a child that waits. -/
theorem Balanced.head {number : ℕ} {rest : List ℕ} (balanced : Balanced options s (number :: rest)) :
    ∃ e, s.entries.find? number = some e ∧ e.number = number ∧ e.status = .queued := by
  have queue := balanced.queue
  cases waiting : s.entries.rows.filter isQueued with
  | nil => simp [waiting] at queue
  | cons e others =>
    rw [waiting,List.map_cons,List.cons.injEq] at queue
    obtain ⟨inside,queued⟩ := List.mem_filter.mp (waiting ▸ List.mem_cons_self)
    exact ⟨e,queue.1 ▸ Table.find?_of_mem inside,queue.1.symm,by simpa [isQueued] using queued⟩

/-- The books after a drain: it ends with an empty queue or with no room left. -/
theorem Balanced.drainQueue (balanced : Balanced options s queue) :
    Balanced options (s.drainQueue options queue) (s.drainQueue options queue).queue ∧
      Later slips s (s.drainQueue options queue) ∧ (s.drainQueue options queue).drains = s.drains ∧
        ((s.drainQueue options queue).queue ≠ [] → options.limits.concurrency ≤ (s.drainQueue options queue).active) := by
  induction queue generalizing s with
  | nil => exact ⟨balanced.withQueue _,.same rfl,rfl,fun some_ => absurd rfl some_⟩
  | cons number rest ih =>
    unfold DelegationManager.drainQueue
    split_ifs with room
    · obtain ⟨e,found,rfl,queued⟩ := balanced.head
      obtain ⟨started,later⟩ := balanced.run found queued room
      obtain ⟨balanced',later',drains,full⟩ := ih started
      rw [found]
      dsimp only
      rw [if_pos queued]
      exact ⟨balanced',later.trans later',drains.trans run_drains,full⟩
    · exact ⟨balanced.withQueue _,.same rfl,rfl,fun _ => not_lt.mp room⟩

end Parts

/-- The books balance, and no child waits for a place that is free unless a drain is to come. -/
structure Rested (options : DelegationOptions) (s : DelegationManager) : Prop where
  balanced : Balanced options s s.queue
  idle : s.drains = 0 → s.queue ≠ [] → options.limits.concurrency ≤ s.active

section Steps
variable {options : DelegationOptions} {slips : Prop} {s : DelegationManager} {e : Entry}

theorem Rested.drain {t : DelegationManager} (balanced : Balanced options t t.queue) :
    Rested options (t.drain options) ∧ Later slips t (t.drain options) := by
  obtain ⟨balanced',later,-,full⟩ := balanced.drainQueue
  exact ⟨⟨balanced',fun _ => full⟩,later⟩

theorem cancel_eq (reason : String) : s.cancel e reason =
    if e.status.terminal then s
    else if e.status = .queued then { s with queue := s.queue.erase e.number }.finish (DelegationManager.abort e reason)
      { status := .cancelled, error := some reason } false false
    else s.put (DelegationManager.abort e reason) := rfl

theorem Rested.cancel (rested : Rested options s) (found : s.entries.find? e.number = some e) (reason : String) :
    Rested options (s.cancel e reason) ∧ Later slips s (s.cancel e reason) := by
  have balanced := rested.balanced
  have proper := balanced.proper e (Table.mem_of_find? found)
  have aborted : Balanced options (s.put (DelegationManager.abort e reason)) s.queue :=
    balanced.touch (DelegationManager.abort e reason) found (proper.abort reason) rfl rfl rfl rfl
  have later : Later slips s (s.put (DelegationManager.abort e reason)) :=
    Later.put (DelegationManager.abort e reason) found rfl (.abort reason)
  rw [cancel_eq]
  split_ifs with over_ queued
  · exact ⟨rested,.refl s⟩
  · have alive : e.status.terminal = false := by simpa using over_
    obtain ⟨open_,counted⟩ := proper.alive alive
    have found' : (s.put (DelegationManager.abort e reason)).entries.find? (DelegationManager.abort e reason).number =
        some (DelegationManager.abort e reason) := Table.find?_put_self (t := s.entries) (r := DelegationManager.abort e reason) found
    have unarmed : isArmed (DelegationManager.abort e reason) = false := by
      simp [isArmed,DelegationManager.abort,(proper.waiting queued).1,DelegationManager.armed]
    have queued' : isQueued (DelegationManager.abort e reason) = true := by simp [isQueued,DelegationManager.abort,queued]
    have over_ : ({ status := .cancelled, error := some reason } : Partial).status.terminal := rfl
    have settled := aborted.finish found' open_ over_ false unarmed
    have later' : Later slips _ _ := finish_later found' open_ counted over_ false (by simp) false
    rw [finish_put (e := DelegationManager.abort e reason) open_ counted,queued',if_pos rfl] at settled
    rw [finish_put (e := DelegationManager.abort e reason) open_ counted] at later'
    have erased : { s with queue := s.queue.erase e.number }.finish (DelegationManager.abort e reason)
        { status := .cancelled, error := some reason } false false =
          { s.finish (DelegationManager.abort e reason) { status := .cancelled, error := some reason } false false with
            queue := s.queue.erase e.number } := by
      rw [finish_eq (e := DelegationManager.abort e reason) open_ counted,finish_eq (e := DelegationManager.abort e reason) open_ counted]
      rfl
    rw [erased]
    refine ⟨⟨settled.withQueue _,fun drains some_ => ?_⟩,(later.trans later').trans (.same rfl)⟩
    dsimp only at drains some_ ⊢
    rw [finish_drains] at drains
    rw [finish_active]
    exact rested.idle drains fun empty => some_ (by rw [empty]; rfl)
  · exact ⟨⟨aborted,rested.idle⟩,later⟩

theorem Rested.visitChild (rested : Rested options s) (reason : String) {below : DelegationManager → String → DelegationManager}
    (ih : ∀ {s : DelegationManager} (parent : String), Rested options s → Rested options (below s parent) ∧ Later slips s (below s parent))
    (parent : String) (number : ℕ) : Rested options (DelegationManager.visitChild reason below parent s number) ∧
      Later slips s (DelegationManager.visitChild reason below parent s number) := by
  unfold DelegationManager.visitChild
  cases s.entries.find? number with
  | none => exact ⟨rested,.refl s⟩
  | some e =>
    dsimp only
    split_ifs with child
    swap
    · exact ⟨rested,.refl s⟩
    obtain ⟨walked,later⟩ := ih e.id rested
    cases found : (below s e.id).entries.find? number with
    | none => exact ⟨walked,later⟩
    | some e' =>
      obtain ⟨cancelled,later'⟩ := walked.cancel (Table.key_of_find? found ▸ found) reason
      exact ⟨cancelled,later.trans later'⟩

/-- The walk of `cancelParent` is a sequence of cancellations. -/
theorem Rested.visit (reason : String) (deeper : ℕ) : ∀ {s : DelegationManager} (parent : String), Rested options s →
    Rested options (DelegationManager.visit reason deeper s parent) ∧ Later slips s (DelegationManager.visit reason deeper s parent) := by
  induction deeper with
  | zero => exact fun _ rested => ⟨rested,.refl _⟩
  | succ deeper ih =>
    intro s parent rested
    unfold DelegationManager.visit
    generalize s.entries.rows.map Entry.number = numbers
    induction numbers generalizing s with
    | nil => exact ⟨rested,.refl s⟩
    | cons number numbers rest =>
      obtain ⟨walked,later⟩ := rested.visitChild reason ih parent number
      obtain ⟨after,later'⟩ := rest walked
      exact ⟨after,later.trans later'⟩

/-- A settlement of a child that runs leaves the queue and the places alone. -/
theorem Rested.finish (rested : Rested options s) (found : s.entries.find? e.number = some e) (running : e.status = .running)
    {partial_ : Partial} (over_ : partial_.status.terminal) {announce : Bool}
    (allowed : announce = true ∨ partial_.status = .completed → e.aborted = none ∨ slips) (armed : isArmed e = true) :
    Rested options (s.finish e partial_ announce true) ∧ Later slips s (s.finish e partial_ announce true) := by
  have proper := rested.balanced.proper e (Table.mem_of_find? found)
  have alive : e.status.terminal = false := by rw [running]; rfl
  obtain ⟨open_,counted⟩ := proper.alive alive
  have settled := rested.balanced.finish found open_ over_ announce armed
  have unqueued : isQueued e = false := by simp [isQueued,running]
  rw [unqueued,if_neg Bool.false_ne_true] at settled
  refine ⟨⟨by rwa [finish_queue],?_⟩,finish_later found open_ counted over_ announce allowed true⟩
  rw [finish_drains,finish_queue,finish_active]
  exact rested.idle

theorem Rested.touch (rested : Rested options s) (e' : Entry) (found : s.entries.find? e'.number = some e) (proper : Proper e')
    (request : e'.request.parentSessionId = e.request.parentSessionId) (status : e'.status = e.status)
    (settled : e'.settled = e.settled) (armed : isArmed e' = isArmed e) (move : Move slips e e') :
    Rested options (s.put e') ∧ Later slips s (s.put e') :=
  ⟨⟨rested.balanced.touch e' found proper request status settled armed,rested.idle⟩,Later.put e' found rfl move⟩

theorem Rested.caught (rested : Rested options s) (found : s.entries.find? e.number = some e) (running : e.status = .running)
    (armed : isArmed e = true) (message : String) :
    Rested options (s.caught e message) ∧ Later slips s (s.caught e message) := by
  obtain ⟨partial_,over_,incomplete,caught⟩ := caught_eq (s := s) (e := e) message
  rw [caught]
  exact rested.finish found running over_ (by simp [incomplete]) armed

theorem Rested.raced (rested : Rested options s) (found : s.entries.find? e.number = some e) (racing : e.stage = .racing)
    (outcome : Except String (Option ChildRuntimeResult)) :
    Rested options (s.raced options e outcome) ∧ Later slips s (s.raced options e outcome) := by
  have proper := rested.balanced.proper e (Table.mem_of_find? found)
  obtain ⟨running,unresolved⟩ := proper.atStage racing
  have armed : isArmed e = true := by simp [isArmed,racing,DelegationManager.armed]
  have caught (message : String) : Rested options (s.caught e message) ∧ Later slips s (s.caught e message) :=
    rested.caught found running armed message
  unfold DelegationManager.raced
  split
  · exact caught _
  · exact caught _
  · exact caught _
  · rename_i raw unaborted
    cases DelegationManager.judge options raw with
    | invalid => exact caught _
    | exceeded => exact rested.finish found running (by rfl) (by simp) armed
    | fine =>
      dsimp only
      split_ifs
      · exact caught _
      · refine rested.touch { e with stage := .verifying raw } found ?_ rfl rfl rfl ?_ (.pass _ _)
        · exact ⟨proper.counted,proper.settled,proper.starts,running,unresolved⟩
        · rw [armed]
          rfl
      · exact rested.finish found running (by rfl) (fun _ => .inl unaborted) armed

/-- Nothing asks for the signal once the result is being verified. -/
theorem Rested.verified (rested : Rested options s) (found : s.entries.find? e.number = some e) {safe : ChildRuntimeResult}
    (verifying : e.stage = .verifying safe) {outcome : Except String Bool} (allowed : outcome = .ok true → e.aborted = none ∨ slips) :
    Rested options (s.verified e safe outcome) ∧ Later slips s (s.verified e safe outcome) := by
  have stage := (rested.balanced.proper e (Table.mem_of_find? found)).atStage verifying
  have armed : isArmed e = true := by simp [isArmed,verifying,DelegationManager.armed]
  unfold DelegationManager.verified
  split
  · exact rested.finish found stage.1 (by rfl) (by simp) armed
  · exact rested.finish found stage.1 (by rfl) (by simp) armed
  · exact rested.finish found stage.1 (by rfl) (fun _ => allowed rfl) armed

/-- What a spawn that is not refused adds. -/
structure Spawned (options : DelegationOptions) (s t : DelegationManager) (request : SpawnRequest) (e : Entry) : Prop where
  number : e.number = s.sequence + 1
  parent : e.request.parentSessionId = request.parentSessionId
  status : e.status = .queued
  stage : e.stage = .waiting
  settled : e.settled = false
  fresh : Fresh e
  proper : Proper e
  room : (s.counts request.parentSessionId).getD 0 < options.limits.maxChildren
  manager : t = { s.setCount request.parentSessionId ((s.counts request.parentSessionId).getD 0 + 1) with
    entries := s.entries.upsert e
    queue := s.queue ++ [s.sequence + 1]
    sequence := s.sequence + 1
    drains := s.drains + 1 }

theorem spawn_ok {request : SpawnRequest} {t : DelegationManager} (spawned : s.spawn options request = .ok t) :
    ∃ e, Spawned options s t request e := by
  simp only [DelegationManager.spawn,bind_eq_ok,reject_eq_ok,pure_eq_ok] at spawned
  obtain ⟨-,-,-,room,-,-,-,-,-,-,same⟩ := spawned
  refine ⟨_,rfl,?_,?_,?_,?_,?_,?_,not_le.mp room,same.symm⟩
  case refine_5 => exact ⟨rfl,rfl,rfl,rfl,rfl⟩
  case refine_6 => exact ⟨rfl,rfl,.inl rfl,rfl,rfl,rfl⟩
  all_goals rfl

/-- The rows after a spawn: the new number is not taken. -/
theorem Balanced.spawned_rows {queue : List ℕ} (balanced : Balanced options s queue) (number : e.number = s.sequence + 1) :
    (s.entries.upsert e).rows = s.entries.rows ++ [e] := by
  have kept : s.entries.rows.filter (fun old => old.number ≠ e.number) = s.entries.rows := by
    refine List.filter_eq_self.mpr fun old inside => ?_
    have below := balanced.fresh old inside
    simp only [ne_eq,decide_not,Bool.not_eq_true',decide_eq_false_iff_not]
    omega
  unfold Table.upsert
  dsimp only
  rw [kept]

theorem Rested.spawn (rested : Rested options s) {request : SpawnRequest} {t : DelegationManager}
    (spawned : s.spawn options request = .ok t) : Rested options t ∧ Later slips s t := by
  obtain ⟨e,new⟩ := spawn_ok spawned
  have balanced := rested.balanced
  have rows := balanced.spawned_rows new.number
  have counts (parent : String) : ((s.setCount request.parentSessionId
      ((s.counts request.parentSessionId).getD 0 + 1)).counts parent).getD 0 =
        (s.counts parent).getD 0 + if parent = request.parentSessionId then 1 else 0 := by
    rw [setCount_getD]
    split_ifs with mine
    · rw [mine]
    · rfl
  have listed : e ∈ (s.entries.rows ++ [e]) := by simp
  rw [new.manager]
  refine ⟨⟨?_,fun none_ => absurd none_ (Nat.succ_ne_zero _)⟩,fun old inside => ⟨old,?_,rfl,.refl old⟩,fun old inside => ⟨old,?_,.refl old⟩⟩
  case refine_2 => exact rows ▸ List.mem_append_left _ inside
  case refine_3 =>
    rcases List.mem_append.mp (rows ▸ inside) with there | here
    · exact .inl there
    · exact .inr (List.mem_singleton.mp here ▸ new.fresh)
  constructor <;> dsimp only
  case fresh =>
    rw [rows]
    intro old inside
    rcases List.mem_append.mp inside with there | here
    · exact (balanced.fresh old there).trans (Nat.le_succ _)
    · rw [List.mem_singleton.mp here,new.number]
  case proper =>
    rw [rows]
    intro old inside
    rcases List.mem_append.mp inside with there | here
    · exact balanced.proper old there
    · exact List.mem_singleton.mp here ▸ new.proper
  case queue =>
    rw [rows,List.filter_append,List.map_append,← balanced.queue]
    simp [isQueued,new.status,new.number]
  case counts =>
    intro parent
    rw [counts,rows,List.countP_append,← balanced.counts]
    simp [unsettledOf,new.settled,new.parent,List.countP_cons,eq_comm]
  case bound =>
    intro parent
    have bound := balanced.bound parent
    rw [counts]
    split_ifs with mine
    · rw [mine]
      exact new.room
    · exact bound
  case active =>
    rw [rows,List.countP_append,← balanced.active]
    simp [isArmed,new.stage,DelegationManager.armed,DelegationManager.setCount]
  case room => exact balanced.room

theorem Rested.announced (rested : Rested options s) (found : s.entries.find? e.number = some e) {f : Finishing}
    (announcing : e.stage = .announcing f) (outcome : Except String Unit) :
    Rested options (s.announced e f outcome) ∧ Later slips s (s.announced e f outcome) := by
  have proper := rested.balanced.proper e (Table.mem_of_find? found)
  have stage := proper.atStage announcing
  have next (g : Finishing) (awaited : g.awaited = f.awaited) (status : g.result.status = f.result.status) :
      Rested options (s.put { e with stage := .archiving g }) ∧ Later slips s (s.put { e with stage := .archiving g }) := by
    refine rested.touch { e with stage := .archiving g } found ?_ rfl rfl rfl ?_ (.pass _ _)
    · exact ⟨proper.counted,proper.settled,proper.starts,stage.1,stage.2.1,status.trans stage.2.2⟩
    · simp [isArmed,announcing,DelegationManager.armed,awaited]
  cases outcome with
  | ok => exact next _ rfl rfl
  | error message => exact next _ rfl rfl

theorem Rested.archived (rested : Rested options s) (found : s.entries.find? e.number = some e) {f : Finishing}
    (archiving : e.stage = .archiving f) (outcome : Except String Unit) :
    Rested options (s.archived e f outcome) ∧ Later slips s (s.archived e f outcome) := by
  have proper := rested.balanced.proper e (Table.mem_of_find? found)
  obtain ⟨over_,unresolved,status⟩ := proper.atStage archiving
  have next (result : DelegationResult) (same : result.status = f.result.status) :
      Rested options (s.put { e with resolved := e.resolved ++ [result], stage := if f.awaited then .returning else .ended }) ∧
        Later slips s (s.put { e with resolved := e.resolved ++ [result], stage := if f.awaited then .returning else .ended }) := by
    refine rested.touch { e with resolved := e.resolved ++ [result], stage := if f.awaited then .returning else .ended }
      found ?_ rfl rfl rfl ?_ (.pass _ _)
    · refine ⟨proper.counted,proper.settled,proper.starts,?_⟩
      unfold AtStage
      cases f.awaited <;> exact ⟨over_,result,by simp [unresolved],same.trans status⟩
    · cases awaited : f.awaited <;> simp [isArmed,archiving,DelegationManager.armed,awaited]
  refine next _ ?_
  cases outcome <;> dsimp only <;> split_ifs <;> rfl

end Steps

end RatifyOs.Autonomy.Delegation
