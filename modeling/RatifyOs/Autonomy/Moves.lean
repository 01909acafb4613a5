import Mathlib.Logic.Relation
import RatifyOs.Autonomy.Delegation
import RatifyOs.Data.Words

/-! What the steps of a `DelegationManager` do to one child. -/
namespace RatifyOs.Autonomy.Delegation
open Data Data.Result

/-- A session id tells the number of its child. -/
theorem childId_inj {parent parent' : String} {m n : ℕ} (same : childId parent m = childId parent' n) : m = n := by
  have digits (k : ℕ) : ':' ∉ (toString k).toList := by
    intro inside
    have listed : ':' ∈ Nat.toDigits 10 k := by simpa using inside
    have digit : ':'.isDigit = true := Nat.isDigit_of_mem_toDigits (by decide) (by decide) listed
    exact absurd digit (by decide)
  have split (parent : String) (k : ℕ) : (childId parent k).toList = (parent ++ ":child").toList ++ ':' :: (toString k).toList := by
    simp [childId]
  have tails := after_last (digits m) (digits n) ((split parent m).symm.trans ((congrArg String.toList same).trans (split parent' n)))
  have equal : Nat.toDigits 10 m = Nat.toDigits 10 n := by simpa using tails
  rw [← Nat.ofDigitChars_ten_toDigits (n := m),equal,Nat.ofDigitChars_ten_toDigits]

/-- No two entries of a manager have one session id. -/
theorem entry_of_id {s : DelegationManager} {e e' : Entry} (inside : e ∈ s.entries.rows) (inside' : e' ∈ s.entries.rows)
    (same : e.id = e'.id) : e = e' :=
  List.inj_on_of_nodup_map s.entries.distinct inside inside' (childId_inj same)

def AtStage (e : Entry) : Stage → Prop
  | .waiting => e.status = .queued ∧ e.starts = [] ∧ e.resolved = []
  | .racing => e.status = .running ∧ e.resolved = []
  | .verifying _ => e.status = .running ∧ e.resolved = []
  | .announcing f => e.status.terminal ∧ e.resolved = [] ∧ f.result.status = e.status
  | .archiving f => e.status.terminal ∧ e.resolved = [] ∧ f.result.status = e.status
  | .returning => e.status.terminal ∧ ∃ result, e.resolved = [result] ∧ result.status = e.status
  | .ended => e.status.terminal ∧ ∃ result, e.resolved = [result] ∧ result.status = e.status

structure Proper (e : Entry) : Prop where
  counted : e.counted = !e.settled
  settled : e.settled = e.status.terminal
  starts : e.starts = [] ∨ e.starts = [.queued]
  stage : AtStage e e.stage

def settledWith (e : Entry) (partial_ : Partial) (announce awaited : Bool) : Entry :=
  let f : Finishing := ⟨⟨e.id,e.request.parentSessionId,partial_.status,partial_.output,partial_.error,false,false⟩,[],awaited⟩
  { e with
    settled := true
    status := partial_.status
    counted := false
    stage := if announce then .announcing f else .archiving f
    announcedTo := announce }

def startedNow (e : Entry) : Entry :=
  { e with status := .running, starts := e.starts ++ [e.status], stage := .racing }

structure Fresh (e : Entry) : Prop where
  status : e.status = .queued
  settled : e.settled = false
  aborted : e.aborted = none
  overtaken : e.overtaken = false
  announcedTo : e.announcedTo = false

/-- What a step does to a child. A child that is aborted is completed or announced only where
a slip is allowed. -/
inductive Move (slips : Prop) (e : Entry) : Entry → Prop
  | abort (reason : String) : Move slips e (DelegationManager.abort e reason)
  | start : e.status = .queued → Move slips e (startedNow e)
  | settle {partial_ : Partial} {announce : Bool} (awaited : Bool) : e.settled = false → partial_.status.terminal →
      (announce = true ∨ partial_.status = .completed → e.aborted = none ∨ slips) →
        Move slips e (settledWith e partial_ announce awaited)
  | pass (stage : Stage) (resolved : List DelegationResult) : Move slips e { e with stage, resolved }

def Moved (slips : Prop) : Entry → Entry → Prop := Relation.ReflTransGen (Move slips)

section Entry
variable {slips : Prop} {e e' : Entry}

/-- A child that is not over is not settled, and counts. -/
theorem Proper.alive (proper : Proper e) (alive : e.status.terminal = false) : e.settled = false ∧ e.counted = true := by
  have open_ : e.settled = false := proper.settled.trans alive
  exact ⟨open_,by rw [proper.counted,open_]; rfl⟩

theorem Proper.atStage (proper : Proper e) {stage : Stage} (at_ : e.stage = stage) : AtStage e stage := at_ ▸ proper.stage

theorem Proper.unresolved (proper : Proper e) (open_ : e.settled = false) : e.resolved = [] := by
  have stage := proper.stage
  have alive : e.status.terminal = false := proper.settled.symm.trans open_
  cases at_ : e.stage <;> simp only [at_,AtStage] at stage
  case waiting => exact stage.2.2
  case racing => exact stage.2
  case verifying => exact stage.2
  all_goals simp [alive] at stage

theorem Proper.waiting (proper : Proper e) (queued : e.status = .queued) :
    e.stage = .waiting ∧ e.starts = [] ∧ e.resolved = [] := by
  have stage := proper.stage
  cases at_ : e.stage <;> simp only [at_,queued,AtStage] at stage
  case waiting => exact ⟨rfl,stage.2⟩
  all_goals cases stage.1

/-- What is resolved is one result, of the status of the child. -/
theorem Proper.resolved (proper : Proper e) : e.resolved.length ≤ 1 ∧ ∀ result ∈ e.resolved, result.status = e.status := by
  have stage := proper.stage
  cases at_ : e.stage <;> simp only [at_,AtStage] at stage
  case waiting => simp [stage.2.2]
  case racing => simp [stage.2]
  case verifying => simp [stage.2]
  case announcing => simp [stage.2.1]
  case archiving => simp [stage.2.1]
  all_goals
    obtain ⟨-,result,resolved,status⟩ := stage
    simp [resolved,status]

theorem Proper.abort (proper : Proper e) (reason : String) : Proper (DelegationManager.abort e reason) := by
  refine ⟨proper.counted,proper.settled,proper.starts,?_⟩
  have stage := proper.stage
  unfold AtStage at stage ⊢
  exact stage

theorem Proper.settledWith (proper : Proper e) (unresolved : e.resolved = []) {partial_ : Partial}
    (over_ : partial_.status.terminal) (announce awaited : Bool) : Proper (settledWith e partial_ announce awaited) := by
  refine ⟨rfl,over_.symm,proper.starts,?_⟩
  cases announce <;> exact ⟨over_,unresolved,rfl⟩

theorem Proper.startedNow (proper : Proper e) (queued : e.status = .queued) : Proper (startedNow e) := by
  obtain ⟨-,starts,resolved⟩ := proper.waiting queued
  have alive : e.settled = false := by rw [proper.settled,queued]; rfl
  refine ⟨proper.counted,alive,.inr ?_,rfl,resolved⟩
  simp [Delegation.startedNow,starts,queued]

theorem Moved.refl (e : Entry) : Moved slips e e := Relation.ReflTransGen.refl

theorem Moved.trans {e'' : Entry} (first : Moved slips e e') (second : Moved slips e' e'') : Moved slips e e'' :=
  Relation.ReflTransGen.trans first second

theorem Moved.keeps {P : Entry → Prop} (step : ∀ e e', Move slips e e' → P e → P e') (moved : Moved slips e e')
    (holds : P e) : P e' := by
  induction moved with
  | refl => exact holds
  | tail _ move ih => exact step _ _ move ih

theorem Moved.overtaken (moved : Moved slips e e') (overtaken : e.overtaken = true) : e'.overtaken = true := by
  refine moved.keeps (P := fun e => e.overtaken = true) (fun e e' move overtaken => ?_) overtaken
  cases move with
  | abort reason => simp [DelegationManager.abort,overtaken]
  | start => exact overtaken
  | settle => exact overtaken
  | pass => exact overtaken

/-- What is over stays as it is. -/
theorem Moved.final (moved : Moved slips e e') (settled : e.settled = e.status.terminal) (over_ : e.status.terminal) :
    e'.status = e.status := by
  refine (moved.keeps (P := fun other => other.settled = true ∧ other.status = e.status) (fun f f' move same => ?_)
    ⟨settled.trans over_,rfl⟩).2
  cases move with
  | abort reason => exact same
  | start queued =>
    rw [← same.2,queued] at over_
    cases over_
  | settle awaited open_ =>
    rw [same.1] at open_
    cases open_
  | pass => exact same

/-- Until a child is settled, it is overtaken when its signal is aborted. -/
def Marked (e : Entry) : Prop := e.settled = false → e.overtaken = e.aborted.isSome

theorem Fresh.marked (fresh : Fresh e) : Marked e := by
  intro _
  rw [fresh.overtaken,fresh.aborted]
  rfl

theorem Move.marked (move : Move slips e e') (marked : Marked e) : Marked e' := by
  cases move with
  | abort reason =>
    intro open_
    have open' : e.settled = false := open_
    simp [DelegationManager.abort,open']
  | start => exact marked
  | settle => exact nofun
  | pass => exact marked

/-- Without a slip, a child that is aborted before it is settled does not complete. -/
structure Honest (e : Entry) : Prop where
  marked : Marked e
  quiet : e.settled = false → e.announcedTo = false ∧ e.status ≠ .completed
  kept : e.overtaken = true → e.status ≠ .completed ∧ e.announcedTo = false

theorem Fresh.honest (fresh : Fresh e) : Honest e := by
  refine ⟨fresh.marked,fun _ => ⟨fresh.announcedTo,?_⟩,fun overtaken => ?_⟩
  · simp [fresh.status]
  · simp [fresh.overtaken] at overtaken

theorem Move.honest (move : Move False e e') (honest : Honest e) : Honest e' := by
  have marked := move.marked honest.marked
  cases move with
  | abort reason =>
    refine ⟨marked,honest.quiet,fun overtaken => ?_⟩
    cases open_ : e.settled with
    | false => exact (honest.quiet open_).symm
    | true => exact honest.kept (by simpa [DelegationManager.abort,open_] using overtaken)
  | start queued =>
    refine ⟨marked,fun open_ => ⟨(honest.quiet open_).1,?_⟩,fun overtaken => ⟨?_,(honest.kept overtaken).2⟩⟩
    · simp [startedNow]
    · simp [startedNow]
  | @settle partial_ announce awaited open_ over_ allowed =>
    refine ⟨marked,nofun,fun overtaken => ?_⟩
    have aborted : e.aborted.isSome := (honest.marked open_).symm.trans overtaken
    constructor
    · intro completed
      rcases allowed (.inr completed) with none_ | slip
      · simp [none_] at aborted
      · exact slip
    · cases announce with
      | false => rfl
      | true =>
        rcases allowed (.inl rfl) with none_ | slip
        · simp [none_] at aborted
        · exact slip.elim
  | pass => exact ⟨marked,honest.quiet,honest.kept⟩

end Entry

/-- Every child of `t` was in `s`, or is spawned since, and has moved on. -/
structure Later (slips : Prop) (s t : DelegationManager) : Prop where
  kept : ∀ e ∈ s.entries.rows, ∃ e' ∈ t.entries.rows, e'.number = e.number ∧ Moved slips e e'
  came : ∀ e' ∈ t.entries.rows, ∃ e, (e ∈ s.entries.rows ∨ Fresh e) ∧ Moved slips e e'

section Later
variable {slips : Prop} {s t u : DelegationManager} {e e' : Entry}

theorem Later.same (entries : t.entries = s.entries) : Later slips s t :=
  ⟨fun e inside => ⟨e,entries ▸ inside,rfl,.refl e⟩,fun e inside => ⟨e,.inl (entries ▸ inside),.refl e⟩⟩

theorem Later.refl (s : DelegationManager) : Later slips s s := .same rfl

theorem Later.trans (first : Later slips s t) (second : Later slips t u) : Later slips s u := by
  constructor
  · intro e inside
    obtain ⟨e',inside',number,moved⟩ := first.kept e inside
    obtain ⟨e'',inside'',number',moved'⟩ := second.kept e' inside'
    exact ⟨e'',inside'',number'.trans number,moved.trans moved'⟩
  · intro e'' inside
    obtain ⟨e',inside' | fresh,moved'⟩ := second.came e'' inside
    · obtain ⟨e,origin,moved⟩ := first.came e' inside'
      exact ⟨e,origin,moved.trans moved'⟩
    · exact ⟨e',.inr fresh,moved'⟩

theorem Later.put (e' : Entry) (found : s.entries.find? e'.number = some e) (entries : t.entries = s.entries.put e')
    (move : Move slips e e') : Later slips s t := by
  have inside' : e' ∈ t.entries.rows := entries ▸ (Table.mem_put_iff found).mpr (.inl rfl)
  constructor
  · intro other inside
    by_cases same : other.number = e'.number
    · obtain rfl : e = other := Option.some.inj (found.symm.trans (same ▸ Table.find?_of_mem inside))
      exact ⟨e',inside',same.symm,.single move⟩
    · exact ⟨other,entries ▸ (Table.mem_put_iff found).mpr (.inr ⟨inside,same⟩),rfl,.refl other⟩
  · intro other inside
    rw [entries] at inside
    rcases (Table.mem_put_iff found).mp inside with rfl | ⟨there,-⟩
    · exact ⟨e,.inl (Table.mem_of_find? found),.single move⟩
    · exact ⟨other,.inl there,.refl other⟩

/-- A condition that every spawn meets and no move breaks holds of all children. -/
theorem Later.all {P : Entry → Prop} (later : Later slips s t) (fresh : ∀ e, Fresh e → P e)
    (step : ∀ e e', Move slips e e' → P e → P e') (all : ∀ e ∈ s.entries.rows, P e) : ∀ e ∈ t.entries.rows, P e := by
  intro e' inside
  obtain ⟨e,there | new,moved⟩ := later.came e' inside
  · exact moved.keeps step (all e there)
  · exact moved.keeps step (fresh e new)

end Later

end RatifyOs.Autonomy.Delegation
