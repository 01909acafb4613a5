import RatifyOs.Autonomy.Subtree

/-! What a child may do, beside what its parent may: a manager takes the word of the caller
for the parent's depth and capabilities. -/
namespace RatifyOs.Autonomy.Delegation
open Data Data.Result Run

/-- `authorizeDispatch`; the enforcer is given the capability and the two session ids. -/
def DelegationManager.authorizeDispatch (options : DelegationOptions) (enforcer : Option (String → String → String → Bool))
    (s : DelegationManager) (sessionId capability : String) : Bool :=
  match s.entries.rows.find? fun e => e.id = sessionId with
  | some e =>
    (e.request.requestedCapabilities.contains capability && options.allowed.contains capability) &&
      (enforcer.map fun authorize => authorize capability sessionId e.request.parentSessionId).getD true
  | none => false

/-- A child that was spawned under a session of the manager has no capability that its parent
lacks, and is one level below it. -/
structure Shrunk (options : DelegationOptions) (s : DelegationManager) : Prop where
  bounded : ∀ e ∈ s.entries.rows, e.depth ≤ .finite options.limits.maxDepth
  within : ∀ parent ∈ s.entries.rows, ∀ child ∈ s.entries.rows, parent.number < child.number →
    child.request.parentSessionId = parent.id →
      child.request.requestedCapabilities ⊆ parent.request.requestedCapabilities ∧ child.depth = parent.depth + 1

/-- A dispatch is authorized for a running child that holds the capability. -/
def DispatchSound (options : DelegationOptions) (enforcer : Option (String → String → String → Bool))
    (s : DelegationManager) : Prop :=
  ∀ sessionId capability, s.authorizeDispatch options enforcer sessionId capability →
    ∃ e ∈ s.entries.rows, e.id = sessionId ∧ e.status = .running ∧ capability ∈ e.request.requestedCapabilities

/-- The caller passes a depth that is a number and, where the parent is a child itself, the
parent's depth and, of the capabilities it asks for, none that the parent lacks. -/
structure Truthful (options : DelegationOptions) (s : DelegationManager) (request : SpawnRequest) : Prop where
  number : request.depth ≠ some .nan
  depth : ∀ parent ∈ s.entries.rows, request.parentSessionId = parent.id →
    request.depth.getD 0 + 1 = parent.depth + 1
  capabilities : ∀ parent ∈ s.entries.rows, request.parentSessionId = parent.id →
    ∀ c ∈ request.requestedCapabilities, c ∈ request.parentCapabilities → c ∈ options.allowed →
      c ∈ parent.request.requestedCapabilities

/-- A spawn that is not refused is truthful. -/
def Attenuating (options : DelegationOptions) (s : DelegationManager) : Event → Prop
  | .spawn request => ∀ t, s.spawn options request = .ok t → Truthful options s request
  | _ => True

/-- The enforcer refuses every child that does not run. -/
def Enforced (options : DelegationOptions) (enforcer : Option (String → String → String → Bool))
    (s : DelegationManager) : Prop :=
  ∀ e ∈ s.entries.rows, e.status ≠ .running → ∀ c ∈ e.request.requestedCapabilities, c ∈ options.allowed →
    ∃ authorize ∈ enforcer, authorize c e.id e.request.parentSessionId = false

section Roll
variable {options : DelegationOptions} {s : DelegationManager}

/-- The children, by their numbers. -/
def DelegationManager.roll (s : DelegationManager) : List ℕ := s.entries.rows.map Entry.number

@[simp] theorem roll_put (e : Entry) : (s.put e).roll = s.roll := by
  unfold DelegationManager.put DelegationManager.roll Table.put
  dsimp only
  rw [List.map_map]
  refine List.map_congr_left fun old _ => ?_
  by_cases same : old.number = e.number <;> simp [same]

@[simp] theorem roll_finish (e : Entry) (partial_ : Partial) (announce awaited : Bool) :
    (s.finish e partial_ announce awaited).roll = s.roll := by
  unfold DelegationManager.finish
  split_ifs
  · exact roll_put _
  · rfl
  all_goals exact roll_put _

@[simp] theorem roll_cancel (e : Entry) (reason : String) : (s.cancel e reason).roll = s.roll := by
  rw [cancel_eq]
  split_ifs
  · rfl
  · exact roll_finish _ _ _ _
  · exact roll_put _

theorem roll_visitChild {reason : String} {below : DelegationManager → String → DelegationManager}
    (kept : ∀ s parent, (below s parent).roll = s.roll) (parent : String) (s : DelegationManager) (number : ℕ) :
    (DelegationManager.visitChild reason below parent s number).roll = s.roll := by
  unfold DelegationManager.visitChild
  split
  · split_ifs
    · dsimp only
      split
      · exact (roll_cancel _ _).trans (kept _ _)
      · exact kept _ _
    · rfl
  · rfl

theorem roll_visit (reason : String) (deeper : ℕ) (s : DelegationManager) (parent : String) :
    (DelegationManager.visit reason deeper s parent).roll = s.roll := by
  induction deeper generalizing s parent with
  | zero => rfl
  | succ deeper ih =>
    have walk (numbers : List ℕ) (s : DelegationManager) :
        (numbers.foldl (DelegationManager.visitChild reason (DelegationManager.visit reason deeper) parent) s).roll =
          s.roll := by
      induction numbers generalizing s with
      | nil => rfl
      | cons number numbers next => exact (next _).trans (roll_visitChild ih parent s number)
    exact walk _ s

@[simp] theorem roll_caught (e : Entry) (error : String) : (s.caught e error).roll = s.roll := by
  obtain ⟨partial_,-,-,caught⟩ := caught_eq (s := s) (e := e) error
  rw [caught,roll_finish]

@[simp] theorem roll_run (e : Entry) : (s.run options e).roll = s.roll := by
  rw [run_eq]
  split
  · exact roll_put _
  · exact roll_caught _ _

theorem roll_drainQueue (queue : List ℕ) (s : DelegationManager) : (s.drainQueue options queue).roll = s.roll := by
  induction queue generalizing s with
  | nil => rfl
  | cons number rest ih =>
    unfold DelegationManager.drainQueue
    split_ifs
    · split
      · split_ifs
        · exact (ih _).trans (roll_run _)
        · exact ih s
      · exact ih s
    · rfl

@[simp] theorem roll_raced (e : Entry) (outcome : Except String (Option ChildRuntimeResult)) :
    (s.raced options e outcome).roll = s.roll := by
  unfold DelegationManager.raced
  split
  · exact roll_caught _ _
  · exact roll_caught _ _
  · exact roll_caught _ _
  · split
    · exact roll_caught _ _
    · exact roll_finish _ _ _ _
    · split_ifs
      · exact roll_caught _ _
      · exact roll_put _
      · exact roll_finish _ _ _ _

@[simp] theorem roll_verified (e : Entry) (safe : ChildRuntimeResult) (outcome : Except String Bool) :
    (s.verified e safe outcome).roll = s.roll := by
  unfold DelegationManager.verified
  split <;> exact roll_finish _ _ _ _

@[simp] theorem roll_announced (e : Entry) (f : Finishing) (outcome : Except String Unit) :
    (s.announced e f outcome).roll = s.roll := by
  unfold DelegationManager.announced
  split <;> exact roll_put _

/-- Only a spawn adds a child. -/
theorem roll_step (event : Event) (other : ∀ request, event ≠ .spawn request) :
    (s.step options event).roll = s.roll := by
  cases event <;> simp only [DelegationManager.step]
  case spawn request => exact absurd rfl (other request)
  case cancelParent parent reason => exact roll_visit reason _ s parent
  case drains =>
    split_ifs
    · rfl
    · exact roll_drainQueue _ _
  case deadline child =>
    split
    · split_ifs
      · exact roll_put _
      · rfl
    · rfl
  case cancel child reason =>
    split
    · exact roll_cancel _ _
    · rfl
  case returned child =>
    split
    · split
      · exact (roll_drainQueue _ _).trans (roll_put _)
      · rfl
    · rfl
  all_goals
    split
    · split
      · first | exact roll_raced _ _ | exact roll_verified _ _ _ | exact roll_announced _ _ _ | exact roll_put _
      · rfl
    · rfl

theorem Move.kept {slips : Prop} {e e' : Entry} (move : Move slips e e') :
    e'.number = e.number ∧ e'.request = e.request ∧ e'.depth = e.depth := by
  cases move <;> exact ⟨rfl,rfl,rfl⟩

theorem Moved.kept {slips : Prop} {e e' : Entry} (moved : Moved slips e e') :
    e'.number = e.number ∧ e'.request = e.request ∧ e'.depth = e.depth := by
  induction moved with
  | refl => exact ⟨rfl,rfl,rfl⟩
  | tail _ move ih =>
    obtain ⟨number,request,depth⟩ := move.kept
    exact ⟨number.trans ih.1,request.trans ih.2.1,depth.trans ih.2.2⟩

/-- Where no child is added, the same children are there, with the same authority. -/
structure Unmoved (s t : DelegationManager) : Prop where
  kept : ∀ e ∈ s.entries.rows, ∃ e' ∈ t.entries.rows, e'.number = e.number ∧ e'.request = e.request ∧ e'.depth = e.depth
  came : ∀ e' ∈ t.entries.rows, ∃ e ∈ s.entries.rows, e'.number = e.number ∧ e'.request = e.request ∧ e'.depth = e.depth

theorem Later.unmoved {slips : Prop} {t : DelegationManager} (later : Later slips s t) (roll : t.roll = s.roll) :
    Unmoved s t := by
  have kept : ∀ e ∈ s.entries.rows, ∃ e' ∈ t.entries.rows,
      e'.number = e.number ∧ e'.request = e.request ∧ e'.depth = e.depth := by
    intro e inside
    obtain ⟨e',inside',-,moved⟩ := later.kept e inside
    exact ⟨e',inside',moved.kept⟩
  refine ⟨kept,fun e' inside' => ?_⟩
  have listed : e'.number ∈ s.roll := roll ▸ List.mem_map_of_mem inside'
  obtain ⟨e,inside,number⟩ := List.mem_map.mp listed
  obtain ⟨other,there,same⟩ := kept e inside
  obtain rfl := List.inj_on_of_nodup_map t.entries.distinct there inside' (same.1.trans number)
  exact ⟨e,inside,same⟩

theorem Unmoved.shrunk {t : DelegationManager} (unmoved : Unmoved s t) : Shrunk options t ↔ Shrunk options s := by
  have id {e e' : Entry} (same : e'.number = e.number ∧ e'.request = e.request ∧ e'.depth = e.depth) : e'.id = e.id := by
    rw [Entry.id,Entry.id,same.1,same.2.1]
  constructor
  · intro shrunk
    refine ⟨fun e inside => ?_,fun parent inside child inside' earlier under => ?_⟩
    · obtain ⟨e',there,same⟩ := unmoved.kept e inside
      exact same.2.2 ▸ shrunk.bounded e' there
    · obtain ⟨parent',there,same⟩ := unmoved.kept parent inside
      obtain ⟨child',there',same'⟩ := unmoved.kept child inside'
      have within := shrunk.within parent' there child' there' (by omega) (by rw [same'.2.1,id same,under])
      rwa [same.2.1,same'.2.1,same.2.2,same'.2.2] at within
  · intro shrunk
    refine ⟨fun e inside => ?_,fun parent inside child inside' earlier under => ?_⟩
    · obtain ⟨e',there,same⟩ := unmoved.came e inside
      exact same.2.2 ▸ shrunk.bounded e' there
    · obtain ⟨parent',there,same⟩ := unmoved.came parent inside
      obtain ⟨child',there',same'⟩ := unmoved.came child inside'
      have within := shrunk.within parent' there child' there' (by omega) (by rw [← same'.2.1,← id same,under])
      rwa [← same.2.1,← same'.2.1,← same.2.2,← same'.2.2] at within

end Roll

section Spawn
variable {options : DelegationOptions} {s t : DelegationManager} {request : SpawnRequest}

/-- What a spawned child may do: what it asks for, as far as the caller says that its parent
may, and as far as the manager allows it at all. -/
def granted (options : DelegationOptions) (request : SpawnRequest) : List String :=
  request.requestedCapabilities.filter fun c => c ∈ request.parentCapabilities ∧ c ∈ options.allowed

structure Grants (options : DelegationOptions) (s t : DelegationManager) (request : SpawnRequest) (e : Entry) : Prop where
  rows : t.entries.rows = s.entries.rows ++ [e]
  later : ∀ old ∈ s.entries.rows, old.number < e.number
  parent : e.request.parentSessionId = request.parentSessionId
  capabilities : e.request.requestedCapabilities = granted options request
  depth : e.depth = request.depth.getD 0 + 1
  admitted : ¬e.depth > .finite options.limits.maxDepth

theorem spawn_grants {queue : List ℕ} (balanced : Balanced options s queue) (spawned : s.spawn options request = .ok t) :
    ∃ e, Grants options s t request e := by
  simp only [DelegationManager.spawn,bind_eq_ok,reject_eq_ok,pure_eq_ok] at spawned
  obtain ⟨-,shallow,-,-,-,-,-,-,-,-,rfl⟩ := spawned
  refine ⟨_,balanced.spawned_rows rfl,?_,rfl,rfl,rfl,shallow⟩
  exact fun old inside => Nat.lt_succ_of_le (balanced.fresh old inside)

/-- One more than a number is not above a limit, or at most it. -/
theorem bounded_iff (depth : Option Double) {limit : ℚ} (admitted : ¬depth.getD 0 + 1 > .finite limit) :
    depth.getD 0 + 1 ≤ .finite limit ↔ depth ≠ some .nan := by
  have total (x : Double) (known : x ≠ .nan) (below : ¬x > .finite limit) : x ≤ .finite limit := by
    cases x with
    | finite q => simpa using below
    | infinite negative =>
      cases negative with
      | false => exact absurd rfl below
      | true => rfl
    | nan => exact absurd rfl known
  have sum (x : Double) (known : x ≠ .nan) : x + 1 ≠ .nan := by
    cases x with
    | finite q =>
      change Double.ofRat (q + 1) ≠ .nan
      unfold Double.ofRat
      dsimp only
      split_ifs <;> simp
    | infinite negative => exact known
    | nan => exact absurd rfl known
  constructor
  · rintro le rfl
    cases le
  · intro known
    refine total _ (sum _ ?_) admitted
    cases depth with
    | none => simp [OfNat.ofNat]
    | some x => exact fun same => known (congrArg some same)

/-- A child is below its parent, and all else is as it was. -/
theorem Grants.shrunk {e : Entry} (grants : Grants options s t request e) :
    Shrunk options t ↔ Shrunk options s ∧ Truthful options s request := by
  have last : e ∈ t.entries.rows := by rw [grants.rows]; simp
  have old {other : Entry} (inside : other ∈ s.entries.rows) : other ∈ t.entries.rows := by
    rw [grants.rows]
    exact List.mem_append_left _ inside
  have admitted := grants.admitted
  rw [grants.depth] at admitted
  constructor
  · intro shrunk
    refine ⟨⟨fun other inside => shrunk.bounded other (old inside),fun parent inside child inside' =>
      shrunk.within parent (old inside) child (old inside')⟩,?_,?_,?_⟩
    · have bounded := shrunk.bounded e last
      rw [grants.depth] at bounded
      exact (bounded_iff request.depth admitted).mp bounded
    · intro parent inside under
      have within := shrunk.within parent (old inside) e last (grants.later parent inside) (grants.parent.trans under)
      exact grants.depth.symm.trans within.2
    · intro parent inside under c asked given allowed
      have within := shrunk.within parent (old inside) e last (grants.later parent inside) (grants.parent.trans under)
      refine within.1 ?_
      rw [grants.capabilities]
      exact List.mem_filter.mpr ⟨asked,by simp [given,allowed]⟩
  · intro ⟨shrunk,truthful⟩
    constructor
    · intro other inside
      rcases List.mem_append.mp (grants.rows ▸ inside) with there | here
      · exact shrunk.bounded other there
      · rw [List.mem_singleton.mp here,grants.depth]
        exact (bounded_iff request.depth admitted).mpr truthful.number
    · intro parent inside child inside' earlier under
      rcases List.mem_append.mp (grants.rows ▸ inside) with there | here
      · rcases List.mem_append.mp (grants.rows ▸ inside') with there' | here'
        · exact shrunk.within parent there child there' earlier under
        · rw [List.mem_singleton.mp here'] at under ⊢
          have under := grants.parent.symm.trans under
          refine ⟨fun c held => ?_,grants.depth.trans (truthful.depth parent there under)⟩
          rw [grants.capabilities] at held
          obtain ⟨asked,given⟩ := List.mem_filter.mp held
          simp only [Bool.decide_and,Bool.and_eq_true,decide_eq_true_eq] at given
          exact truthful.capabilities parent there under c asked given.1 given.2
      · rw [List.mem_singleton.mp here] at earlier
        rcases List.mem_append.mp (grants.rows ▸ inside') with there' | here'
        · exact absurd (grants.later child there') (by omega)
        · rw [List.mem_singleton.mp here'] at earlier
          omega

theorem Rested.shrunk_step (rested : Rested options s) (event : Event) :
    Shrunk options (s.step options event) ↔ Shrunk options s ∧ Attenuating options s event := by
  by_cases spawn : ∃ request, event = .spawn request
  · obtain ⟨request,rfl⟩ := spawn
    cases spawned : s.spawn options request with
    | error message => simp [DelegationManager.step,Attenuating,spawned]
    | ok t =>
      obtain ⟨e,grants⟩ := spawn_grants rested.balanced spawned
      simpa [DelegationManager.step,Attenuating,spawned] using grants.shrunk
  · have other : ∀ request, event ≠ .spawn request := fun request same => spawn ⟨request,same⟩
    have later : Later True s (s.step options event) := (rested.step (.inr trivial)).2
    have free : Attenuating options s event := by
      cases event
      case spawn request => exact absurd rfl (other request)
      all_goals trivial
    exact (later.unmoved (roll_step event other)).shrunk.trans (by simp [free])

theorem Rested.shrunk_run (rested : Rested options s) (events : List Event) :
    Shrunk options (Run.run (DelegationManager.step options) s events) ↔
      Shrunk options s ∧ Meets (DelegationManager.step options) (Attenuating options) s events := by
  induction events generalizing s with
  | nil => exact (and_true _).symm.to_iff
  | cons event events ih =>
    have stepped : Rested options (s.step options event) := (rested.step (.inr trivial : _ ∨ True)).1
    exact (ih stepped).trans ((and_congr_left' (rested.shrunk_step event)).trans and_assoc)

end Spawn

section Dispatch
variable {options : DelegationOptions} {s : DelegationManager} {enforcer : Option (String → String → String → Bool)}

/-- A session id finds the child it was given to. -/
theorem find_id {e : Entry} (inside : e ∈ s.entries.rows) : s.entries.rows.find? (fun other => other.id = e.id) = some e := by
  cases found : s.entries.rows.find? fun other => other.id = e.id with
  | none => simpa using List.find?_eq_none.mp found e inside
  | some other =>
    have same : other.id = e.id := by simpa using List.find?_some found
    rw [entry_of_id (List.mem_of_find?_eq_some found) inside same]

theorem authorizeDispatch_iff {sessionId capability : String} :
    s.authorizeDispatch options enforcer sessionId capability ↔
      ∃ e ∈ s.entries.rows, e.id = sessionId ∧ capability ∈ e.request.requestedCapabilities ∧ capability ∈ options.allowed ∧
        ∀ authorize ∈ enforcer, authorize capability e.id e.request.parentSessionId := by
  have answer (e : Entry) : ((enforcer.map fun authorize => authorize capability e.id e.request.parentSessionId).getD true) ↔
      ∀ authorize ∈ enforcer, authorize capability e.id e.request.parentSessionId := by
    cases enforcer <;> simp
  unfold DelegationManager.authorizeDispatch
  constructor
  · intro authorized
    split at authorized
    · rename_i e found
      obtain rfl : e.id = sessionId := by simpa using List.find?_some found
      simp only [Bool.and_eq_true,List.contains_iff_mem] at authorized
      exact ⟨e,List.mem_of_find?_eq_some found,rfl,authorized.1.1,authorized.1.2,(answer e).mp authorized.2⟩
    · cases authorized
  · rintro ⟨e,inside,rfl,held,allowed,accepts⟩
    rw [find_id inside]
    simp only [Bool.and_eq_true,List.contains_iff_mem]
    exact ⟨⟨held,allowed⟩,(answer e).mpr accepts⟩

theorem dispatchSound_iff : DispatchSound options enforcer s ↔ Enforced options enforcer s := by
  constructor
  · intro sound e inside halted c held allowed
    by_contra accepts
    push Not at accepts
    have authorized : s.authorizeDispatch options enforcer e.id c := authorizeDispatch_iff.mpr
      ⟨e,inside,rfl,held,allowed,fun authorize given => by simpa using accepts authorize given⟩
    obtain ⟨other,there,same,running,-⟩ := sound e.id c authorized
    exact halted (entry_of_id there inside same ▸ running)
  · intro enforced sessionId c authorized
    obtain ⟨e,inside,id,held,allowed,accepts⟩ := authorizeDispatch_iff.mp authorized
    refine ⟨e,inside,id,?_,held⟩
    by_contra halted
    obtain ⟨authorize,given,refuses⟩ := enforced e inside halted c held allowed
    simp [accepts authorize given] at refuses

end Dispatch

theorem authority_shrinks_iff (options : DelegationOptions) (enforcer : Option (String → String → String → Bool))
    (events : List Event) :
    let s := Run.run (DelegationManager.step options) .new events
    (Shrunk options s ∧ DispatchSound options enforcer s) ↔
      (Meets (DelegationManager.step options) (Attenuating options) .new events ∧ Enforced options enforcer s) := by
  intro s
  have start : Shrunk options .new := by constructor <;> simp [DelegationManager.new]
  have shrunk := (Rested.new options).shrunk_run events
  exact and_congr (shrunk.trans (and_iff_right start)) dispatchSound_iff

namespace Sample

/-- Two reads are allowed, and the first child holds one of them. -/
private def twoReads : DelegationOptions := { options with allowed := ["market:read","news:read"] }

private def widened : List Event :=
  [.spawn (request "root"),.spawn { request "root:child:1" with
    parentCapabilities := ["market:read","news:read"], requestedCapabilities := ["news:read"] }]

theorem authority_grows : ¬∀ (options : DelegationOptions) (enforcer : Option (String → String → String → Bool))
    (events : List Event), let s := Run.run (DelegationManager.step options) .new events
      Shrunk options s ∧ DispatchSound options enforcer s := by
  intro all
  have shrunk := (all twoReads none widened).1
  have rows : ∃ parent ∈ (Run.run (DelegationManager.step twoReads) .new widened).entries.rows,
      ∃ child ∈ (Run.run (DelegationManager.step twoReads) .new widened).entries.rows, parent.number < child.number ∧
        child.request.parentSessionId = parent.id ∧ "news:read" ∈ child.request.requestedCapabilities ∧
          "news:read" ∉ parent.request.requestedCapabilities := by decide +kernel
  obtain ⟨parent,inside,child,inside',earlier,under,held,lacks⟩ := rows
  exact lacks ((shrunk.within parent inside child inside' earlier under).1 held)

end Sample

end RatifyOs.Autonomy.Delegation
