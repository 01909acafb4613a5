import RatifyOs.Autonomy.Subtree

/-! Children that are aborted before they are settled, by a cancellation or by their deadline. -/
namespace RatifyOs.Autonomy.Delegation
open Data Data.Result

/-- A child that is aborted before it is settled does not complete, and is not announced. -/
def Stopped (e : Entry) : Prop :=
  e.overtaken = true →
    e.status ≠ .completed ∧ (∀ result ∈ e.resolved, result.status ≠ .completed) ∧ e.announcedTo = false

instance (e : Entry) : Decidable (Stopped e) := inferInstanceAs (Decidable (_ → _ ∧ _ ∧ _))

instance InTime.decidable (s : DelegationManager) : ∀ event, Decidable (InTime s event)
  | .verified child (.ok true) =>
    decidable_of_iff (∀ e ∈ s.entries.find? child, (match e.stage with | .verifying _ => true | _ => false) = true → e.aborted = none) (by
      constructor
      · intro all e safe found verifying
        exact all e found (by rw [verifying])
      · intro all e found at_
        cases verifying : e.stage with
        | verifying safe => exact all e safe found verifying
        | _ => simp [verifying] at at_)
  | .verified _ (.ok false) | .verified _ (.error _) | .spawn _ | .cancel _ _ | .cancelParent _ _ | .drains | .deadline _
  | .raced _ _ | .announced _ _ | .archived _ _ | .returned _ => .isTrue trivial

section Slip
variable {options : DelegationOptions} {s : DelegationManager}

/-- A verifier that accepts too late completes a child that is aborted. -/
theorem Rested.slip (rested : Rested options s) (marked : ∀ e ∈ s.entries.rows, Marked e) {event : Event}
    (late : ¬InTime s event) : ∃ e ∈ (s.step options event).entries.rows, Proper e ∧ e.overtaken = true ∧ e.status = .completed := by
  unfold InTime at late
  split at late
  swap
  · exact absurd trivial late
  rename_i child
  simp only [not_forall] at late
  obtain ⟨e,safe,found,verifying,aborted⟩ := late
  obtain rfl := Table.key_of_find? found
  have proper := rested.balanced.proper e (Table.mem_of_find? found)
  obtain ⟨running,unresolved⟩ := proper.atStage verifying
  obtain ⟨open_,counted⟩ := proper.alive (by rw [running]; rfl)
  have step : s.step options (.verified e.number (.ok true)) = s.finish e { status := .completed, output := some safe } true true := by
    simp only [DelegationManager.step,found,verifying,DelegationManager.verified]
  rw [step,finish_eq open_ counted]
  refine ⟨settledWith e { status := .completed, output := some safe } true true,?_,proper.settledWith unresolved rfl _ _,?_,rfl⟩
  · exact (Table.mem_put_iff (t := s.entries) (r := settledWith e _ true true) found).mpr (.inl rfl)
  · exact (marked e (Table.mem_of_find? found) open_).trans (Option.isSome_iff_ne_none.mpr aborted)

theorem Rested.in_time (rested : Rested options s) (marked : ∀ e ∈ s.entries.rows, Marked e) {events : List Event}
    (stopped : ∀ e ∈ (Run.run (DelegationManager.step options) s events).entries.rows, Stopped e) :
    Run.Meets (DelegationManager.step options) InTime s events := by
  induction events generalizing s with
  | nil => trivial
  | cons event events ih =>
    obtain ⟨stepped,later⟩ := rested.anyStep event
    refine ⟨?_,ih stepped (later.all (fun _ fresh => fresh.marked) (fun _ _ move => move.marked) marked) stopped⟩
    by_contra late
    obtain ⟨e,inside,proper,overtaken,completed⟩ := rested.slip marked late
    obtain ⟨e',inside',-,moved⟩ := (stepped.anyRun events).2.kept e inside
    have same := moved.final proper.settled (by rw [completed]; rfl)
    exact (stopped e' inside' (moved.overtaken overtaken)).1 (same.trans completed)

end Slip

/-- In any run: no child that is aborted before it is settled completes or is announced,
exactly when every verifier that accepts a result does so before the child is aborted. -/
theorem stopped_iff (options : DelegationOptions) (events : List Event) :
    (∀ e ∈ (Run.run (DelegationManager.step options) .new events).entries.rows, Stopped e) ↔
      Run.Meets (DelegationManager.step options) InTime .new events := by
  have new := Rested.new options
  have none_ {P : Entry → Prop} : ∀ e ∈ DelegationManager.new.entries.rows, P e := fun e inside => absurd inside List.not_mem_nil
  constructor
  · exact new.in_time none_
  · intro meets e inside overtaken
    obtain ⟨rested,later⟩ := new.run (meets.mono fun _ _ inTime => Or.inl inTime)
    have honest := later.all (fun _ fresh => fresh.honest) (fun _ _ move => move.honest) none_ e inside
    obtain ⟨incomplete,unannounced⟩ := honest.kept overtaken
    refine ⟨incomplete,fun result resolved => ?_,unannounced⟩
    rw [(rested.balanced.proper e inside).resolved.2 result resolved]
    exact incomplete

namespace Sample

/-- The deadline passes while the verifier still works. -/
def overdue : List Event :=
  [.spawn (request "root"),.drains,.raced 1 (.ok (some answer)),.deadline 1,.verified 1 (.ok true)]

theorem overdue_completes : ¬∀ (options : DelegationOptions) (events : List Event),
    ∀ e ∈ (Run.run (DelegationManager.step options) .new events).entries.rows, Stopped e := by
  intro all
  exact absurd (all { options with verifies := true } overdue) (by decide +kernel)

end Sample

end RatifyOs.Autonomy.Delegation
