import RatifyOs.Data.Run
import RatifyOs.Execution.Oversubscription

/-! What the booleans of `ReservationLedger` say. An adapter joins them with `||`, so that a
wrong one changes what a caller does next. -/
namespace RatifyOs.Execution
open Data

/-- The methods that write, and `entries` for every other method that lets reservations expire. -/
inductive LedgerMethod where
  | reserve (e : LedgerEntry)
  | reserveWithin (e : LedgerEntry) (perAsset : ℤ) (aggregate : Option Aggregate)
  | release (id : String)
  | commit (id : String) (now : ℤ)
  | entries (now : ℤ)

namespace ReservationLedger

/-- The answer, where it is a boolean, and the ledger after the call. A time that no
statement takes as a parameter makes the call throw before it does anything. -/
def call (l : ReservationLedger) : LedgerMethod → Option Bool × ReservationLedger
  | .reserve e => ((l.reserve e).1,(l.reserve e).2)
  | .reserveWithin e perAsset aggregate => ((l.reserveWithin e perAsset aggregate).1,(l.reserveWithin e perAsset aggregate).2)
  | .release id => ((l.release id).1,(l.release id).2)
  | .commit id now => if bindable now then ((l.commit id now).1,(l.commit id now).2) else (none,l)
  | .entries now => if bindable now then (none,l.expire now) else (none,l)

def Reserved (l : ReservationLedger) (id : String) : Prop := ∃ r ∈ l.rows.find? id, r.state = .reserved

instance (l : ReservationLedger) (id : String) : Decidable (l.Reserved id) := by
  unfold Reserved
  infer_instance

/-- The answer to a release is whether it removed a reserved row, and the answer to a commit
is whether the id is committed afterwards. -/
def Answers (l : ReservationLedger) (m : LedgerMethod) : Prop :=
  ∀ answer, (l.call m).1 = some answer → match m with
    | .release id => answer = true ↔ l.Reserved id ∧ (l.call m).2.has id = false
    | .commit id _ => answer = true ↔ (l.call m).2.Committed id
    | _ => True

/-- The call releases no id that is reserved. -/
def ReleasesNone (l : ReservationLedger) : LedgerMethod → Prop
  | .release id => ¬l.Reserved id
  | _ => True

theorem has_release {l : ReservationLedger} {id : String} (reserved : l.Reserved id) :
    (l.release id).2.has id = false := by
  obtain ⟨r,found,state⟩ := reserved
  have named : r.id = id := Table.key_of_find? found
  rw [has,find?_release,show l.rows.find? id = some r from found]
  simp [Option.filter,named,state]

theorem commit_answers (l : ReservationLedger) (id : String) (now : ℤ) :
    (l.commit id now).1 = true ↔ (l.commit id now).2.Committed id := by
  cases there : l.has id with
  | true =>
    obtain ⟨r,found⟩ := Option.isSome_iff_exists.mp there
    exact iff_of_true (by simp [commit,found]) (committed_commit there now)
  | false =>
    have absent : l.rows.find? id = none := Option.isSome_eq_false_iff.mp there |> Option.isNone_iff_eq_none.mp
    refine iff_of_false (by simp [commit,absent]) ?_
    rintro ⟨r,found,_⟩
    simp [commit,absent] at found

theorem answers_iff (l : ReservationLedger) (m : LedgerMethod) : l.Answers m ↔ l.ReleasesNone m := by
  cases m with
  | release id =>
    constructor
    · intro answers reserved
      cases (answers false rfl).mpr ⟨reserved,has_release reserved⟩
    · intro none_ answer same
      cases same
      exact iff_of_false Bool.false_ne_true fun released => none_ released.1
  | commit id now =>
    refine iff_of_true (fun answer same => ?_) trivial
    by_cases bound : bindable now = true
    · simp only [call,bound,if_true,Option.some.injEq] at same ⊢
      rw [← same]
      exact l.commit_answers id now
    · simp [call,bound] at same
  | reserve e => exact iff_of_true (fun _ _ => trivial) trivial
  | reserveWithin e perAsset aggregate => exact iff_of_true (fun _ _ => trivial) trivial
  | entries now => exact iff_of_true (fun _ _ => trivial) trivial

end ReservationLedger

/-- Ledgers of several connections share the rows of one database. -/
def methodStep (rows : Table LedgerRow.id) (made : Connection × LedgerMethod) : Table LedgerRow.id :=
  ((made.1.on rows).call made.2).2.rows

open ReservationLedger in
/-- The answers along a run are faithful exactly when the run releases nothing. -/
theorem ledger_answers_iff (rows : Table LedgerRow.id) (calls : List (Connection × LedgerMethod)) :
    Run.Meets methodStep (fun rows made => (made.1.on rows).Answers made.2) rows calls ↔
      Run.Meets methodStep (fun rows made => (made.1.on rows).ReleasesNone made.2) rows calls := by
  constructor
  · exact Run.Meets.mono fun rows made => ((made.1.on rows).answers_iff made.2).mp
  · exact Run.Meets.mono fun rows made => ((made.1.on rows).answers_iff made.2).mpr

open ReservationLedger in
/-- A reservation is made and released. -/
theorem release_unfaithful : ¬Run.Meets methodStep (fun rows made => (made.1.on rows).Answers made.2) .empty
    [(⟨30,none⟩,.reserve ⟨"id",0,"asset","strategy",1⟩),(⟨30,none⟩,.release "id")] := by
  intro all
  exact (answers_iff _ _).mp all.2.1 (by decide)

end RatifyOs.Execution
