import RatifyOs.Data.Run
import RatifyOs.Data.Window
import RatifyOs.Execution.Ledger

/-! Reservations under limits. Ledgers that are opened on one database share its rows, and
what they reserve stays within the limits in whatever order they are called. -/
namespace RatifyOs.Execution
open Data

/-- What a ledger is opened with, but for the path of the database. -/
structure Connection where
  ttl : ℤ
  aggregateQuote : Option (String × ℤ)

def Connection.on (c : Connection) (rows : Table LedgerRow.id) : ReservationLedger := ⟨rows,c.ttl,c.aggregateQuote⟩

/-- The limits that every call reserves under. -/
structure Limits where
  perAsset : String → ℤ
  denomination : String
  decimals : ℤ
  max : ℤ

inductive AggregateRequest where
  | cap (max : ℤ)
  | quoted (value : ℤ) (evidence : String)

def Limits.aggregate (limits : Limits) : AggregateRequest → Aggregate
  | .cap max => .cap max
  | .quoted value evidence => .valued limits.max ⟨limits.denomination,limits.decimals,value,evidence⟩

inductive LedgerCall where
  | reserveWithin (c : Connection) (e : LedgerEntry) (aggregate : Option AggregateRequest)
  | release (c : Connection) (id : String)
  | commit (c : Connection) (id : String) (now : ℤ)
  | entries (c : Connection) (now : ℤ)

namespace LedgerCall

/-- The answer, where it is a boolean, and the rows after the call. A time that no statement
takes as a parameter makes the call throw before it does anything. -/
def run (limits : Limits) (rows : Table LedgerRow.id) : LedgerCall → Option Bool × Table LedgerRow.id
  | reserveWithin c e aggregate =>
    let after := (c.on rows).reserveWithin e (limits.perAsset e.asset) (aggregate.map limits.aggregate)
    (some after.1,after.2.rows)
  | release c id =>
    let after := (c.on rows).release id
    (some after.1,after.2.rows)
  | commit c id now =>
    if ReservationLedger.bindable now = false then (none,rows)
    else
      let after := (c.on rows).commit id now
      (some after.1,after.2.rows)
  | entries c now => if ReservationLedger.bindable now = false then (none,rows) else (none,((c.on rows).expire now).rows)

theorem run_reserveWithin (limits : Limits) (rows : Table LedgerRow.id) (c : Connection) (e : LedgerEntry)
    (aggregate : Option AggregateRequest) : (reserveWithin c e aggregate).run limits rows =
      (some ((c.on rows).reserveWithin e (limits.perAsset e.asset) (aggregate.map limits.aggregate)).1,
        ((c.on rows).reserveWithin e (limits.perAsset e.asset) (aggregate.map limits.aggregate)).2.rows) := rfl

theorem run_commit (limits : Limits) (rows : Table LedgerRow.id) (c : Connection) (id : String) (now : ℤ) :
    (commit c id now).run limits rows = if ReservationLedger.bindable now = false then (none,rows)
      else (some ((c.on rows).commit id now).1,((c.on rows).commit id now).2.rows) := rfl

theorem run_entries (limits : Limits) (rows : Table LedgerRow.id) (c : Connection) (now : ℤ) :
    (entries c now).run limits rows = if ReservationLedger.bindable now = false then (none,rows)
      else (none,((c.on rows).expire now).rows) := rfl

/-- The time at which a call deletes what has expired. -/
def purges : LedgerCall → Option ℤ
  | reserveWithin _ e _ => some e.at_
  | entries _ now => some now
  | _ => none

end LedgerCall

def ledgerStep (limits : Limits) (rows : Table LedgerRow.id) (call : LedgerCall) : Table LedgerRow.id :=
  (call.run limits rows).2

def LedgerRow.quoteValue (r : LedgerRow) : ℤ := (r.valuation.map (·.value)).getD 0

/-- The rows of an asset stay within its limit, and so do the values that were quoted; under
a limit below zero there are no such rows at all. -/
structure Limits.Kept (limits : Limits) (rows : Table LedgerRow.id) : Prop where
  positive : ∀ r ∈ rows.rows, 0 < r.amount ∧ 0 ≤ limits.perAsset r.asset
  asset : ∀ asset, 0 ≤ limits.perAsset asset →
    Window.total LedgerRow.amount (·.asset = asset) rows.rows ≤ limits.perAsset asset
  quoted : ∀ r ∈ rows.rows, ∀ v ∈ r.valuation,
    v.denomination = limits.denomination ∧ v.decimals = limits.decimals ∧ 0 < v.value ∧ 0 ≤ limits.max
  worth : 0 ≤ limits.max → Window.total LedgerRow.quoteValue (fun _ => true) rows.rows ≤ limits.max

/-- All rows are quoted in the one denomination and are worth no more than the limit. -/
def Limits.Shared (limits : Limits) (rows : Table LedgerRow.id) : Prop :=
  (∀ r ∈ rows.rows, ∃ v ∈ r.valuation, v.denomination = limits.denomination ∧ v.decimals = limits.decimals) ∧
  (rows.rows.map LedgerRow.quoteValue).sum ≤ limits.max

/-- The call does nothing but perhaps delete what has expired. -/
def Harmless (limits : Limits) (rows : Table LedgerRow.id) (call : LedgerCall) : Prop :=
  ledgerStep limits rows call = rows ∨
  ∃ now ∈ call.purges, ledgerStep limits rows call = ((ReservationLedger.mk rows 0 none).expire now).rows

/-- What a reservation promises, and what no other call takes back. -/
structure Bounded (limits : Limits) (rows : Table LedgerRow.id) (call : LedgerCall) : Prop where
  kept : limits.Kept (ledgerStep limits rows call)
  shared : ∀ c e value evidence, call = .reserveWithin c e (some (.quoted value evidence)) →
    (call.run limits rows).1 = some true → limits.Shared (ledgerStep limits rows call)
  refused : ∀ c e aggregate, call = .reserveWithin c e aggregate →
    (call.run limits rows).1 = some false → Harmless limits rows call

/-- A release names no row that is still reserved. -/
def Spares (rows : Table LedgerRow.id) (call : LedgerCall) : Prop :=
  ∀ c id, call = .release c id → ∀ r ∈ rows.find? id, r.state ≠ .reserved

section
variable {limits : Limits} {rows : Table LedgerRow.id}

private theorem quoteValue_nonneg (kept : limits.Kept rows) : ∀ r ∈ rows.rows, 0 ≤ r.quoteValue := by
  intro r inside
  unfold LedgerRow.quoteValue
  cases valuation : r.valuation with
  | none => exact le_refl _
  | some v => exact (kept.quoted r inside v valuation).2.2.1.le

theorem Limits.Kept.empty (limits : Limits) : limits.Kept .empty where
  positive := nofun
  asset := fun _ room => room
  quoted := nofun
  worth := id

theorem Limits.Kept.keep (kept : limits.Kept rows) (p : LedgerRow → Bool) : limits.Kept (rows.keep p) where
  positive := fun r inside => kept.positive r (List.mem_of_mem_filter inside)
  asset := fun asset room =>
    (Window.total_sublist List.filter_sublist fun r inside _ => (kept.positive r inside).1.le).trans (kept.asset asset room)
  quoted := fun r inside => kept.quoted r (List.mem_of_mem_filter inside)
  worth := fun room =>
    (Window.total_sublist List.filter_sublist fun r inside _ => quoteValue_nonneg kept r inside).trans (kept.worth room)

theorem Limits.Kept.put (kept : limits.Kept rows) {r old : LedgerRow} (found : rows.find? r.id = some old)
    (asset : r.asset = old.asset) (amount : r.amount = old.amount) (valuation : r.valuation = old.valuation) :
    limits.Kept (rows.put r) := by
  have inside := Table.mem_of_find? found
  obtain ⟨before,after,split,split',_⟩ := Table.put_split found
  have same (f : LedgerRow → ℤ) (p : LedgerRow → Bool) (value : f r = f old) (counted : p r = p old) :
      Window.total f p (rows.put r).rows = Window.total f p rows.rows := by
    rw [split,split']
    unfold Window.total
    rw [List.filter_append,List.filter_append,List.filter_cons,List.filter_cons,counted]
    cases p old <;> simp [value]
  constructor
  · intro r' inside'
    rcases Table.mem_put inside' with rfl | ⟨older,_⟩
    · rw [amount,asset]
      exact kept.positive old inside
    · exact kept.positive r' older
  · intro a room
    rw [same _ _ amount (by rw [asset])]
    exact kept.asset a room
  · intro r' inside'
    rcases Table.mem_put inside' with rfl | ⟨older,_⟩
    · rw [valuation]
      exact kept.quoted old inside
    · exact kept.quoted r' older
  · intro room
    rw [same _ _ (by unfold LedgerRow.quoteValue; rw [valuation]) rfl]
    exact kept.worth room

theorem Limits.Kept.insert (kept : limits.Kept rows) {c : Connection} {e : LedgerEntry} {aggregate : Option AggregateRequest}
    {rows' : Table LedgerRow.id} (inserted : rows.insert? ((c.on rows).reserved e (aggregate.map limits.aggregate)) = some rows')
    (positive : 0 < e.amount) (fits : (c.on rows).assetTotal e.asset + e.amount ≤ limits.perAsset e.asset)
    (within : (c.on rows).withinAggregate e (aggregate.map limits.aggregate) = true)
    (valid : (c.on rows).validAggregate (aggregate.map limits.aggregate) = true) : limits.Kept rows' := by
  have appended := (Table.insert?_eq_some_iff.mp inserted).2
  have total : (c.on rows).assetTotal e.asset = Window.total LedgerRow.amount (·.asset = e.asset) rows.rows := rfl
  have spent : 0 ≤ (c.on rows).assetTotal e.asset := by
    refine List.sum_nonneg fun n inside => ?_
    obtain ⟨r,there,rfl⟩ := List.mem_map.mp inside
    exact (kept.positive r (List.mem_of_mem_filter there)).1.le
  have grown (f : LedgerRow → ℤ) (p : LedgerRow → Bool) : Window.total f p rows'.rows = Window.total f p rows.rows +
      if p ((c.on rows).reserved e (aggregate.map limits.aggregate)) then
        f ((c.on rows).reserved e (aggregate.map limits.aggregate)) else 0 := by
    rw [appended]
    unfold Window.total
    rw [List.filter_append,List.map_append,List.sum_append,List.filter_cons]
    split <;> simp
  constructor
  · intro r inside
    rw [appended] at inside
    rcases List.mem_append.mp inside with old | new
    · exact kept.positive r old
    · obtain rfl := List.mem_singleton.mp new
      exact ⟨positive,by change 0 ≤ limits.perAsset e.asset; omega⟩
  · intro asset room
    rw [grown]
    split
    · rename_i here
      obtain rfl : e.asset = asset := of_decide_eq_true here
      rw [← total]
      exact fits
    · rw [add_zero]
      exact kept.asset asset room
  · intro r inside v valued
    rw [appended] at inside
    rcases List.mem_append.mp inside with old | new
    · exact kept.quoted r old v valued
    · obtain rfl := List.mem_singleton.mp new
      match aggregate, valued, valid with
      | some (.quoted value evidence), valued, valid =>
        obtain rfl : _ = v := Option.some.inj valued
        simp only [Option.map_some,Limits.aggregate,ReservationLedger.validAggregate,decide_eq_true_eq] at valid
        exact ⟨rfl,rfl,valid.2.2.2.2.1,valid.2.2.2.1⟩
  · intro room
    rw [grown,if_pos rfl]
    match aggregate, within with
    | some (.quoted value evidence), within =>
      simp only [Option.map_some,Limits.aggregate,ReservationLedger.withinAggregate,decide_eq_true_eq] at within
      have all : Window.total LedgerRow.quoteValue (fun _ => true) rows.rows = (rows.rows.map LedgerRow.quoteValue).sum := by
        simp [Window.total]
      rw [all]
      exact within.2
    | none, _ | some (.cap _), _ => exact (add_zero _).trans_le (kept.worth room)

theorem Limits.Kept.step (kept : limits.Kept rows) (call : LedgerCall) : limits.Kept (ledgerStep limits rows call) := by
  cases call with
  | reserveWithin c e aggregate =>
    have purged : limits.Kept ((c.on rows).expire e.at_).rows := kept.keep _
    rw [ledgerStep,LedgerCall.run_reserveWithin]
    obtain same | same | ⟨rows',same,inserted,positive,fits,within,valid⟩ :=
      (c.on rows).reserveWithin_cases e (limits.perAsset e.asset) (aggregate.map limits.aggregate)
    · rw [same]
      exact kept
    · rw [same]
      exact purged
    · rw [same]
      exact purged.insert (c := c) inserted positive fits within valid
  | release c id => exact kept.keep _
  | commit c id now =>
    rw [ledgerStep,LedgerCall.run_commit]
    split
    · exact kept
    · obtain same | ⟨r,found,_,same⟩ := (c.on rows).commit_cases id now
      · rw [same]
        exact kept
      · obtain rfl : r.id = id := Table.key_of_find? found
        rw [same]
        exact kept.put (r := { r with state := .committed, at_ := now, expiresAt := now }) found rfl rfl rfl
  | entries c now =>
    rw [ledgerStep,LedgerCall.run_entries]
    split
    · exact kept
    · exact kept.keep _

/-- Where a quoted reservation succeeds, every row it found was quoted alike, and so is its own. -/
theorem shared_of_reserved {c : Connection} {e : LedgerEntry} {value : ℤ} {evidence : String}
    (success : (LedgerCall.run limits rows (.reserveWithin c e (some (.quoted value evidence)))).1 = some true) :
    limits.Shared (ledgerStep limits rows (.reserveWithin c e (some (.quoted value evidence)))) := by
  rw [LedgerCall.run_reserveWithin,Option.map_some] at success
  rw [ledgerStep,LedgerCall.run_reserveWithin,Option.map_some]
  obtain same | same | ⟨rows',same,inserted,_,_,within,_⟩ :=
    (c.on rows).reserveWithin_cases e (limits.perAsset e.asset) (some (limits.aggregate (.quoted value evidence)))
  · simp [same] at success
  · simp [same] at success
  · have appended := (Table.insert?_eq_some_iff.mp inserted).2
    simp only [Limits.aggregate,ReservationLedger.withinAggregate,decide_eq_true_eq,List.all_eq_true,Option.any_eq_true] at within
    rw [same]
    refine ⟨fun r inside => ?_,?_⟩
    · rw [appended] at inside
      rcases List.mem_append.mp inside with old | new
      · obtain ⟨v,valued,_,alike⟩ := within.1 r old
        exact ⟨v,valued,alike⟩
      · obtain rfl := List.mem_singleton.mp new
        exact ⟨_,rfl,rfl,rfl⟩
    · rw [appended,List.map_append,List.sum_append,List.map_singleton,List.sum_singleton]
      exact within.2

theorem harmless_of_refused {c : Connection} {e : LedgerEntry} {aggregate : Option AggregateRequest}
    (refused : (LedgerCall.run limits rows (.reserveWithin c e aggregate)).1 = some false) :
    Harmless limits rows (.reserveWithin c e aggregate) := by
  rw [LedgerCall.run_reserveWithin] at refused
  rw [Harmless,ledgerStep,LedgerCall.run_reserveWithin]
  obtain same | same | ⟨rows',same,_⟩ :=
    (c.on rows).reserveWithin_cases e (limits.perAsset e.asset) (aggregate.map limits.aggregate)
  · exact .inl (by rw [same]; rfl)
  · exact .inr ⟨e.at_,rfl,by rw [same]; rfl⟩
  · simp [same] at refused

theorem Limits.Kept.bounded (kept : limits.Kept rows) (call : LedgerCall) : Bounded limits rows call where
  kept := kept.step call
  shared := by
    rintro c e value evidence rfl success
    exact shared_of_reserved success
  refused := by
    rintro c e aggregate rfl refused
    exact harmless_of_refused refused

theorem harmless_iff (call : LedgerCall) :
    ((call.run limits rows).1 = some false → Harmless limits rows call) ↔ Spares rows call := by
  cases call with
  | reserveWithin c e aggregate => exact ⟨fun _ => nofun,fun _ => harmless_of_refused⟩
  | entries c now =>
    refine ⟨fun _ => nofun,fun _ answer => ?_⟩
    rw [LedgerCall.run_entries] at answer
    split at answer <;> cases answer
  | commit c id now =>
    refine ⟨fun _ => nofun,fun _ answer => .inl ?_⟩
    rw [LedgerCall.run_commit] at answer
    rw [ledgerStep,LedgerCall.run_commit]
    by_cases bound : ReservationLedger.bindable now = false
    · rw [if_pos bound] at answer
      cases answer
    · rw [if_neg bound] at answer ⊢
      unfold ReservationLedger.commit at answer ⊢
      split at answer
      · cases answer
      · rfl
  | release c id =>
    constructor
    · intro harmless c' id' same r found state
      obtain ⟨rfl,rfl⟩ := LedgerCall.release.inj same
      obtain stays | ⟨now,none_,_⟩ := harmless rfl
      · have gone : (ledgerStep limits rows (.release c id)).find? id = none := by
          refine (ReservationLedger.find?_release (c.on rows) id id).trans ?_
          rw [show (c.on rows).rows.find? id = some r from found]
          exact Option.filter_some_neg (by simp [state,Table.key_of_find? found])
        rw [stays,found] at gone
        cases gone
      · cases none_
    · intro spares _
      refine .inl (Table.ext (List.filter_eq_self.mpr fun r inside => ?_))
      rw [decide_eq_true_eq]
      rintro ⟨rfl,state⟩
      exact spares c r.id rfl r (Table.find?_of_mem inside) state

end

theorem reservations_sound_iff (limits : Limits) (calls : List LedgerCall) :
    Run.Meets (ledgerStep limits) (Bounded limits) .empty calls ∧
    (Run.Meets (ledgerStep limits) (fun rows call => Bounded limits rows call ∧
        ((call.run limits rows).1 = some false → Harmless limits rows call)) .empty calls ↔
      Run.Meets (ledgerStep limits) Spares .empty calls) := by
  have steps : Run.Meets (ledgerStep limits) (fun _ _ => True) .empty calls := Run.Meets.of_forall (fun _ _ => trivial) _
  have bounded := steps.within (I := limits.Kept) (fun _ call _ kept => kept.step call) (fun _ call _ kept => kept.bounded call)
    (.empty limits)
  refine ⟨bounded,fun sound => sound.mono fun _ call both => (harmless_iff call).mp both.2,fun spares => ?_⟩
  exact spares.within (I := limits.Kept) (fun _ call _ kept => kept.step call)
    (fun _ call spare kept => ⟨kept.bounded call,(harmless_iff call).mpr spare⟩) (.empty limits)

namespace Sample

def limits : Limits := ⟨fun _ => 70,"USD",6,100⟩

def released : List LedgerCall := [
  .reserveWithin ⟨3600,none⟩ ⟨"a",1,"A","s",40⟩ (some (.cap 100)),
  .release ⟨3600,none⟩ "a"]

end Sample

open Sample in
theorem release_answers_no : ¬Run.Meets (ledgerStep limits) (fun rows call => Bounded limits rows call ∧
    ((call.run limits rows).1 = some false → Harmless limits rows call)) .empty released := by
  intro sound
  obtain stays | ⟨_,none_,_⟩ := sound.2.1.2 rfl
  · have there : (ledgerStep limits (ledgerStep limits .empty released[0]) released[1]).rows =
      (ledgerStep limits .empty released[0]).rows := congrArg Table.rows stays
    exact absurd there (by decide)
  · cases none_

end RatifyOs.Execution
