import Mathlib.Algebra.Ring.Int.Defs
import RatifyOs.Data.Table
import Mathlib.Data.Nat.Notation
import Mathlib.Data.Int.Notation

/-! `ReservationLedger`: spending that is reserved for a while or committed for good. -/
namespace RatifyOs.Execution
open Data

inductive LedgerState where
  | reserved
  | committed
  deriving DecidableEq

/-- The evidence a reservation carries when it counts toward an aggregate limit. -/
structure Valuation where
  denomination : String
  decimals : ℤ
  value : ℤ
  evidence : String
  deriving DecidableEq

structure LedgerRow where
  id : String
  at_ : ℤ
  asset : String
  strategy : String
  amount : ℤ
  state : LedgerState
  expiresAt : ℤ
  valuation : Option Valuation
  deriving DecidableEq

structure LedgerEntry where
  id : String
  at_ : ℤ
  asset : String
  strategy : String
  amount : ℤ
  deriving DecidableEq

inductive Aggregate where
  | cap (max : ℤ)
  | valued (max : ℤ) (valuation : Valuation)
  deriving DecidableEq

structure ReservationLedger where
  rows : Table LedgerRow.id
  ttl : ℤ
  aggregateQuote : Option (String × ℤ)

namespace ReservationLedger

def empty (ttl : ℤ) : ReservationLedger := ⟨.empty,ttl,none⟩

/-- A reservation past its time is deleted by the next call that looks. -/
def expire (l : ReservationLedger) (now : ℤ) : ReservationLedger :=
  { l with rows := l.rows.keep fun r => ¬(r.state = .reserved ∧ r.expiresAt ≤ now) }

def has (l : ReservationLedger) (id : String) : Bool := (l.rows.find? id).isSome

def assetTotal (l : ReservationLedger) (asset : String) : ℤ :=
  ((l.rows.select (·.asset = asset)).map (·.amount)).sum

/-- The limits of an aggregate that were given, on the ledger after the purge. -/
def withinAggregate (l : ReservationLedger) (e : LedgerEntry) : Option Aggregate → Bool
  | none => true
  | some (.cap max) => l.assetTotal e.asset + e.amount ≤ max
  | some (.valued max v) =>
    (l.rows.rows.all fun r => r.valuation.any fun w =>
      w.evidence ≠ "" ∧ w.denomination = v.denomination ∧ w.decimals = v.decimals) ∧
    ((l.rows.rows.map fun r => (r.valuation.map (·.value)).getD 0).sum + v.value ≤ max)

def validAggregate (l : ReservationLedger) : Option Aggregate → Bool
  | some (.valued max v) =>
    v.denomination ≠ "" ∧ 0 ≤ v.decimals ∧ v.decimals ≤ 30 ∧ 0 ≤ max ∧ 0 < v.value ∧ v.evidence ≠ "" ∧
      l.aggregateQuote.all fun q => v.denomination = q.1 ∧ v.decimals = q.2
  | _ => true

def valuationOf : Option Aggregate → Option Valuation
  | some (.valued _ v) => some v
  | _ => none

/-- What a statement takes as a parameter. -/
def bindable (n : ℤ) : Bool := -9223372036854775808 ≤ n ∧ n ≤ 9223372036854775807

/-- Purge, check and insert in one transaction. An id that is there already throws, as does
a number that no parameter takes, and the rollback keeps what the purge would have deleted. -/
def reserveWithin (l : ReservationLedger) (e : LedgerEntry) (perAsset : ℤ) (aggregate : Option Aggregate) :
    Bool × ReservationLedger :=
  if e.id = "" ∨ e.at_ < 0 ∨ e.amount ≤ 0 ∨ perAsset < 0 ∨ l.validAggregate aggregate = false then (false,l)
  else if bindable e.at_ = false then (false,l)
  else
    let purged := l.expire e.at_
    if purged.assetTotal e.asset + e.amount > perAsset ∨ purged.withinAggregate e aggregate = false then
      (false,purged)
    else
      let bound := bindable e.amount ∧ bindable (e.at_ + l.ttl) ∧ (valuationOf aggregate).all fun v => bindable v.value
      match (purged.rows.insert?
        ⟨e.id,e.at_,e.asset,e.strategy,e.amount,.reserved,e.at_ + l.ttl,valuationOf aggregate⟩).filter fun _ => bound with
      | some rows => (true,{ l with rows })
      | none => (false,l)

/-- Plain insertion; any error is caught and makes the answer no. -/
def reserve (l : ReservationLedger) (e : LedgerEntry) : Bool × ReservationLedger :=
  if e.id = "" ∨ e.at_ < 0 ∨ e.amount ≤ 0 then (false,l)
  else if ¬(bindable e.at_ ∧ bindable e.amount ∧ bindable (e.at_ + l.ttl)) then (false,l)
  else
    match l.rows.insert? ⟨e.id,e.at_,e.asset,e.strategy,e.amount,.reserved,e.at_ + l.ttl,none⟩ with
    | some rows => (true,{ l with rows })
    | none => (false,l)

/-- The entries of the last `w` seconds that satisfy `p`, after the purge. -/
def usage (l : ReservationLedger) (now w : ℤ) (p : LedgerRow → Bool) : ℤ :=
  (((l.expire now).rows.select fun r => r.at_ > now - w ∧ r.at_ ≤ now ∧ p r).map (·.amount)).sum

/-- `changes` is a number and is compared with a bigint, so the answer is always no. -/
def release (l : ReservationLedger) (id : String) : Bool × ReservationLedger :=
  (false,{ l with rows := l.rows.keep fun r => ¬(r.id = id ∧ r.state = .reserved) })

def commit (l : ReservationLedger) (id : String) (now : ℤ) : Bool × ReservationLedger :=
  match l.rows.find? id with
  | some r =>
    (true,if r.state = .reserved then
      { l with rows := l.rows.put { r with state := .committed, at_ := now, expiresAt := now } } else l)
  | none => (false,l)

def Committed (l : ReservationLedger) (id : String) : Prop :=
  ∃ r ∈ l.rows.find? id, r.state = .committed

/-- The reservation is one of the `entries` at this time. -/
def Counts (l : ReservationLedger) (id : String) (now : ℤ) : Prop :=
  ∃ r ∈ l.rows.find? id, r.state = .committed ∨ now < r.expiresAt

instance (l : ReservationLedger) (id : String) : Decidable (l.Committed id) := by
  unfold Committed
  infer_instance

instance (l : ReservationLedger) (id : String) (now : ℤ) : Decidable (l.Counts id now) := by
  unfold Counts
  infer_instance

theorem Committed.counts {l : ReservationLedger} {id : String} (committed : l.Committed id) (now : ℤ) :
    l.Counts id now := by
  obtain ⟨r,found,state⟩ := committed
  exact ⟨r,found,.inl state⟩

theorem counts_iff_entry (l : ReservationLedger) (id : String) (now : ℤ) :
    l.Counts id now ↔ (l.expire now).has id = true := by
  unfold Counts has expire
  rw [Table.find?_keep]
  cases l.rows.find? id with
  | none => simp
  | some r =>
    by_cases committed : r.state = .committed
    · simp [Option.filter,committed]
    · have reserved : r.state = .reserved := by cases state : r.state <;> simp_all
      simp [Option.filter,reserved]

theorem has_of_counts {l : ReservationLedger} {id : String} {now : ℤ} (counts : l.Counts id now) :
    l.has id = true := by
  obtain ⟨r,found,_⟩ := counts
  rw [has,show l.rows.find? id = some r from found]
  rfl

private theorem find?_expire {l : ReservationLedger} {id : String} {now : ℤ} {r : LedgerRow}
    (found : l.rows.find? id = some r) (kept : r.state = .committed ∨ now < r.expiresAt) :
    (l.expire now).rows.find? id = some r := by
  unfold expire
  rw [Table.find?_keep,found,Option.filter_some_pos]
  rcases kept with committed | alive
  · simp [committed]
  · simp only [decide_eq_true_eq,not_and,Int.not_le]
    exact fun _ => alive

/-- The row of a reservation. -/
def reserved (l : ReservationLedger) (e : LedgerEntry) (aggregate : Option Aggregate) : LedgerRow :=
  ⟨e.id,e.at_,e.asset,e.strategy,e.amount,.reserved,e.at_ + l.ttl,valuationOf aggregate⟩

/-- The answer is no and nothing happens but perhaps the purge, or the row is added to what
the purge has left. -/
theorem reserveWithin_cases (l : ReservationLedger) (e : LedgerEntry) (perAsset : ℤ) (aggregate : Option Aggregate) :
    l.reserveWithin e perAsset aggregate = (false,l) ∨
    l.reserveWithin e perAsset aggregate = (false,l.expire e.at_) ∨
    ∃ rows, l.reserveWithin e perAsset aggregate = (true,{ l with rows }) ∧
      (l.expire e.at_).rows.insert? (l.reserved e aggregate) = some rows ∧ 0 < e.amount ∧
      (l.expire e.at_).assetTotal e.asset + e.amount ≤ perAsset ∧ (l.expire e.at_).withinAggregate e aggregate = true ∧
      l.validAggregate aggregate = true := by
  unfold reserveWithin
  split
  · exact .inl rfl
  split
  · exact .inl rfl
  rename_i valid _
  dsimp only
  split
  · exact .inr (.inl rfl)
  rename_i within
  split
  · rename_i rows stored
    simp only [not_or,Int.not_lt,Int.not_le,Bool.not_eq_false] at valid within
    exact .inr (.inr ⟨rows,rfl,(Option.filter_eq_some_iff.mp stored).1,valid.2.2.1,within.1,within.2,valid.2.2.2.2⟩)
  · exact .inl rfl

theorem rows_reserveWithin (l : ReservationLedger) (e : LedgerEntry) (perAsset : ℤ) (aggregate : Option Aggregate)
    {id : String} {r : LedgerRow} (found : l.rows.find? id = some r)
    (kept : r.state = .committed ∨ e.at_ < r.expiresAt) :
    (l.reserveWithin e perAsset aggregate).2.rows.find? id = some r := by
  have purged := find?_expire found kept
  obtain same | same | ⟨rows,same,inserted,_⟩ := l.reserveWithin_cases e perAsset aggregate
  · rw [same]
    exact found
  · rw [same]
    exact purged
  · have absent := (Table.insert?_eq_some_iff.mp inserted).1
    have other : e.id ≠ id := by
      rintro rfl
      rw [show LedgerRow.id (l.reserved e aggregate) = e.id from rfl,purged] at absent
      cases absent
    rw [same,Table.find?_insert? inserted]
    exact (if_neg other).trans purged

/-- A row that is there after a reservation was there before, or is the one reserved. -/
theorem find?_reserveWithin {l : ReservationLedger} {e : LedgerEntry} {perAsset : ℤ} {aggregate : Option Aggregate}
    {id : String} {r : LedgerRow} (found : (l.reserveWithin e perAsset aggregate).2.rows.find? id = some r) :
    l.rows.find? id = some r ∨ (l.reserveWithin e perAsset aggregate).1 = true ∧ e.id = id := by
  have older : ∀ r, (l.expire e.at_).rows.find? id = some r → l.rows.find? id = some r := by
    intro r there
    unfold expire at there
    rw [Table.find?_keep] at there
    exact (Option.filter_eq_some_iff.mp there).1
  obtain same | same | ⟨rows,same,inserted,_⟩ := l.reserveWithin_cases e perAsset aggregate
  · rw [same] at found
    exact .inl found
  · rw [same] at found
    exact .inl (older r found)
  · rw [same] at found ⊢
    rw [Table.find?_insert? inserted] at found
    by_cases here : e.id = id
    · exact .inr ⟨rfl,here⟩
    · exact .inl (older r ((if_neg here).symm.trans found))

theorem find?_release (l : ReservationLedger) (id other : String) :
    (l.release id).2.rows.find? other =
      (l.rows.find? other).filter fun r => ¬(r.id = id ∧ r.state = .reserved) := by
  unfold release
  rw [Table.find?_keep]

theorem commit_cases (l : ReservationLedger) (id : String) (now : ℤ) :
    (l.commit id now).2 = l ∨ ∃ y, l.rows.find? id = some y ∧ y.state = .reserved ∧
      (l.commit id now).2 = { l with rows := l.rows.put { y with state := .committed, at_ := now, expiresAt := now } } := by
  unfold commit
  cases found : l.rows.find? id with
  | none => exact .inl rfl
  | some y =>
    by_cases reserved : y.state = .reserved
    · exact .inr ⟨y,rfl,reserved,by simp [reserved]⟩
    · exact .inl (by simp [reserved])

theorem committed_commit {l : ReservationLedger} {id : String} (there : l.has id = true) (now : ℤ) :
    (l.commit id now).2.Committed id := by
  obtain ⟨r,found⟩ := Option.isSome_iff_exists.mp there
  have named : r.id = id := Table.key_of_find? found
  unfold commit
  rw [found]
  by_cases reserved : r.state = .reserved
  · refine ⟨{ r with state := .committed, at_ := now, expiresAt := now },?_,rfl⟩
    simp [reserved,Table.find?_put,found,named]
  · refine ⟨r,by simp [reserved,found],?_⟩
    cases state : r.state with
    | reserved => exact absurd state reserved
    | committed => rfl

theorem find?_commit_of_ne {l : ReservationLedger} {id other : String} (different : id ≠ other) (now : ℤ) :
    (l.commit id now).2.rows.find? other = l.rows.find? other := by
  unfold commit
  cases found : l.rows.find? id with
  | none => rfl
  | some r =>
    have named : r.id = id := Table.key_of_find? found
    by_cases reserved : r.state = .reserved
    · simp [reserved,Table.find?_put,named,different]
    · simp [reserved]

end ReservationLedger

end RatifyOs.Execution
