import RatifyOs.Execution.Oversubscription

/-! Reconciliation of a ledger with a snapshot of what was spent. -/
namespace RatifyOs.Execution
open Data ReservationLedger

inductive LedgerStatus where
  | ok
  | discrepancy
  deriving DecidableEq

inductive ReconcileError where
  | invalidSnapshot
  /-- A statement was given a number that it does not take as a parameter. -/
  | unbindable
  deriving DecidableEq

/-- A ledger and the row of `ledger_meta` that the reconciliation writes. -/
structure LedgerDatabase where
  ledger : ReservationLedger
  recorded : Option LedgerStatus

def ValidSnapshot (es : List LedgerEntry) (now : ℤ) : Prop :=
  (∀ e ∈ es, e.id ≠ "" ∧ 0 ≤ e.at_ ∧ e.at_ ≤ now ∧ 0 < e.amount) ∧ (es.map (·.id)).Nodup

instance (es : List LedgerEntry) (now : ℤ) : Decidable (ValidSnapshot es now) := by
  unfold ValidSnapshot
  infer_instance

def LedgerEntry.committed (e : LedgerEntry) : LedgerRow :=
  ⟨e.id,e.at_,e.asset,e.strategy,e.amount,.committed,e.at_,none⟩

/-- Every entry is inserted unless its id is there already; a number that no statement takes
makes the transaction roll back. -/
def adopt (rows : Table LedgerRow.id) : List LedgerEntry → Option (Table LedgerRow.id)
  | [] => some rows
  | e :: es =>
    if bindable e.at_ ∧ bindable e.amount then adopt ((rows.insert? e.committed).getD rows) es else none

/-- A committed row that the snapshot does not know, or an entry that is no committed row. -/
def Discrepant (held : List LedgerRow) (es : List LedgerEntry) : Prop :=
  (∃ r ∈ held, ∀ e ∈ es, e.id ≠ r.id) ∨ ∃ e ∈ es, ∀ r ∈ held, ¬(r.id = e.id ∧ r.amount = e.amount)

instance (held : List LedgerRow) (es : List LedgerEntry) : Decidable (Discrepant held es) := by
  unfold Discrepant
  infer_instance

namespace LedgerDatabase

def status (d : LedgerDatabase) : LedgerStatus := d.recorded.getD .ok

def reconcile (d : LedgerDatabase) (es : List LedgerEntry) (now : ℤ) : Except ReconcileError LedgerStatus × LedgerDatabase :=
  if ¬ValidSnapshot es now then (.error .invalidSnapshot,d)
  else if bindable now = false then (.error .unbindable,d)
  else
    let purged := d.ledger.expire now
    let held := purged.rows.select (·.state = .committed)
    let status := if Discrepant held es then LedgerStatus.discrepancy else .ok
    match adopt purged.rows es with
    | some rows => (.ok status,⟨{ purged with rows },some status⟩)
    | none => (.error .unbindable,{ d with ledger := purged })

end LedgerDatabase

/-- The entry is one of the committed rows. -/
def Stands (e : LedgerEntry) (rows : Table LedgerRow.id) : Prop :=
  ∃ r ∈ rows.find? e.id, r.state = .committed ∧ r.amount = e.amount

/-- The committed rows and the snapshot are the same ids with the same amounts. -/
def Agrees (rows : Table LedgerRow.id) (es : List LedgerEntry) : Prop :=
  ∀ id amount, (∃ r ∈ rows.rows, r.state = .committed ∧ r.id = id ∧ r.amount = amount) ↔
    ∃ e ∈ es, e.id = id ∧ e.amount = amount

/-- The reconciliation answers, and its entries stand whatever is called afterwards. -/
structure Adopts (d : LedgerDatabase) (es : List LedgerEntry) (now : ℤ) : Prop where
  answers : ∃ status, (d.reconcile es now).1 = .ok status
  stands : ∀ e ∈ es, ∀ limits calls, Stands e (Run.run (ledgerStep limits) (d.reconcile es now).2.ledger.rows calls)
  ok : (d.reconcile es now).1 = .ok .ok ↔ Agrees d.ledger.rows es
  again : ((d.reconcile es now).2.reconcile es now).2.ledger = (d.reconcile es now).2.ledger
  later : ∀ later, now ≤ later → bindable later = true →
    ((d.reconcile es now).2.reconcile es later).2.ledger = (d.reconcile es now).2.ledger.expire later

/-- The id of the entry is free after the purge, or belongs to a committed row of its amount. -/
def Adoptable (rows : Table LedgerRow.id) (now : ℤ) (e : LedgerEntry) : Prop :=
  bindable e.amount = true ∧ ∀ r ∈ rows.find? e.id,
    r.state = .reserved ∧ r.expiresAt ≤ now ∨ r.state = .committed ∧ r.amount = e.amount

section
variable {rows rows' : Table LedgerRow.id} {es : List LedgerEntry} {e : LedgerEntry} {now : ℤ}

theorem Stands.counts {l : ReservationLedger} (stands : Stands e l.rows) (now : ℤ) : l.Counts e.id now := by
  obtain ⟨r,found,committed,_⟩ := stands
  exact Committed.counts ⟨r,found,committed⟩ now

theorem Stands.keep (stands : Stands e rows) {p : LedgerRow → Bool} (spares : ∀ r, r.state = .committed → p r) :
    Stands e (rows.keep p) := by
  obtain ⟨r,found,committed,amount⟩ := stands
  refine ⟨r,?_,committed,amount⟩
  rw [Table.find?_keep,show rows.find? e.id = some r from found]
  exact Option.filter_some_pos (spares r committed)

theorem Stands.step (stands : Stands e rows) (limits : Limits) (call : LedgerCall) :
    Stands e (ledgerStep limits rows call) := by
  cases call with
  | reserveWithin c entry aggregate =>
    obtain ⟨r,found,committed,amount⟩ := stands
    exact ⟨r,(c.on rows).rows_reserveWithin entry _ _ found (.inl committed),committed,amount⟩
  | release c id => exact stands.keep fun r committed => by simp [committed]
  | commit c id now =>
    rw [ledgerStep,LedgerCall.run_commit]
    split
    · exact stands
    · obtain same | ⟨r,found,reserved,_⟩ := (c.on rows).commit_cases id now
      · rw [same]
        exact stands
      · obtain ⟨r',found',committed,amount⟩ := stands
        have other : id ≠ e.id := by
          rintro rfl
          have both : some r = some r' := found.symm.trans found'
          rw [← Option.some.inj both,reserved] at committed
          cases committed
        exact ⟨r',(find?_commit_of_ne other now).trans found',committed,amount⟩
  | entries c now =>
    rw [ledgerStep,LedgerCall.run_entries]
    split
    · exact stands
    · exact stands.keep fun r committed => by simp [committed]

theorem Stands.run (stands : Stands e rows) (limits : Limits) (calls : List LedgerCall) :
    Stands e (Run.run (ledgerStep limits) rows calls) := by
  induction calls generalizing rows with
  | nil => exact stands
  | cons call calls ih => exact ih (stands.step limits call)

theorem insert_getD (rows : Table LedgerRow.id) (r : LedgerRow) (id : String) :
    ((rows.insert? r).getD rows).find? id = (rows.find? id).or (if r.id = id then some r else none) := by
  cases inserted : rows.insert? r with
  | some rows' =>
    have absent := (Table.insert?_eq_some_iff.mp inserted).1
    rw [Option.getD_some,Table.find?_insert? inserted]
    by_cases here : r.id = id
    · subst here
      rw [absent]
      rfl
    · rw [if_neg here,if_neg here,Option.or_none]
  | none =>
    by_cases here : r.id = id
    · subst here
      cases found : rows.find? r.id with
      | some old => rw [Option.getD_none,found,Option.some_or]
      | none =>
        obtain ⟨rows',some_⟩ := Table.insert?_of_absent found
        rw [inserted] at some_
        cases some_
    · rw [Option.getD_none,if_neg here,Option.or_none]

theorem find?_adopt (adopted : adopt rows es = some rows') (id : String) :
    rows'.find? id = (rows.find? id).or ((es.find? (·.id = id)).map LedgerEntry.committed) := by
  induction es generalizing rows with
  | nil =>
    obtain rfl := Option.some.inj adopted
    simp
  | cons e es ih =>
    rw [adopt] at adopted
    split at adopted
    · have named : e.committed.id = e.id := rfl
      rw [ih adopted,insert_getD,Option.or_assoc,List.find?_cons,named]
      by_cases here : e.id = id
      · rw [if_pos here,decide_eq_true here]
        rfl
      · rw [if_neg here,decide_eq_false here]
        rfl
    · cases adopted

theorem adopt_rows (adopted : adopt rows es = some rows') :
    ∃ news, rows'.rows = rows.rows ++ news ∧ ∀ r ∈ news, r.state = .committed := by
  induction es generalizing rows with
  | nil =>
    obtain rfl := Option.some.inj adopted
    exact ⟨[],by simp⟩
  | cons e es ih =>
    rw [adopt] at adopted
    split at adopted
    · obtain ⟨news,appended,committed⟩ := ih adopted
      cases inserted : rows.insert? e.committed with
      | none =>
        rw [inserted] at appended
        exact ⟨news,appended,committed⟩
      | some rows'' =>
        rw [inserted,Option.getD_some,(Table.insert?_eq_some_iff.mp inserted).2,List.append_assoc] at appended
        refine ⟨e.committed :: news,appended,fun r inside => ?_⟩
        rcases List.mem_cons.mp inside with rfl | rest
        · rfl
        · exact committed r rest
    · cases adopted

theorem exists_adopt (bound : ∀ e ∈ es, bindable e.at_ = true ∧ bindable e.amount = true) (rows : Table LedgerRow.id) :
    ∃ rows', adopt rows es = some rows' := by
  induction es generalizing rows with
  | nil => exact ⟨rows,rfl⟩
  | cons e es ih =>
    rw [adopt,if_pos (bound e (.head _))]
    exact ih (fun e inside => bound e (.tail _ inside)) _

theorem bound_of_adopt (adopted : adopt rows es = some rows') : ∀ e ∈ es, bindable e.amount = true := by
  induction es generalizing rows with
  | nil => nofun
  | cons e es ih =>
    rw [adopt] at adopted
    split at adopted
    · rename_i bound
      exact List.forall_mem_cons.mpr ⟨bound.2,ih adopted⟩
    · cases adopted

theorem adopt_present (adopted : adopt rows es = some rows') (present : ∀ e ∈ es, (rows.find? e.id).isSome = true) :
    rows' = rows := by
  induction es with
  | nil => exact (Option.some.inj adopted).symm
  | cons e es ih =>
    rw [adopt] at adopted
    split at adopted
    · have kept : rows.insert? e.committed = none := by
        cases inserted : rows.insert? e.committed with
        | none => rfl
        | some _ =>
          have there := present e (.head _)
          rw [show rows.find? e.id = none from (Table.insert?_eq_some_iff.mp inserted).1] at there
          cases there
      rw [kept,Option.getD_none] at adopted
      exact ih adopted fun e inside => present e (.tail _ inside)
    · cases adopted

theorem mem_held {l : ReservationLedger} {now : ℤ} {r : LedgerRow} :
    r ∈ (l.expire now).rows.select (·.state = .committed) ↔ r ∈ l.rows.rows ∧ r.state = .committed := by
  unfold expire Table.keep
  rw [Table.mem_select,List.mem_filter,decide_eq_true_eq]
  constructor
  · intro held
    exact ⟨held.1.1,of_decide_eq_true held.2⟩
  · intro committed
    exact ⟨⟨committed.1,by simp [committed.2]⟩,decide_eq_true committed.2⟩

theorem agrees_iff (l : ReservationLedger) (es : List LedgerEntry) (now : ℤ) :
    Agrees l.rows es ↔ ¬Discrepant ((l.expire now).rows.select (·.state = .committed)) es := by
  simp only [Discrepant,mem_held,not_or,not_exists,not_and,not_forall,not_not,exists_prop]
  constructor
  · intro agrees
    refine ⟨fun r held => ?_,fun e inside => ?_⟩
    · obtain ⟨e,inside,same,_⟩ := (agrees r.id r.amount).mp ⟨r,held.1,held.2,rfl,rfl⟩
      exact ⟨e,inside,same⟩
    · obtain ⟨r,there,committed,same⟩ := (agrees e.id e.amount).mpr ⟨e,inside,rfl,rfl⟩
      exact ⟨r,⟨there,committed⟩,same⟩
  · rintro ⟨known,standing⟩ id amount
    constructor
    · rintro ⟨r,there,committed,rfl,rfl⟩
      obtain ⟨e,inside,same⟩ := known r ⟨there,committed⟩
      obtain ⟨r',⟨there',_⟩,same',amount⟩ := standing e inside
      obtain rfl : r' = r := List.inj_on_of_nodup_map l.rows.distinct there' there (same'.trans same)
      exact ⟨e,inside,same,amount.symm⟩
    · rintro ⟨e,inside,rfl,rfl⟩
      obtain ⟨r,⟨there,committed⟩,same⟩ := standing e inside
      exact ⟨r,there,committed,same⟩

variable {d : LedgerDatabase}

theorem reconcile_adopted (valid : ValidSnapshot es now) (bound : bindable now = true)
    (adopted : adopt (d.ledger.expire now).rows es = some rows') :
    d.reconcile es now =
      let status := if Discrepant ((d.ledger.expire now).rows.select (·.state = .committed)) es then LedgerStatus.discrepancy else .ok
      (.ok status,⟨⟨rows',d.ledger.ttl,d.ledger.aggregateQuote⟩,some status⟩) := by
  simp only [LedgerDatabase.reconcile,not_not.mpr valid,bound,adopted,if_false,Bool.true_eq_false]
  rfl

theorem answers_iff (valid : ValidSnapshot es now) : (∃ status, (d.reconcile es now).1 = .ok status) ↔
    bindable now = true ∧ ∃ rows', adopt (d.ledger.expire now).rows es = some rows' := by
  constructor
  · rintro ⟨status,answer⟩
    unfold LedgerDatabase.reconcile at answer
    rw [if_neg (not_not.mpr valid)] at answer
    split at answer
    · cases answer
    · rename_i bound
      refine ⟨by simpa using bound,?_⟩
      cases adopted : adopt (d.ledger.expire now).rows es with
      | some rows' => exact ⟨rows',rfl⟩
      | none =>
        dsimp only at answer
        rw [adopted] at answer
        cases answer
  · rintro ⟨bound,rows',adopted⟩
    exact ⟨_,by rw [reconcile_adopted valid bound adopted]⟩

/-- The status that is recorded is the answer. -/
theorem status_reconcile (valid : ValidSnapshot es now) {status : LedgerStatus} (answer : (d.reconcile es now).1 = .ok status) :
    (d.reconcile es now).2.status = status := by
  obtain ⟨bound,rows',adopted⟩ := (answers_iff valid).mp ⟨status,answer⟩
  rw [reconcile_adopted valid bound adopted] at answer ⊢
  exact Except.ok.inj answer

theorem ValidSnapshot.later (valid : ValidSnapshot es now) {later : ℤ} (after : now ≤ later) : ValidSnapshot es later := by
  refine ⟨fun e inside => ?_,valid.2⟩
  obtain ⟨named,start,past,positive⟩ := valid.1 e inside
  exact ⟨named,start,past.trans after,positive⟩

theorem ValidSnapshot.bindable (valid : ValidSnapshot es now) (bound : bindable now = true) : ∀ e ∈ es, bindable e.at_ = true := by
  intro e inside
  obtain ⟨_,start,past,_⟩ := valid.1 e inside
  unfold ReservationLedger.bindable at bound ⊢
  simp only [decide_eq_true_eq] at bound ⊢
  omega

/-- What the entries find after the purge decides; the rows a reconciliation leaves are the
purged ones and its own. -/
theorem adoptable_iff (adopted : adopt (d.ledger.expire now).rows es = some rows')
    (distinct : (es.map (·.id)).Nodup) : (∀ e ∈ es, Stands e rows') ↔ ∀ e ∈ es, Adoptable d.ledger.rows now e := by
  refine forall₂_congr fun e inside => ?_
  have listed : es.find? (·.id = e.id) = some e := by
    cases found : es.find? (·.id = e.id) with
    | none => simpa using List.find?_eq_none.mp found e inside
    | some other =>
      have same : other.id = e.id := by simpa using List.find?_some found
      rw [List.inj_on_of_nodup_map distinct (List.mem_of_find?_eq_some found) inside same]
  have bound := bound_of_adopt adopted e inside
  unfold Stands Adoptable
  rw [find?_adopt adopted,listed,Option.map_some]
  unfold expire
  rw [Table.find?_keep]
  cases found : d.ledger.rows.find? e.id with
  | none => simp [bound,LedgerEntry.committed]
  | some r =>
    simp only [bound,true_and,Option.mem_def,Option.some.injEq,forall_eq']
    cases state : r.state with
    | committed => simp [Option.filter,state]
    | reserved =>
      by_cases overdue : r.expiresAt ≤ now
      · simp [Option.filter,state,overdue,LedgerEntry.committed]
      · simp [Option.filter,state,overdue]

theorem reconcile_later {l : ReservationLedger} {recorded : Option LedgerStatus} {later : ℤ}
    (valid : ValidSnapshot es later) (bound : bindable later = true) (stands : ∀ e ∈ es, Stands e l.rows)
    (fits : ∀ e ∈ es, bindable e.amount = true) :
    (LedgerDatabase.reconcile ⟨l,recorded⟩ es later).2.ledger = l.expire later := by
  obtain ⟨rows',adopted⟩ := exists_adopt (fun e inside => ⟨valid.bindable bound e inside,fits e inside⟩) (l.expire later).rows
  have present : rows' = (l.expire later).rows := by
    refine adopt_present adopted fun e inside => ?_
    obtain ⟨r,found,_⟩ := (stands e inside).keep (p := fun r => ¬(r.state = .reserved ∧ r.expiresAt ≤ later))
      fun r committed => by simp [committed]
    exact Option.isSome_iff_exists.mpr ⟨r,found⟩
  rw [reconcile_adopted (d := ⟨l,recorded⟩) valid bound adopted,present]
  rfl

theorem expire_adopted {l : ReservationLedger} (adopted : adopt (l.expire now).rows es = some rows') :
    ReservationLedger.expire ⟨rows',l.ttl,l.aggregateQuote⟩ now = ⟨rows',l.ttl,l.aggregateQuote⟩ := by
  obtain ⟨news,appended,committed⟩ := adopt_rows adopted
  have kept : rows'.keep (fun r => ¬(r.state = .reserved ∧ r.expiresAt ≤ now)) = rows' := by
    refine Table.ext (List.filter_eq_self.mpr fun r inside => ?_)
    rw [appended] at inside
    rcases List.mem_append.mp inside with old | new
    · exact (List.mem_filter.mp old).2
    · simp [committed r new]
  unfold expire
  rw [kept]

end

theorem adopts_iff (d : LedgerDatabase) (es : List LedgerEntry) (now : ℤ) (valid : ValidSnapshot es now) :
    Adopts d es now ↔ bindable now = true ∧ ∀ e ∈ es, Adoptable d.ledger.rows now e := by
  constructor
  · intro adopts
    obtain ⟨bound,rows',adopted⟩ := (answers_iff valid).mp adopts.answers
    have stands := adopts.stands
    rw [reconcile_adopted valid bound adopted] at stands
    exact ⟨bound,(adoptable_iff adopted valid.2).mp fun e inside => stands e inside ⟨fun _ => 0,"",0,0⟩ []⟩
  · rintro ⟨bound,adoptable⟩
    have fits : ∀ e ∈ es, bindable e.amount = true := fun e inside => (adoptable e inside).1
    obtain ⟨rows',adopted⟩ := exists_adopt (fun e inside => ⟨valid.bindable bound e inside,fits e inside⟩)
      (d.ledger.expire now).rows
    have stands := (adoptable_iff adopted valid.2).mpr adoptable
    have result := reconcile_adopted valid bound adopted
    constructor
    · exact (answers_iff valid).mpr ⟨bound,rows',adopted⟩
    · intro e inside limits calls
      rw [result]
      exact (stands e inside).run limits calls
    · rw [result,agrees_iff d.ledger es now]
      by_cases discrepant : Discrepant ((d.ledger.expire now).rows.select (·.state = .committed)) es
      · simp [discrepant]
      · simp [discrepant]
    · rw [result]
      exact (reconcile_later valid bound stands fits).trans (expire_adopted adopted)
    · intro later after bound'
      rw [result]
      exact reconcile_later (valid.later after) bound' stands fits

namespace Sample

/-- A reservation that is still alive when the snapshot says that it was spent. -/
def pending : LedgerRow := ⟨"a",1,"A","s",40,.reserved,3601,none⟩

def database : LedgerDatabase := ⟨⟨⟨[pending],List.nodup_singleton _⟩,3600,none⟩,none⟩

def spent : List LedgerEntry := [⟨"a",1,"A","s",40⟩]

end Sample

open Sample in
theorem pending_not_adopted : ValidSnapshot spent 2 ∧ ¬Adopts database spent 2 := by
  refine ⟨by decide,fun adopts => ?_⟩
  obtain ⟨r,found,committed,_⟩ := adopts.stands _ (.head _) ⟨fun _ => 0,"",0,0⟩ []
  have kept : (database.reconcile spent 2).2.ledger.rows.find? "a" = some pending := by decide
  obtain rfl : pending = r := Option.some.inj (kept.symm.trans found)
  cases committed

open Sample in
theorem overdue_adopted : Adopts database spent 3601 := by
  refine (adopts_iff database spent 3601 (by decide)).mpr ⟨rfl,fun e inside => ?_⟩
  obtain rfl := List.mem_singleton.mp inside
  refine ⟨rfl,fun r found => .inl ?_⟩
  obtain rfl : pending = r := Option.some.inj found
  exact ⟨rfl,le_refl _⟩

end RatifyOs.Execution
