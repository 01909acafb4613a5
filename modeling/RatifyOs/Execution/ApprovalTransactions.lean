import RatifyOs.Data.Run
import RatifyOs.Execution.ApprovalMatch

/-! Which calls of the approval engine leave a transaction open, and what a call that throws
has written. -/
namespace RatifyOs.Execution
open Data Data.Session ApprovalEngine

variable (c : ApprovalConfig)

/-- The texts of a row can be read, and the binding holds the hash of the transaction. -/
def Readable (r : ApprovalRow) : Prop :=
  ∃ fields tx, Json.parse r.bindingJson = some (.obj fields) ∧ Json.parse r.txJson = some tx ∧
    fields.lookup "transactionHash" = some (.str (canonicalHash c tx))

/-- No transaction is open, and every row can be handed out. -/
structure Idle (s : ApprovalEngine) : Prop where
  saved : s.saved = none
  opened : s.closed = false
  readable : ∀ r ∈ s.tables.requests.rows, Readable c r

def marked (t : ApprovalTables) (r : ApprovalRow) (e : EventRow) : ApprovalTables :=
  ⟨t.requests.put { r with status := .expired, revision := r.revision + 1 },t.decisions,t.events ++ [e]⟩

/-- An overdue request is marked as expired, with the event that says so. -/
def Marked (s : ApprovalEngine) (t : ApprovalTables) : Prop :=
  ∃ r ∈ s.tables.requests.rows, r.status.live ∧ r.expiresAt ≤ s.clock 0 ∧
    ∃ e : EventRow, e.requestId = r.id ∧ e.event = "expired" ∧ t = marked s.tables r e

variable {c} {s : ApprovalEngine}

section Statements
variable {α : Type} {E : String → ApprovalEngine → Prop}

theorem ends_opened {Q : Unit → ApprovalEngine → Prop} (idle : Idle c s) : Ends opened Q E s ↔ Q () s := by
  simp [opened,ends_bind,ends_reject,idle.opened]

theorem ends_begin {Q : Unit → ApprovalEngine → Prop} (idle : s.saved = none) :
    Ends beginImmediate Q E s ↔ Q () { s with saved := some s.tables } := by
  simp [beginImmediate,ends_bind,ends_reject,idle]

theorem ends_commit {Q : Unit → ApprovalEngine → Prop} {t : ApprovalTables} (inside : s.saved = some t) :
    Ends commit Q E s ↔ Q () { s with saved := none } := by
  simp [commit,ends_bind,ends_reject,inside]

theorem ends_rollback {Q : Unit → ApprovalEngine → Prop} {t : ApprovalTables} (inside : s.saved = some t) :
    Ends rollback Q E s ↔ Q () { s with tables := t, saved := none } := by
  simp [rollback,ends_bind,ends_ofOption,inside]

theorem ends_now {Q : ℤ → ApprovalEngine → Prop} :
    Ends now Q E s ↔ Q (s.clock 0) { s with clock := fun n => s.clock (n + 1) } := Iff.rfl

theorem ends_raw (id : String) {Q : Option ApprovalRow → ApprovalEngine → Prop} :
    Ends (raw id) Q E s ↔ Q (s.tables.requests.find? id) s := Iff.rfl

theorem ends_updateStatus {id : String} {revision : ℕ} {from_ : ApprovalStatus → Bool} {status : ApprovalStatus}
    {Q : ℕ → ApprovalEngine → Prop}
    (missed : (∀ r, s.tables.requests.find? id = some r → r.revision = revision → ¬from_ r.status) → Q 0 s)
    (changed : ∀ r, s.tables.requests.find? id = some r → r.revision = revision → from_ r.status →
      Q 1 { s with tables := { s.tables with
        requests := s.tables.requests.put { r with status, revision := r.revision + 1 } } }) :
    Ends (updateStatus id revision from_ status) Q E s := by
  unfold Ends
  obtain ⟨none_,same⟩ | ⟨r,found,current,now,after⟩ := exec_updateStatus s id revision from_ status
  · rw [same]
    exact missed none_
  · rw [after]
    exact changed r found current now

theorem ends_event {id name : String} {operator reason : Option String} {binding : Text} {revision : ℕ} {at_ : Option ℤ}
    {v : Json} (parsed : Json.parse binding = some v) {Q : Unit → ApprovalEngine → Prop}
    (next : ∀ clock (e : EventRow), e.requestId = id → e.event = name →
      Q () { s with clock, tables := { s.tables with events := s.tables.events ++ [e] } }) :
    Ends (ApprovalEngine.event c id name operator reason binding revision at_) Q E s := by
  unfold ApprovalEngine.event
  cases at_ with
  | none =>
    simp only [ends_bind,ends_now,ends_ofOption,parsed]
    refine ⟨fun v' _ => ?_,nofun⟩
    exact next _ _ rfl rfl
  | some time =>
    simp only [ends_bind,ends_pure,ends_ofOption,parsed]
    refine ⟨fun v' _ => ?_,nofun⟩
    exact next s.clock _ rfl rfl

theorem ends_map {r : ApprovalRow} (readable : Readable c r) {Q : ApprovalRecord → ApprovalEngine → Prop}
    (next : ∀ record, Q record s) : Ends (ApprovalEngine.map c r) Q E s := by
  obtain ⟨fields,tx,bound,read,hash⟩ := readable
  simp only [ApprovalEngine.map,ends_bind,ends_ofOption,ends_reject,ends_pure,bound,read]
  refine ⟨?_,nofun⟩
  rintro _ ⟨⟩
  refine ⟨?_,nofun⟩
  rintro _ ⟨⟩
  refine ⟨fun differs => ?_,fun _ => next _⟩
  simp [map.fieldsOf,hash,map.textOf] at differs

end Statements

theorem readable_put {t : Table ApprovalRow.id} {r : ApprovalRow} (rows : ∀ r ∈ t.rows, Readable c r) (there : r ∈ t.rows)
    (status : ApprovalStatus) (revision : ℕ) : ∀ r' ∈ (t.put { r with status, revision }).rows, Readable c r' := by
  intro r' inside
  obtain rfl | ⟨was,_⟩ := Table.mem_put inside
  · exact rows r there
  · exact rows r' was

section Calls
variable {E : String → ApprovalEngine → Prop}

theorem ends_expire {r : ApprovalRow} (found : s.tables.requests.find? r.id = some r) (readable : Readable c r)
    {Q : Unit → ApprovalEngine → Prop}
    (marks : r.status.live → ∀ clock (e : EventRow), e.requestId = r.id → e.event = "expired" →
      Q () { s with clock, tables := marked s.tables r e })
    (rests : r.status.live = false → Q () s) : Ends (expire c r) Q E s := by
  unfold expire
  rw [ends_bind]
  refine ends_updateStatus (fun missed => ?_) fun r' found' _ live => ?_
  · rw [ends_onlyIf]
    refine ⟨fun some_ => absurd rfl some_,fun _ => rests ?_⟩
    simpa using missed r found rfl
  · obtain rfl : r = r' := Option.some.inj (found.symm.trans found')
    rw [ends_onlyIf]
    refine ⟨fun _ => ?_,fun none_ => absurd Nat.one_ne_zero none_⟩
    obtain ⟨_,_,parsed,_⟩ := readable
    exact ends_event parsed fun clock e about named => marks live clock e about named

/-- What is handed out is there, and the expiry of an overdue request is committed. -/
theorem get_returns (idle : Idle c s) (id : String) :
    Ends (ApprovalEngine.get c id) (fun _ s' => Idle c s') (fun _ _ => False) s := by
  unfold ApprovalEngine.get
  rw [ends_bind,ends_opened idle,ends_bind,ends_raw]
  cases found : s.tables.requests.find? id with
  | none => exact idle
  | some r =>
    have there := Table.mem_of_find? found
    have readable := idle.readable r there
    obtain rfl : r.id = id := Table.key_of_find? found
    have answered {s' : ApprovalEngine} (idle' : Idle c s') {r' : ApprovalRow} (readable' : Readable c r') :
        Ends (do return some (← ApprovalEngine.map c r')) (fun _ s' => Idle c s') (fun _ _ => False) s' := by
      rw [ends_bind]
      exact ends_map readable' fun _ => idle'
    dsimp only
    unfold refreshed
    rw [ends_bind]
    split
    · rename_i live
      rw [ends_bind,ends_now]
      split
      · rw [ends_bind,ends_begin (s := { s with clock := fun n => s.clock (n + 1) }) idle.saved,ends_bind,ends_tryCatch,ends_bind]
        refine ends_expire (s := ⟨s.tables,some s.tables,s.closed,_⟩) found readable (fun _ clock e _ _ => ?_) fun dead => absurd (live.symm.trans dead) (by simp)
        rw [ends_commit rfl,ends_bind,ends_raw]
        have rows := readable_put idle.readable there .expired (r.revision + 1)
        have kept : (s.tables.requests.put { r with status := .expired, revision := r.revision + 1 }).find? r.id =
            some { r with status := .expired, revision := r.revision + 1 } :=
          Table.find?_put_self (r := { r with status := .expired, revision := r.revision + 1 }) found
        rw [ends_ofOption]
        refine ⟨fun r' found' => ?_,fun gone => ?_⟩
        · refine answered ?_ (rows r' (Table.mem_of_find? found'))
          exact ⟨rfl,idle.opened,rows⟩
        · rw [show (marked s.tables r e).requests.find? r.id = some _ from kept] at gone
          cases gone
      · rw [ends_pure]
        refine answered ?_ readable
        exact ⟨idle.saved,idle.opened,idle.readable⟩
    · rw [ends_pure]
      exact answered idle readable

theorem ends_rejects {α : Type} {p : Engine α} {Q : α → ApprovalEngine → Prop} (check : Prop) [Decidable check] (error : String)
    (out : ∀ error, E error s) (next : Ends p Q E s) : Ends (reject check error >>= fun _ => p) Q E s := by
  rw [ends_bind,ends_reject]
  exact ⟨fun _ => out error,fun _ => next⟩

theorem ends_validate {input : ApprovalRequestInput} {Q : Unit → ApprovalEngine → Prop} (out : ∀ error, E error s)
    (next : Q () s) : Ends (validate input) Q E s := by
  unfold validate
  iterate 15 refine ends_rejects _ _ out ?_
  rw [ends_reject]
  exact ⟨fun _ => out _,fun _ => next⟩

theorem ends_handled {α : Type} {p : Engine α} {undo : Engine Unit} {Q : α → ApprovalEngine → Prop} :
    Ends (guarded p undo) Q E s ↔ Ends p Q (fun error => Ends undo (fun _ s' => E error s') fun _ s' => E error s') s := by
  unfold guarded
  rw [ends_tryCatch]
  refine iff_of_eq (congrArg (Ends p Q · s) ?_)
  ext error s'
  rw [ends_bind,ends_tryCatch]
  rfl

theorem ends_guarded {α : Type} {p : Engine α} {Q : α → ApprovalEngine → Prop} (idle : Idle c s)
    (body : Ends p Q (fun _ s' => s'.saved = some s.tables ∧ s'.closed = false) { s with saved := some s.tables }) :
    Ends (guarded p rollback) Q (fun _ s' => Idle c s' ∧ s'.tables = s.tables) { s with saved := some s.tables } := by
  rw [ends_handled]
  refine body.mono (fun _ _ returned => returned) fun error s' ⟨inside,opened⟩ => ?_
  rw [ends_rollback inside]
  exact ⟨⟨rfl,opened,idle.readable⟩,rfl⟩

section Decide
variable {id : String} {input : DecisionInput}

theorem ends_admitDecision {Q : ApprovalRow → ApprovalEngine → Prop} (out : ∀ error clock, E error { s with clock })
    (next : ∀ r clock, s.tables.requests.find? id = some r → Q r { s with clock }) : Ends (admitDecision c id input) Q E s := by
  have stays : ∀ error, E error s := fun error => out error s.clock
  unfold admitDecision
  rw [ends_bind,ends_raw,ends_bind,ends_ofOption]
  refine ⟨fun r found => ?_,fun _ => stays _⟩
  rw [ends_bind,ends_now]
  iterate 4 refine ends_rejects _ _ (fun error => out error _) ?_
  rw [ends_bind]
  unfold ApprovalEngine.operator
  rw [ends_ofOption]
  refine ⟨fun _ _ => ?_,fun _ => out _ _⟩
  refine ends_rejects _ _ (fun error => out error _) ?_
  rw [ends_bind]
  have rest (time : ℤ) (clock : ℕ → ℤ) : Ends (do
      reject (time.natAbs > 9007199254740991) "Invalid proof timestamp"
      reject (((← now) - time).natAbs > 300000) "Invalid proof timestamp"
      let proof : DecisionProof := {
        input := { input with timestamp := some time }, requestId := id, revision := input.expectedRevision
        operatorConfigVersion := r.configVersion, operatorConfigHash := r.configHash }
      reject ((present input.proof).isNone = true ∨ c.verify proof = false) "Invalid decision proof"
      let s ← MonadState.get
      reject (∃ d ∈ s.tables.decisions, d.requestId = id ∧ d.operatorId = input.operatorId) "Distinct operator required"
      return r) Q E { s with clock } := by
    refine ends_rejects _ _ (fun error => out error _) ?_
    rw [ends_bind,ends_now]
    iterate 2 refine ends_rejects _ _ (fun error => out error _) ?_
    rw [ends_bind]
    refine ends_rejects _ _ (fun error => out error _) ?_
    exact next r _ found
  cases input.timestamp with
  | none => exact rest _ _
  | some time => exact rest time _

theorem ends_recordDecision {r : ApprovalRow} (found : s.tables.requests.find? id = some r)
    (readable : ∀ r ∈ s.tables.requests.rows, Readable c r) {Q : Unit → ApprovalEngine → Prop}
    (out : ∀ error tables clock, E error ⟨tables,s.saved,s.closed,clock⟩)
    (next : ∀ tables clock, (∀ r ∈ tables.requests.rows, Readable c r) → Q () ⟨tables,s.saved,s.closed,clock⟩) :
    Ends (recordDecision c id input r) Q E s := by
  unfold recordDecision
  rw [ends_bind,ends_now,ends_bind,ends_tryCatch]
  unfold insertDecision
  rw [ends_bind,ends_get]
  iterate 2 refine ends_rejects _ _ (fun error => out _ _ _) ?_
  rw [ends_modify,ends_bind,ends_get,ends_bind]
  refine ends_updateStatus (fun missed => ?_) fun r' found' _ _ => ?_
  · rw [ends_onlyIf]
    refine ⟨fun _ => ?_,fun _ => next _ _ readable⟩
    obtain ⟨_,_,parsed,_⟩ := readable r (Table.mem_of_find? found)
    exact ends_event parsed fun clock e _ _ => next _ _ readable
  · have rows := readable_put readable (Table.mem_of_find? found')
    rw [ends_onlyIf]
    refine ⟨fun _ => ?_,fun _ => next _ _ (rows _ _)⟩
    obtain ⟨_,_,parsed,_⟩ := readable r (Table.mem_of_find? found)
    exact ends_event parsed fun clock e _ _ => next _ _ (rows _ _)

theorem ends_committed (id : String) {t : ApprovalTables} (inside : s.saved = some t) (opened : s.closed = false)
    (readable : ∀ r ∈ s.tables.requests.rows, Readable c r) :
    Ends (do commit; ApprovalEngine.get c id) (fun _ s' => Idle c s') E s := by
  rw [ends_bind,ends_commit inside]
  have idle : Idle c { s with saved := none } := ⟨rfl,opened,readable⟩
  exact (get_returns idle id).mono (fun _ _ idle => idle) fun _ _ never => never.elim

theorem decide_ends (idle : Idle c s) (id : String) (input : DecisionInput) :
    Ends (ApprovalEngine.decide c id input) (fun _ s' => Idle c s') (fun _ s' => Idle c s' ∧ s'.tables = s.tables) s := by
  have stays : ∀ _ : String, Idle c s ∧ s.tables = s.tables := fun _ => ⟨idle,rfl⟩
  unfold ApprovalEngine.decide
  rw [ends_bind,ends_opened idle]
  refine ends_rejects _ _ stays ?_
  rw [ends_bind,ends_begin idle.saved]
  refine ends_guarded idle ?_
  unfold decideOpen
  rw [ends_bind]
  refine ends_admitDecision (fun _ _ => ⟨rfl,idle.opened⟩) fun r clock found => ?_
  rw [ends_bind]
  refine ends_recordDecision (s := ⟨s.tables,some s.tables,s.closed,clock⟩) found idle.readable
    (fun _ _ _ => ⟨rfl,idle.opened⟩) fun tables clock readable => ?_
  exact ends_committed id rfl idle.opened readable

theorem revoke_ends (idle : Idle c s) (id operatorId reason : String) (expectedRevision : ℕ) :
    Ends (ApprovalEngine.revoke c id operatorId reason expectedRevision) (fun _ s' => Idle c s')
      (fun _ s' => Idle c s' ∧ s'.tables = s.tables) s := by
  have stays : ∀ _ : String, Idle c s ∧ s.tables = s.tables := fun _ => ⟨idle,rfl⟩
  unfold ApprovalEngine.revoke
  rw [ends_bind,ends_opened idle]
  refine ends_rejects _ _ stays ?_
  rw [ends_bind,ends_begin idle.saved]
  refine ends_guarded idle ?_
  have out (tables : ApprovalTables) (clock : ℕ → ℤ) : ∀ _ : String,
      (ApprovalEngine.mk tables (some s.tables) s.closed clock).saved = some s.tables ∧ s.closed = false :=
    fun _ => ⟨rfl,idle.opened⟩
  unfold revokeOpen
  rw [ends_bind,ends_raw,ends_bind,ends_ofOption]
  refine ⟨fun r found => ?_,fun _ => out _ _ ""⟩
  rw [ends_bind]
  unfold ApprovalEngine.operator
  rw [ends_ofOption]
  refine ⟨fun _ _ => ?_,fun _ => out _ _ ""⟩
  iterate 2 refine ends_rejects _ _ (out _ _) ?_
  obtain ⟨_,_,parsed,_⟩ := idle.readable r (Table.mem_of_find? found)
  rw [ends_bind]
  refine ends_updateStatus (fun _ => ends_rejects _ _ (out _ _) ?_) fun r' found' _ _ => ends_rejects _ _ (out _ _) ?_
  · rw [ends_bind]
    exact ends_event parsed fun clock e _ _ => ends_committed id rfl idle.opened idle.readable
  · have rows := readable_put idle.readable (Table.mem_of_find? found')
    rw [ends_bind]
    exact ends_event parsed fun clock e _ _ => ends_committed id rfl idle.opened (rows _ _)

end Decide

section Request
variable {input : ApprovalRequestInput}

theorem readable_request (distinct : Distinct input.serializedTransaction) {r : ApprovalRow}
    (binding : r.bindingJson = canonicalSerialize (boundKeys c input.toBoundTransaction))
    (tx : r.txJson = canonicalSerialize input.serializedTransaction) : Readable c r := by
  have keys : Distinct (boundKeys c input.toBoundTransaction) := distinct_boundKeys
  have parsed := parse_canonicalSerialize keys
  have hash := lookup_ordered keys.1 "transactionHash"
  rw [← binding] at parsed
  refine ⟨_,ordered input.serializedTransaction,parsed,?_,?_⟩
  · rw [tx]
    exact parse_canonicalSerialize distinct
  · rw [hash,canonicalHash,canonicalHash,serialize_ordered]
    rfl

theorem ends_insertRequest {r : ApprovalRow} {Q : Unit → ApprovalEngine → Prop} (out : ∀ error, E error s)
    (next : ∀ requests, requests.rows = s.tables.requests.rows ++ [r] → Q () { s with tables := { s.tables with requests } }) :
    Ends (insertRequest r) Q E s := by
  unfold insertRequest
  rw [ends_bind,ends_get]
  refine ends_rejects _ _ out ?_
  rw [ends_bind,ends_ofOption]
  refine ⟨fun requests added => ?_,fun _ => out _⟩
  exact next requests (Table.insert?_eq_some_iff.mp added).2

theorem request_ends (idle : Idle c s) (distinct : Distinct input.serializedTransaction) (quorum : ℤ) (challenge : String) :
    Ends (ApprovalEngine.request c input quorum challenge) (fun _ s' => Idle c s')
      (fun _ s' => Idle c s' ∧ s'.tables = s.tables) s := by
  have out (clock : ℕ → ℤ) : ∀ _ : String, Idle c { s with clock } ∧ s.tables = s.tables :=
    fun _ => ⟨⟨idle.saved,idle.opened,idle.readable⟩,rfl⟩
  have keys : Distinct (boundKeys c input.toBoundTransaction) := distinct_boundKeys
  have parsed := parse_canonicalSerialize keys
  unfold ApprovalEngine.request
  dsimp only
  generalize text : canonicalSerialize (boundKeys c input.toBoundTransaction) = binding at parsed ⊢
  rw [ends_bind,ends_opened idle,ends_bind]
  refine ends_validate (out s.clock) ?_
  refine ends_rejects _ _ (out s.clock) ?_
  rw [ends_bind,ends_now]
  refine ends_rejects _ _ (out _) ?_
  rw [ends_bind,ends_now,ends_bind]
  refine ends_insertRequest (out _) fun requests rows => ?_
  rw [ends_bind]
  have readable : ∀ r ∈ requests.rows, Readable c r := by
    intro r inside
    rw [rows,List.mem_append,List.mem_singleton] at inside
    obtain was | rfl := inside
    · exact idle.readable r was
    · exact readable_request distinct text.symm rfl
  refine ends_event parsed fun clock e _ _ => ?_
  have idle' : Idle c ⟨⟨requests,s.tables.decisions,s.tables.events ++ [e]⟩,s.saved,s.closed,clock⟩ :=
    ⟨idle.saved,idle.opened,readable⟩
  exact (get_returns idle' input.id).mono (fun _ _ idle => idle) fun _ _ never => never.elim

end Request

section Consume
variable {id : String} {input : BoundTransaction}

/-- The request is marked as expired, and the clock reads a time before its deadline. -/
def Leaks (s : ApprovalEngine) (id : String) : Prop :=
  ∃ r ∈ s.tables.requests.find? id, r.status = .expired ∧ s.clock 0 < r.expiresAt

instance (s : ApprovalEngine) (id : String) : Decidable (Leaks s id) := by
  unfold Leaks
  infer_instance

/-- What `consume` does when its body throws. -/
def undoConsume (id : String) : Engine Unit := do
  let found ← raw id
  onlyIf (found.map (·.status) ≠ some .expired) rollback

section Undo
variable {R : ApprovalEngine → Prop}

theorem ends_undo {t : ApprovalTables} (inside : s.saved = some t)
    (due : (s.tables.requests.find? id).map (·.status) ≠ some .expired) (back : R { s with tables := t, saved := none }) :
    Ends (undoConsume id) (fun _ => R) (fun _ => R) s := by
  unfold undoConsume
  rw [ends_bind,ends_raw,ends_onlyIf]
  refine ⟨fun _ => ?_,fun kept => absurd due kept⟩
  rwa [ends_rollback inside]

/-- Where the transaction was committed, the throw has nothing to take back. -/
theorem ends_undo_committed (outside : s.saved = none) (stays : R s) : Ends (undoConsume id) (fun _ => R) (fun _ => R) s := by
  unfold undoConsume rollback
  rw [ends_bind,ends_raw,ends_onlyIf,ends_bind,ends_get,ends_bind,ends_ofOption]
  refine ⟨fun _ => ⟨fun t inside => ?_,fun _ => stays⟩,fun _ => stays⟩
  rw [outside] at inside
  cases inside

theorem ends_undo_expired (expired : (s.tables.requests.find? id).map (·.status) = some .expired) (stays : R s) :
    Ends (undoConsume id) (fun _ => R) (fun _ => R) s := by
  unfold undoConsume
  rw [ends_bind,ends_raw,ends_onlyIf]
  exact ⟨fun unmarked => absurd expired unmarked,fun _ => stays⟩

end Undo

theorem consume_ends (idle : Idle c s) (sound : ¬Leaks s id) :
    Ends (ApprovalEngine.consume c id input) (fun _ s' => Idle c s')
      (fun _ s' => Idle c s' ∧ (s'.tables = s.tables ∨ Marked s s'.tables)) s := by
  unfold ApprovalEngine.consume
  rw [ends_bind,ends_opened idle,ends_bind,ends_begin idle.saved]
  refine ends_handled.mpr ?_
  have undone {clock : ℕ → ℤ} (due : (s.tables.requests.find? id).map (·.status) ≠ some .expired) :
      Ends (undoConsume id) (fun _ s' => Idle c s' ∧ (s'.tables = s.tables ∨ Marked s s'.tables))
        (fun _ s' => Idle c s' ∧ (s'.tables = s.tables ∨ Marked s s'.tables)) ⟨s.tables,some s.tables,s.closed,clock⟩ :=
    ends_undo rfl due ⟨⟨rfl,idle.opened,idle.readable⟩,.inl rfl⟩
  unfold consumeOpen
  rw [ends_bind,ends_raw,ends_bind,ends_ofOption]
  refine ⟨fun r found => ?_,fun absent => ?_⟩
  · obtain rfl : r.id = id := Table.key_of_find? found
    have readable := idle.readable r (Table.mem_of_find? found)
    rw [ends_bind,ends_now]
    split
    · rename_i overdue
      rw [ends_bind]
      refine ends_expire (s := ⟨s.tables,some s.tables,s.closed,fun n => s.clock (n + 1)⟩) found readable
        (fun live clock e about named => ?_) fun _ => ?_
      · rw [ends_bind,ends_commit rfl,ends_throw]
        have rows := readable_put idle.readable (Table.mem_of_find? found) .expired (r.revision + 1)
        refine ends_undo_committed rfl ⟨⟨rfl,idle.opened,rows⟩,.inr ?_⟩
        exact ⟨r,Table.mem_of_find? found,live,overdue,e,about,named,rfl⟩
      · rw [ends_bind,ends_commit rfl,ends_throw]
        exact ends_undo_committed rfl ⟨⟨rfl,idle.opened,idle.readable⟩,.inl rfl⟩
    · rename_i timely
      have due : (s.tables.requests.find? r.id).map (·.status) ≠ some .expired := by
        intro marked
        rw [show s.tables.requests.find? r.id = some r from found] at marked
        exact sound ⟨r,found,Option.some.inj marked,not_le.mp timely⟩
      iterate 2 refine ends_rejects _ _ (fun _ => undone due) ?_
      rw [ends_bind]
      refine ends_updateStatus (fun _ => ?_) fun r' found' _ _ => ?_
      · rw [ends_bind,ends_reject]
        exact ⟨fun _ => undone due,fun some_ => absurd Nat.zero_ne_one some_⟩
      · rw [ends_bind,ends_reject]
        refine ⟨fun other => absurd rfl other,fun _ => ?_⟩
        obtain ⟨_,_,parsed,_⟩ := readable
        rw [ends_bind]
        refine ends_event parsed fun clock e _ _ => ?_
        exact ends_committed r.id rfl idle.opened (readable_put idle.readable (Table.mem_of_find? found') _ _)
  · refine undone ?_
    rw [show s.tables.requests.find? id = none from absent]
    rintro ⟨⟩

/-- The handler takes a marked request for one that this call has marked, and the transaction stays. -/
theorem consume_leaks (idle : Idle c s) (leaks : Leaks s id) :
    Ends (ApprovalEngine.consume c id input) (fun _ s' => s'.saved = some s.tables) (fun _ s' => s'.saved = some s.tables) s := by
  obtain ⟨r,found,expired,timely⟩ := leaks
  unfold ApprovalEngine.consume
  rw [ends_bind,ends_opened idle,ends_bind,ends_begin idle.saved]
  refine ends_handled.mpr ?_
  unfold consumeOpen
  rw [ends_bind,ends_raw,ends_bind,ends_ofOption]
  refine ⟨fun r' found' => ?_,fun absent => ?_⟩
  · obtain rfl : r = r' := Option.some.inj (found.symm.trans found')
    rw [ends_bind,ends_now,if_neg (not_le.mpr timely),ends_bind,ends_reject]
    refine ⟨fun _ => ?_,fun approved => ?_⟩
    · refine ends_undo_expired ?_ rfl
      rw [show s.tables.requests.find? id = some r from found,Option.map_some,expired]
    · rw [expired] at approved
      cases not_not.mp approved
  · rw [show ({ s with saved := some s.tables } : ApprovalEngine).tables.requests.find? id = some r from found] at absent
    cases absent

end Consume

end Calls

section Runs
variable (c)

def ApprovalCall.Distinct : ApprovalCall → Prop
  | request input _ _ => Execution.Distinct input.serializedTransaction
  | _ => True

/-- The call consumes a request that is marked as expired before its deadline. -/
def ApprovalCall.Leaks : ApprovalCall → ApprovalEngine → Prop
  | consume id _, s => Execution.Leaks s id
  | _, _ => False

instance (s : ApprovalEngine) : ∀ call : ApprovalCall, Decidable (call.Leaks s)
  | .consume id _ => inferInstanceAs (Decidable (Execution.Leaks s id))
  | .request _ _ _ => inferInstanceAs (Decidable False)
  | .decide _ _ => inferInstanceAs (Decidable False)
  | .revoke _ _ _ _ => inferInstanceAs (Decidable False)
  | .get _ => inferInstanceAs (Decidable False)

/-- No transaction is open after the call, and one that throws has at most marked an overdue
request. -/
def Clean (s : ApprovalEngine) (call : ApprovalCall) : Prop :=
  let after := exec (call.run c) s
  after.2.saved = none ∧ ∀ error, after.1 = .error error → after.2.tables = s.tables ∨ Marked s after.2.tables

variable {c}

theorem ApprovalCall.ends (idle : Idle c s) (call : ApprovalCall) (distinct : call.Distinct) (sound : ¬call.Leaks s) :
    Ends (call.run c) (fun _ s' => Idle c s') (fun _ s' => Idle c s' ∧ (s'.tables = s.tables ∨ Marked s s'.tables)) s := by
  cases call with
  | request input quorum challenge =>
    exact (request_ends idle distinct quorum challenge).mono (fun _ _ idle => idle) fun _ _ ⟨idle,same⟩ => ⟨idle,.inl same⟩
  | decide id input =>
    exact (decide_ends idle id input).mono (fun _ _ idle => idle) fun _ _ ⟨idle,same⟩ => ⟨idle,.inl same⟩
  | revoke id operatorId reason expectedRevision =>
    exact (revoke_ends idle id operatorId reason expectedRevision).mono (fun _ _ idle => idle)
      fun _ _ ⟨idle,same⟩ => ⟨idle,.inl same⟩
  | get id => exact (get_returns idle id).mono (fun _ _ idle => idle) fun _ _ never => never.elim
  | consume id input => exact consume_ends idle sound

theorem ApprovalCall.idle (idle : Idle c s) {call : ApprovalCall} (distinct : call.Distinct) (sound : ¬call.Leaks s) :
    Idle c (exec (call.run c) s).2 :=
  ((call.ends idle distinct sound).mono (fun _ _ idle => idle) fun _ _ after => after.1).always

theorem clean_iff (idle : Idle c s) {call : ApprovalCall} (distinct : call.Distinct) : Clean c s call ↔ ¬call.Leaks s := by
  constructor
  · intro clean leaks
    cases call with
    | consume id input =>
      have stays := Ends.always (p := ApprovalEngine.consume c id input) (consume_leaks idle leaks)
      have gone : (exec (ApprovalEngine.consume c id input) s).2.saved = none := clean.1
      rw [gone] at stays
      cases stays
    | _ => exact leaks
  · intro sound
    refine ⟨(ApprovalCall.idle idle distinct sound).saved,fun error thrown => ?_⟩
    exact ((call.ends idle distinct sound).error thrown).2

variable (c)

def approvalStep (s : ApprovalEngine) (call : ApprovalCall) : ApprovalEngine := (exec (call.run c) s).2

theorem approvals_clean_iff (clock : ℕ → ℤ) (calls : List ApprovalCall) (distinct : ∀ call ∈ calls, call.Distinct) :
    Data.Run.Meets (approvalStep c) (Clean c) (opening clock) calls ↔
      Data.Run.Meets (approvalStep c) (fun s call => ¬call.Leaks s) (opening clock) calls := by
  have idle : Idle c (opening clock) := ⟨rfl,rfl,fun r inside => absurd inside List.not_mem_nil⟩
  generalize opening clock = s at idle
  induction calls generalizing s with
  | nil => exact Iff.rfl
  | cons call calls ih =>
    obtain ⟨first,rest⟩ := List.forall_mem_cons.mp distinct
    refine (and_congr (clean_iff idle first) Iff.rfl).trans ?_
    exact and_congr_right fun sound => ih rest _ (ApprovalCall.idle idle first sound)

namespace Sample

def config : ApprovalConfig :=
  ⟨[⟨"operator",["approver"],["*"]⟩],fun _ => true,"1","hash",fun text => String.ofList text⟩

def input : ApprovalRequestInput where
  chain := "chain"
  serializedTransaction := .obj [("to",.null),("data",.null),("value",.null),("nonce",.null)]
  intentHash := "intent"
  policyHash := "policy"
  policyVersion := "1"
  simulationHash := "simulation"
  simulationBlock := "1"
  simulationState := "state"
  account := "account"
  nonce := "1"
  value := "0"
  calldata := "0x"
  router := "router"
  id := "request"
  type := .sign
  proposerId := "proposer"
  expiresAt := 100
  displayImpact := none

/-- The deadline is reached when the request is read, and no longer when it is consumed. -/
def clock (n : ℕ) : ℤ := if n = 3 ∨ n = 4 then 100 else 50

def before : List ApprovalCall := [.request input 1 "challenge",.get "request"]

def consumption : ApprovalCall := .consume "request" input.toBoundTransaction

def calls : List ApprovalCall := before ++ [consumption]

end Sample

open Sample in
theorem transaction_left_open : ¬Data.Run.Meets (approvalStep config) (Clean config) (opening clock) calls := by
  intro clean
  have last : Clean config (Data.Run.run (approvalStep config) (opening clock) before) consumption :=
    (@Data.Run.Meets.of_append _ _ _ _ _ before [consumption] clean).2.1
  have left : (exec (consumption.run config) (Data.Run.run (approvalStep config) (opening clock) before)).2.saved.isSome = true := by
    decide +kernel
  rw [last.1] at left
  cases left

open Sample in
theorem approvals_clean_timely : Data.Run.Meets (approvalStep config) (Clean config) (opening fun _ => 50) calls := by
  have distinct : ∀ call ∈ calls, call.Distinct := by
    simp [calls,before,consumption,ApprovalCall.Distinct,input,Execution.Distinct,DistinctFields]
  exact (approvals_clean_iff config (fun _ => 50) calls distinct).mpr (by decide +kernel)

end Runs

end RatifyOs.Execution
