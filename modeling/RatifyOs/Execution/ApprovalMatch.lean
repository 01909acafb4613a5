import RatifyOs.Execution.ApprovalRuns

/-! When `consume` answers that the transaction is not the one that was approved. -/
namespace RatifyOs.Execution
open Data Data.Session ApprovalEngine ApprovalTables

def mismatch : String := "Exact transaction mismatch"

/-- An approval that `consume` goes on to compare. -/
def Available (s : ApprovalEngine) (id : String) : Prop :=
  s.closed = false ∧ s.saved = none ∧
    ∃ r, s.tables.requests.find? id = some r ∧ r.status = .approved ∧ s.clock 0 < r.expiresAt

section Texts
variable {c : ApprovalConfig} {a b : BoundTransaction}

theorem distinct_boundKeys : Distinct (boundKeys c a) := by
  simp [boundKeys,Distinct,DistinctFields]

private theorem ordered_boundKeys : ∃ fields, boundKeys c a = .obj fields ∧
    ordered (boundKeys c a) = .obj (sortKeys fields) := ⟨_,rfl,rfl⟩

theorem evidence_of_serialize_eq (same : canonicalSerialize (boundKeys c a) = canonicalSerialize (boundKeys c b)) :
    a.simulationHash = b.simulationHash ∧ a.simulationBlock = b.simulationBlock ∧
      a.simulationState = b.simulationState := by
  have sorted := ordered_of_serialize_eq distinct_boundKeys distinct_boundKeys same
  obtain ⟨fields,keys,arranged⟩ := ordered_boundKeys (c := c) (a := a)
  obtain ⟨fields',keys',arranged'⟩ := ordered_boundKeys (c := c) (a := b)
  rw [arranged,arranged',Json.obj.injEq] at sorted
  have perm : fields.Perm fields' := (sortKeys_perm fields).symm.trans (sorted ▸ sortKeys_perm fields')
  simp only [boundKeys,Json.obj.injEq] at keys keys'
  subst keys keys'
  have kept := fun key value => perm.subset (a := (key,Json.str value))
  refine ⟨?_,?_,?_⟩
  · simpa using kept "simulationHash" a.simulationHash (by simp)
  · simpa using kept "simulationBlock" a.simulationBlock (by simp)
  · simpa using kept "simulationState" a.simulationState (by simp)

end Texts

section Errors
variable (c : ApprovalConfig)

private theorem never_updateStatus (id : String) (revision : ℕ) (from_ : ApprovalStatus → Bool) (status : ApprovalStatus) :
    Never mismatch (updateStatus id revision from_ status) := by
  intro s
  obtain ⟨_,same⟩ | ⟨r,_,_,_,changed⟩ := exec_updateStatus s id revision from_ status
  · simp [same]
  · simp [changed]

private theorem never_now : Never mismatch now :=
  never_bind never_get fun _ => never_bind (never_modify _) fun _ => never_pure _

private theorem never_event (id event : String) (operator reason : Option String) (binding : Text) (revision : ℕ)
    (at_ : Option ℤ) : Never mismatch (ApprovalEngine.event c id event operator reason binding revision at_) := by
  unfold ApprovalEngine.event
  refine never_bind ?_ fun createdAt => never_bind (never_ofOption _ (by decide)) fun parsed => never_modify _
  cases at_ with
  | none => exact never_now
  | some time => exact never_pure time

private theorem never_commit : Never mismatch commit :=
  never_bind never_get fun _ => never_bind (never_reject _ (by decide)) fun _ => never_modify _

private theorem never_rollback : Never mismatch rollback :=
  never_bind never_get fun _ => never_bind (never_ofOption _ (by decide)) fun _ => never_modify _

private theorem never_begin : Never mismatch beginImmediate :=
  never_bind never_get fun _ => never_bind (never_reject _ (by decide)) fun _ => never_modify _

private theorem never_opened : Never mismatch opened := never_bind never_get fun _ => never_reject _ (by decide)

private theorem never_raw (id : String) : Never mismatch (raw id) := never_bind never_get fun _ => never_pure _

private theorem never_expire (r : ApprovalRow) : Never mismatch (expire c r) :=
  never_bind (never_updateStatus _ _ _ _) fun _ => never_onlyIf _ (never_event c _ _ _ _ _ _ _)

private theorem never_map (r : ApprovalRow) : Never mismatch (ApprovalEngine.map c r) := by
  unfold ApprovalEngine.map
  refine never_bind (never_ofOption _ (by decide)) fun _ => never_bind (never_ofOption _ (by decide)) fun _ => ?_
  exact never_bind (never_reject _ (by decide)) fun _ => never_pure _

private theorem never_refreshed (r : ApprovalRow) : Never mismatch (refreshed c r) := by
  unfold refreshed
  split
  · refine never_bind never_now fun time => ?_
    split
    · refine never_bind never_begin fun _ => never_bind (never_tryCatch ?_ ?_) fun _ => ?_
      · exact fun error other => never_bind never_rollback fun _ => never_throw other
      · exact never_bind (never_expire c r) fun _ => never_commit
      · exact never_bind (never_raw _) fun _ => never_ofOption _ (by decide)
    · exact never_pure r
  · exact never_pure r

private theorem never_engine_get (id : String) : Never mismatch (ApprovalEngine.get c id) := by
  unfold ApprovalEngine.get
  refine never_bind never_opened fun _ => never_bind (never_raw id) fun found => ?_
  cases found with
  | none => exact never_pure none
  | some r => exact never_bind (never_refreshed c r) fun r => never_bind (never_map c r) fun _ => never_pure _

private theorem mismatch_of_guarded {α : Type} {p : Engine α} {undo : Engine Unit} {s : ApprovalEngine} :
    (exec (guarded p undo) s).1 = .error mismatch ↔ (exec p s).1 = .error mismatch := by
  unfold guarded
  rw [exec_tryCatch]
  rcases ran : exec p s with ⟨error | answer,mid⟩
  · have undone : ∃ after, exec (tryCatch undo fun _ => pure ()) mid = (.ok (),after) := by
      rw [exec_tryCatch]
      rcases exec undo mid with ⟨other | done,after⟩ <;> exact ⟨after,rfl⟩
    obtain ⟨after,swallowed⟩ := undone
    simp [exec_bind,swallowed]
  · simp

private theorem never_use (id : String) (r : ApprovalRow) : Never mismatch (do
    let changes ← updateStatus id r.revision (fun status => Decidable.decide (status = .approved)) .consumed
    reject (changes ≠ 1) "Approval consumption conflict"
    ApprovalEngine.event c id "consumed" none none r.bindingJson (r.revision + 1) none
    commit
    ApprovalEngine.get c id) := by
  refine never_bind (never_updateStatus _ _ _ _) fun changes => never_bind (never_reject _ (by decide)) fun _ => ?_
  refine never_bind (never_event c _ _ _ _ _ _ _) fun _ => never_bind never_commit fun _ => ?_
  exact never_engine_get c id

private theorem consumeOpen_mismatch_iff {id : String} {input : BoundTransaction} {s : ApprovalEngine} {r : ApprovalRow}
    (found : s.tables.requests.find? id = some r) :
    (exec (consumeOpen c id input) s).1 = .error mismatch ↔ r.status = .approved ∧ s.clock 0 < r.expiresAt ∧
      canonicalSerialize (boundKeys c input) ≠ r.bindingJson := by
  rw [consumeOpen,exec_bind]
  change (exec (ofOption (s.tables.requests.find? id) _ >>= _) _).1 = _ ↔ _
  rw [exec_ofOption_bind,found]
  dsimp only
  rw [exec_bind]
  change (exec (if r.expiresAt ≤ s.clock 0 then _ else _) _).1 = _ ↔ _
  split
  · rename_i late
    have never : Never mismatch (expire c r >>= fun _ => commit >>= fun _ =>
        (throw "Approval expired" : Engine (Option ApprovalRecord))) :=
      never_bind (never_expire c r) fun _ => never_bind never_commit fun _ => never_throw (by decide)
    constructor
    · exact fun thrown => absurd thrown (never _)
    · exact fun all => absurd all.2.1 (not_lt.mpr late)
  · rename_i alive
    rw [exec_reject_bind,exec_reject_bind]
    split
    · rename_i other
      cases status : r.status <;> simp_all [mismatch,ApprovalStatus.text]
    · rename_i approved
      split
      · rename_i differs
        exact iff_of_true rfl ⟨not_not.mp approved,not_le.mp alive,differs⟩
      · rename_i same
        constructor
        · exact fun thrown => absurd thrown (never_use c id r _)
        · exact fun all => absurd all.2.2 same

theorem consume_mismatch_iff (id : String) (input : BoundTransaction) (s : ApprovalEngine) :
    (exec (consume c id input) s).1 = .error mismatch ↔ Available s id ∧
      ∃ r, s.tables.requests.find? id = some r ∧ canonicalSerialize (boundKeys c input) ≠ r.bindingJson := by
  by_cases shut : s.closed = true
  · have refused : exec (consume c id input) s = (.error "Approval engine is closed",s) := by
      simp [consume,opened,exec_bind,Session.reject,shut]
    simp [refused,Available,shut,mismatch]
  by_cases idle : s.saved = none
  · have begun : (exec (consume c id input) s).1 = .error mismatch ↔
        (exec (consumeOpen c id input) { s with saved := some s.tables }).1 = .error mismatch := by
      have ready : exec opened s = (.ok (),s) := by simp [opened,exec_bind,Session.reject,shut]
      have began : exec beginImmediate s = (.ok (),{ s with saved := some s.tables }) := by
        simp [beginImmediate,exec_bind,Session.reject,idle]
      rw [consume,exec_bind,ready]
      dsimp only
      rw [exec_bind,began]
      exact mismatch_of_guarded
    rw [begun]
    cases found : s.tables.requests.find? id with
    | none =>
      rw [consumeOpen,exec_bind]
      change (exec (ofOption (s.tables.requests.find? id) _ >>= _) _).1 = _ ↔ _
      rw [exec_ofOption_bind,found]
      simp [mismatch]
    | some r =>
      rw [consumeOpen_mismatch_iff c (s := { s with saved := some s.tables }) found]
      simp [Available,shut,idle,found,and_assoc]
  · have busy : exec (consume c id input) s = (.error "cannot start a transaction within a transaction",s) := by
      simp [consume,opened,beginImmediate,exec_bind,Session.reject,shut,Option.isSome_iff_ne_none,idle]
    simp [busy,Available,idle,mismatch]

end Errors

section Runs
variable {c : ApprovalConfig}

private theorem insertRequest_ok {r : ApprovalRow} {u : Unit} {s s' : ApprovalEngine}
    (safe : s.tables.Safe c.operators c.verify) (pending : r.status = .pending)
    (done : exec (insertRequest r) s = (.ok u,s')) :
    s'.tables.requests.find? r.id = some r ∧ s'.tables.Safe c.operators c.verify := by
  simp only [insertRequest,exec_bind_eq_ok,exec_get_eq_ok,exec_reject_eq_ok,exec_ofOption_eq_ok,exec_modify_eq_ok]
    at done
  obtain ⟨_,_,⟨rfl,rfl⟩,_,_,⟨_,rfl⟩,requests,_,⟨added,rfl⟩,rfl⟩ := done
  exact ⟨(Table.find?_insert? added r.id).trans (if_pos rfl),safe.insert added pending⟩

/-- The row of a request that was granted holds the text of what was asked for. -/
theorem request_ok {input : ApprovalRequestInput} {quorum : ℤ} {challenge : String} {answer : Option ApprovalRecord}
    {s s' : ApprovalEngine} (safe : s.tables.Safe c.operators c.verify)
    (done : exec (request c input quorum challenge) s = (.ok answer,s')) :
    ∃ r, s'.tables.requests.find? input.id = some r ∧
      r.bindingJson = canonicalSerialize (boundKeys c input.toBoundTransaction) := by
  unfold request at done
  simp only [exec_bind_eq_ok,exec_now_bind,exec_reject_eq_ok] at done
  obtain ⟨_,mid,ready,_,mid',valid,_,_,⟨_,rfl⟩,_,_,⟨_,rfl⟩,_,mid'',inserted,rest⟩ := done
  have safe' : mid'.tables.Safe c.operators c.verify := by
    have first := keeps_opened (K := fun s => s.tables.Safe c.operators c.verify) s safe
    rw [ready] at first
    have second := keeps_validate (K := fun s => s.tables.Safe c.operators c.verify) input mid first
    rwa [valid] at second
  obtain ⟨_,last,recorded,got⟩ := rest
  obtain ⟨there,safe''⟩ := insertRequest_ok (by exact safe') rfl inserted
  -- the event and the answer leave the text of the row as it is
  have noted := keeps_event (c := c) frame_outer input.id "created" none none
    (canonicalSerialize (boundKeys c input.toBoundTransaction)) 0 (some (mid'.clock 1)) mid''
    ⟨safe'',.refl mid''.tables fun _ => False⟩
  rw [recorded] at noted
  have kept := keeps_engine_get frame_outer input.id last noted
  rw [got] at kept
  obtain ⟨r,found,same,_⟩ := kept.2.kept _ (Table.mem_of_find? there)
  refine ⟨r,found,?_⟩
  rw [same]

theorem runApprovals_binding (calls : List ApprovalCall) {s : ApprovalEngine} (safe : s.tables.Safe c.operators c.verify)
    {id : String} {r : ApprovalRow} (found : s.tables.requests.find? id = some r) :
    ∃ r', (runApprovals c s calls).tables.requests.find? id = some r' ∧ r'.bindingJson = r.bindingJson := by
  induction calls generalizing s r with
  | nil => exact ⟨r,found,rfl⟩
  | cons call calls ih =>
    obtain ⟨safe',after⟩ := ApprovalCall.keeps safe call
    obtain ⟨r',found',same,_⟩ := after.kept r (Table.mem_of_find? found)
    rw [Table.key_of_find? found] at found'
    obtain ⟨r'',found'',kept⟩ := ih safe' found'
    refine ⟨r'',found'',kept.trans ?_⟩
    rw [same]

/-- The engine has taken this request, some calls ago. -/
def Filed (c : ApprovalConfig) (input : ApprovalRequestInput) (s : ApprovalEngine) : Prop :=
  ∃ clock first quorum challenge answer after rest, exec (request c input quorum challenge)
    (runApprovals c (opening clock) first) = (.ok answer,after) ∧ s = runApprovals c after rest

theorem consume_filed_iff {input : ApprovalRequestInput} {s : ApprovalEngine} (filed : Filed c input s)
    (other : BoundTransaction) : (exec (consume c input.id other) s).1 = .error mismatch ↔ Available s input.id ∧
      canonicalSerialize (boundKeys c other) ≠ canonicalSerialize (boundKeys c input.toBoundTransaction) := by
  obtain ⟨clock,first,quorum,challenge,answer,after,rest,done,rfl⟩ := filed
  have safe : (runApprovals c (opening clock) first).tables.Safe c.operators c.verify := runApprovals_safe first safe_empty
  have safe' := (ApprovalCall.keeps safe (.request input quorum challenge)).1
  change (exec (request c input quorum challenge) _).2.tables.Safe _ _ at safe'
  rw [done] at safe'
  obtain ⟨r,found,asked⟩ := request_ok safe done
  obtain ⟨r',found',kept⟩ := runApprovals_binding rest safe' found
  rw [consume_mismatch_iff,found']
  simp [kept,asked]

end Runs

end RatifyOs.Execution
