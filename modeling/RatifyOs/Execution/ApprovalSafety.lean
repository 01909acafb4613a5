import RatifyOs.Execution.ApprovalEngine

/-! Approval safety: what every call of the engine keeps, however it ends, and what
therefore stands behind a request that was granted. -/
namespace RatifyOs.Execution
open Data Data.Session ApprovalEngine ApprovalTables

section Keeps
variable (c : ApprovalConfig) (before : ApprovalTables) (fresh : ApprovalRow → Prop)

/-- What holds of the tables between two calls. -/
def Outer (s : ApprovalEngine) : Prop := s.tables.Safe c.operators c.verify ∧ After before fresh s.tables

/-- What holds inside a transaction: a rollback keeps it too. -/
def Inner (s : ApprovalEngine) : Prop :=
  Outer c before fresh s ∧ ∀ t ∈ s.saved, t.Safe c.operators c.verify ∧ After before fresh t

/-- A property that a call keeps although it may open a transaction. -/
structure Frame (K : ApprovalEngine → Prop) : Prop where
  clock : ∀ s clock, K s → K { s with clock }
  events : ∀ s events, K s → K { s with tables := { s.tables with events } }
  begun : ∀ s, K s → s.saved = none → Inner c before fresh { s with saved := some s.tables }
  inner : ∀ s, Inner c before fresh s → K s

variable {c before fresh}

private theorem safe_events {t : ApprovalTables} (safe : t.Safe c.operators c.verify) (events : List EventRow) :
    Safe c.operators c.verify { t with events } :=
  ⟨safe.nonces,safe.once,safe.backed,safe.denied,safe.quorum⟩

private theorem after_events {t : ApprovalTables} (after : After before fresh t) (events : List EventRow) :
    After before fresh { t with events } :=
  ⟨after.kept,after.origin⟩

theorem frame_outer : Frame c before fresh (Outer c before fresh) where
  clock _ _ holds := holds
  events _ events holds := ⟨safe_events holds.1 events,after_events holds.2 events⟩
  begun s holds _ := by
    refine ⟨holds,fun t saved => ?_⟩
    cases saved
    exact holds
  inner _ holds := holds.1

theorem frame_inner : Frame c before fresh (Inner c before fresh) where
  clock _ _ holds := holds
  events _ events holds := ⟨frame_outer.events _ events holds.1,holds.2⟩
  begun s holds _ := frame_outer.begun s holds.1 ‹_›
  inner _ holds := holds

section Statements
variable {K : ApprovalEngine → Prop} (f : Frame c before fresh K)

theorem keeps_raw (id : String) : Keeps K (raw id) := fun _ holds => holds

include f

theorem keeps_now : Keeps K now := fun s holds => f.clock s _ holds

theorem keeps_begin {α : Type} {p : Engine α} (kept : Keeps (Inner c before fresh) p) :
    Keeps K (beginImmediate >>= fun _ => p) := by
  intro s holds
  rw [exec_bind]
  by_cases idle : s.saved = none
  · have opened : exec beginImmediate s = (.ok (),{ s with saved := some s.tables }) := by
      simp [beginImmediate,exec_bind,Session.reject,idle]
    rw [opened]
    exact f.inner _ (kept _ (f.begun s holds idle))
  · have busy : exec beginImmediate s = (.error "cannot start a transaction within a transaction",s) := by
      simp [beginImmediate,exec_bind,Session.reject,Option.isSome_iff_ne_none,idle]
    rw [busy]
    exact holds

theorem keeps_event (id event : String) (operator reason : Option String) (binding : Text) (revision : ℕ)
    (at_ : Option ℤ) : Keeps K (ApprovalEngine.event c id event operator reason binding revision at_) := by
  unfold ApprovalEngine.event
  refine keeps_bind ?_ fun createdAt => keeps_bind (keeps_ofOption _ _) fun parsed => ?_
  · cases at_ with
    | none => exact keeps_now f
    | some time => exact keeps_pure time
  · exact fun s holds => f.events s _ holds

end Statements

theorem keeps_commit : Keeps (Inner c before fresh) commit := by
  unfold commit
  refine keeps_bind keeps_get fun s => keeps_bind (keeps_reject _ _) fun _ => ?_
  exact keeps_modify fun s holds => ⟨holds.1,fun _ none_ => by cases none_⟩

theorem keeps_rollback : Keeps (Inner c before fresh) rollback := by
  unfold rollback
  refine keeps_read fun s holds => ?_
  cases saved : s.saved with
  | none => exact fun _ holds => holds
  | some tables =>
    intro s' _
    exact ⟨holds.2 tables saved,fun _ none_ => by cases none_⟩

theorem keeps_guarded {α : Type} {p : Engine α} {undo : Engine Unit} (kept : Keeps (Inner c before fresh) p)
    (undone : Keeps (Inner c before fresh) undo) : Keeps (Inner c before fresh) (guarded p undo) := by
  refine keeps_tryCatch kept fun error => keeps_bind ?_ fun _ => keeps_throw error
  exact keeps_tryCatch undone fun _ => keeps_pure _

theorem exec_updateStatus (s : ApprovalEngine) (id : String) (revision : ℕ) (from_ : ApprovalStatus → Bool)
    (status : ApprovalStatus) :
    ((∀ r ∈ s.tables.requests.find? id, r.revision = revision → ¬from_ r.status) ∧
        exec (updateStatus id revision from_ status) s = (.ok 0,s)) ∨
      ∃ r, s.tables.requests.find? id = some r ∧ r.revision = revision ∧ from_ r.status ∧
        exec (updateStatus id revision from_ status) s = (.ok 1,{ s with tables := { s.tables with
          requests := s.tables.requests.put { r with status, revision := r.revision + 1 } } }) := by
  unfold updateStatus
  rw [exec_bind,exec_get]
  dsimp only
  cases found : s.tables.requests.find? id with
  | none => exact .inl ⟨fun _ none_ => (by cases none_),rfl⟩
  | some r =>
    by_cases current : r.revision = revision ∧ from_ r.status = true
    · dsimp only
      rw [if_pos current]
      exact .inr ⟨r,rfl,current.1,current.2,rfl⟩
    · dsimp only
      rw [if_neg current]
      refine .inl ⟨?_,rfl⟩
      intro r' same revised now
      cases same
      exact current ⟨revised,now⟩

theorem keeps_updateStatus (id : String) (revision : ℕ) {from_ : ApprovalStatus → Bool} {status : ApprovalStatus}
    (live : ∀ x, from_ x → x.live) (granted : status.granted → ∀ x, from_ x → x.granted) :
    Keeps (Inner c before fresh) (updateStatus id revision from_ status) := by
  intro s holds
  obtain ⟨_,same⟩ | ⟨r,found,_,now,changed⟩ := exec_updateStatus s id revision from_ status
  · rw [same]
    exact holds
  · rw [changed]
    obtain rfl : r.id = id := Table.key_of_find? found
    refine ⟨⟨holds.1.1.update _ found rfl (live _ now) ?_,holds.1.2.update _ found rfl (live _ now)⟩,holds.2⟩
    intro grant
    exact holds.1.1.quorum r (Table.mem_of_find? found) (granted grant _ now)

theorem keeps_expire (r : ApprovalRow) : Keeps (Inner c before fresh) (expire c r) := by
  unfold expire
  refine keeps_bind ?_ fun changes => keeps_onlyIf _ (keeps_event frame_inner _ _ _ _ _ _ _)
  exact keeps_updateStatus _ _ (fun _ live => live) fun granted => by cases granted

theorem keeps_map {K : ApprovalEngine → Prop} (r : ApprovalRow) : Keeps K (ApprovalEngine.map c r) := by
  unfold ApprovalEngine.map
  exact keeps_bind (keeps_ofOption _ _) fun _ => keeps_bind (keeps_ofOption _ _) fun _ =>
    keeps_bind (keeps_reject _ _) fun _ => keeps_pure _

theorem keeps_opened {K : ApprovalEngine → Prop} : Keeps K opened := by
  unfold opened
  exact keeps_bind keeps_get fun s => keeps_reject _ _

section Reads
variable {K : ApprovalEngine → Prop} (f : Frame c before fresh K)
include f

theorem keeps_refreshed (r : ApprovalRow) : Keeps K (refreshed c r) := by
  unfold refreshed
  split
  · refine keeps_bind (keeps_now f) fun time => ?_
    split
    · refine keeps_begin f (keeps_bind ?_ fun _ => keeps_bind (keeps_raw _) fun _ => keeps_ofOption _ _)
      refine keeps_tryCatch (keeps_bind (keeps_expire r) fun _ => keeps_commit) fun error => ?_
      exact keeps_bind keeps_rollback fun _ => keeps_throw error
    · exact keeps_pure r
  · exact keeps_pure r

theorem keeps_engine_get (id : String) : Keeps K (ApprovalEngine.get c id) := by
  unfold ApprovalEngine.get
  refine keeps_bind keeps_opened fun _ => keeps_bind (keeps_raw id) fun found => ?_
  cases found with
  | none => exact keeps_pure none
  | some r => exact keeps_bind (keeps_refreshed f r) fun r => keeps_bind (keeps_map r) fun _ => keeps_pure _

theorem keeps_admitDecision (id : String) (input : DecisionInput) : Keeps K (admitDecision c id input) := by
  unfold admitDecision
  refine keeps_bind (keeps_raw id) fun found => keeps_bind (keeps_ofOption _ _) fun r => ?_
  refine keeps_bind (keeps_now f) fun _ => keeps_bind (keeps_reject _ _) fun _ => ?_
  refine keeps_bind (keeps_reject _ _) fun _ => keeps_bind (keeps_reject _ _) fun _ => ?_
  refine keeps_bind (keeps_reject _ _) fun _ => keeps_bind (keeps_ofOption _ _) fun _ => ?_
  refine keeps_bind (keeps_reject _ _) fun _ => keeps_bind ?_ fun timestamp => ?_
  · cases input.timestamp with
    | none => exact keeps_now f
    | some time => exact keeps_pure time
  refine keeps_bind (keeps_reject _ _) fun _ => keeps_bind (keeps_now f) fun _ => ?_
  refine keeps_bind (keeps_reject _ _) fun _ => keeps_bind (keeps_reject _ _) fun _ => ?_
  exact keeps_bind Session.keeps_get fun s => keeps_bind (keeps_reject _ _) fun _ => keeps_pure r

end Reads

theorem keeps_revoke (id operatorId reason : String) (expectedRevision : ℕ) :
    Keeps (Outer c before fresh) (revoke c id operatorId reason expectedRevision) := by
  unfold revoke
  refine keeps_bind keeps_opened fun _ => keeps_bind (keeps_reject _ _) fun _ => ?_
  refine keeps_begin frame_outer (keeps_guarded ?_ keeps_rollback)
  unfold revokeOpen
  refine keeps_bind (keeps_raw id) fun found => keeps_bind (keeps_ofOption _ _) fun r => ?_
  refine keeps_bind (keeps_ofOption _ _) fun _ => keeps_bind (keeps_reject _ _) fun _ => ?_
  refine keeps_bind (keeps_reject _ _) fun _ => keeps_bind ?_ fun changes => ?_
  · exact keeps_updateStatus _ _ (fun _ live => live) fun granted => by cases granted
  refine keeps_bind (keeps_reject _ _) fun _ => keeps_bind (keeps_event frame_inner _ _ _ _ _ _ _) fun _ => ?_
  exact keeps_bind keeps_commit fun _ => keeps_engine_get frame_inner id

theorem keeps_consume (id : String) (input : BoundTransaction) : Keeps (Outer c before fresh) (consume c id input) := by
  unfold consume
  refine keeps_bind keeps_opened fun _ => keeps_begin frame_outer (keeps_guarded ?_ ?_)
  · unfold consumeOpen
    refine keeps_bind (keeps_raw id) fun found => keeps_bind (keeps_ofOption _ _) fun r => ?_
    refine keeps_bind (keeps_now frame_inner) fun time => ?_
    split
    · exact keeps_bind (keeps_expire r) fun _ => keeps_bind keeps_commit fun _ => keeps_throw _
    · refine keeps_bind (keeps_reject _ _) fun _ => keeps_bind (keeps_reject _ _) fun _ => keeps_bind ?_ fun _ => ?_
      · refine keeps_updateStatus _ _ ?_ ?_
        · intro x approved
          simp_all [ApprovalStatus.live]
        · intro _ x approved
          simp_all [ApprovalStatus.granted]
      refine keeps_bind (keeps_reject _ _) fun _ => keeps_bind (keeps_event frame_inner _ _ _ _ _ _ _) fun _ => ?_
      exact keeps_bind keeps_commit fun _ => keeps_engine_get frame_inner id
  · exact keeps_bind (keeps_raw id) fun found => keeps_onlyIf _ keeps_rollback

theorem keeps_insertRequest {r : ApprovalRow} (pending : r.status = .pending) (made : fresh r) :
    Keeps (Outer c before fresh) (insertRequest r) := by
  intro s holds
  unfold insertRequest
  rw [exec_bind,exec_get]
  dsimp only
  rw [exec_reject_bind,exec_ofOption_bind]
  split
  · exact holds
  · cases inserted : s.tables.requests.insert? r with
    | none => exact holds
    | some requests => exact ⟨holds.1.insert inserted pending,holds.2.insert inserted made⟩

theorem keeps_validate {K : ApprovalEngine → Prop} (i : ApprovalRequestInput) : Keeps K (validate i) := by
  unfold validate text
  iterate 15 refine keeps_bind (keeps_reject _ _) fun _ => ?_
  exact keeps_reject _ _

/-- The rows that a call of `request` may write. -/
def Requested (c : ApprovalConfig) (input : ApprovalRequestInput) (quorum : ℤ) (r : ApprovalRow) : Prop :=
  r.id = input.id ∧ r.type = input.type ∧ r.proposerId = input.proposerId ∧ r.expiresAt = input.expiresAt ∧
    r.quorum = quorum ∧ r.bindingJson = canonicalSerialize (boundKeys c input.toBoundTransaction)

theorem keeps_request (input : ApprovalRequestInput) (quorum : ℤ) (challenge : String) :
    Keeps (Outer c before (Requested c input quorum)) (request c input quorum challenge) := by
  unfold request
  refine keeps_bind keeps_opened fun _ => keeps_bind (keeps_validate input) fun _ => ?_
  refine keeps_bind (keeps_reject _ _) fun _ => keeps_bind (keeps_now frame_outer) fun _ => ?_
  refine keeps_bind (keeps_reject _ _) fun _ => keeps_bind (keeps_now frame_outer) fun createdAt => ?_
  refine keeps_bind (keeps_insertRequest rfl ⟨rfl,rfl,rfl,rfl,rfl,rfl⟩) fun _ => ?_
  refine keeps_bind ?_ fun _ => keeps_engine_get frame_outer input.id
  exact keeps_event frame_outer _ _ _ _ _ _ _

section Decide

variable {α : Type} {s s' : ApprovalEngine}

theorem exec_raw_bind (id : String) (f : Option ApprovalRow → Engine α) :
    exec (raw id >>= f) s = exec (f (s.tables.requests.find? id)) s := rfl

theorem exec_now_bind (f : ℤ → Engine α) :
    exec (now >>= f) s = exec (f (s.clock 0)) { s with clock := fun n => s.clock (n + 1) } := rfl

/-- A proof that says no time is given the time of the check. -/
theorem exec_timestamp {given : Option ℤ} {time : ℤ}
    (done : exec (match given with
      | some time => pure time
      | none => now) s = (.ok time,s')) : ∃ clock, s' = { s with clock } := by
  cases given with
  | some _ =>
    obtain ⟨_,rfl⟩ := exec_pure_eq_ok.mp done
    exact ⟨s.clock,rfl⟩
  | none =>
    cases done
    exact ⟨_,rfl⟩

/-- What the checks of `decide` establish; they read the clock and change nothing else. -/
theorem admitDecision_ok {id : String} {input : DecisionInput} {r : ApprovalRow} {s s' : ApprovalEngine}
    (done : exec (admitDecision c id input) s = (.ok r,s')) :
    (∃ clock, s' = { s with clock }) ∧ s.tables.requests.find? id = some r ∧ r.status = .pending ∧
      r.revision = input.expectedRevision ∧
      (∀ d ∈ s.tables.decisions, ¬(d.requestId = id ∧ d.operatorId = input.operatorId)) ∧
      ∀ d : DecisionRow, d.operatorId = input.operatorId → d.decision = input.decision → d.nonce = input.nonce →
        Backed c.operators c.verify r d := by
  simp only [admitDecision,ApprovalEngine.operator,exec_raw_bind,exec_now_bind,exec_ofOption_bind_eq_ok,
    exec_reject_bind_eq_ok] at done
  obtain ⟨row,found,_,pending,revision,other,o,covers,challenge,done⟩ := done
  rw [exec_bind_eq_ok] at done
  obtain ⟨time,mid,timed,done⟩ := done
  obtain ⟨clock,rfl⟩ := exec_timestamp timed
  rw [exec_reject_bind_eq_ok,exec_now_bind,exec_reject_bind_eq_ok,exec_reject_bind_eq_ok,exec_bind,exec_get,
    exec_reject_bind_eq_ok,exec_pure_eq_ok] at done
  obtain ⟨_,_,verified,apart,rfl,rfl⟩ := done
  obtain ⟨listed,wide⟩ := Option.filter_eq_some_iff.mp covers
  have named : o.id = input.operatorId := by simpa using List.find?_some listed
  have key : row.id = id := Table.key_of_find? found
  refine ⟨⟨_,rfl⟩,found,not_not.mp pending,not_not.mp revision,fun d inside taken => apart ⟨d,inside,taken⟩,?_⟩
  intro d operatorId decision nonce
  refine ⟨operatorId ▸ other,⟨o,List.mem_of_find?_eq_some listed,named.trans operatorId.symm,wide⟩,_,
    by simpa using (not_or.mp verified).2,key.symm,operatorId.symm,decision.symm,nonce.symm,?_⟩
  exact not_not.mp challenge

theorem exec_insertDecision (s : ApprovalEngine) (d : DecisionRow) :
    (∃ error, exec (insertDecision d) s = (.error error,s)) ∨
      (∀ old ∈ s.tables.decisions, old.nonce ≠ d.nonce) ∧
        exec (insertDecision d) s =
          (.ok (),{ s with tables := { s.tables with decisions := s.tables.decisions ++ [d] } }) := by
  unfold insertDecision
  rw [exec_bind,exec_get]
  dsimp only
  rw [exec_reject_bind,exec_reject_bind]
  split
  · exact .inl ⟨_,rfl⟩
  split
  · exact .inl ⟨_,rfl⟩
  · rename_i fresh _
    exact .inr ⟨fun old inside same => fresh ⟨old,inside,same⟩,rfl⟩

theorem record_inner {id : String} {input : DecisionInput} {r : ApprovalRow} {s : ApprovalEngine}
    (holds : Inner c before fresh s) (found : s.tables.requests.find? id = some r) (pending : r.status = .pending)
    (revision : r.revision = input.expectedRevision)
    (apart : ∀ d ∈ s.tables.decisions, ¬(d.requestId = id ∧ d.operatorId = input.operatorId))
    (backed : ∀ d : DecisionRow, d.operatorId = input.operatorId → d.decision = input.decision → d.nonce = input.nonce →
      Backed c.operators c.verify r d) : Inner c before fresh (exec (recordDecision c id input r) s).2 := by
  obtain rfl : r.id = id := Table.key_of_find? found
  unfold recordDecision
  rw [exec_bind]
  change Inner c before fresh (exec (_ >>= _) { s with clock := fun n => s.clock (n + 1) }).2
  rw [exec_bind,exec_tryCatch]
  obtain ⟨error,refused⟩ | ⟨nonce,listed⟩ := exec_insertDecision { s with clock := fun n => s.clock (n + 1) }
    ⟨r.id,input.operatorId,input.decision,input.challenge,input.nonce,input.reason,s.clock 0,input.proof⟩
  · rw [refused]
    exact holds
  · rw [listed]
    dsimp only
    rw [exec_bind,exec_get]
    dsimp only
    rw [exec_bind]
    set d : DecisionRow :=
      ⟨r.id,input.operatorId,input.decision,input.challenge,input.nonce,input.reason,s.clock 0,input.proof⟩
    generalize chosen : (if input.decision = .deny then ApprovalStatus.denied else
      if (List.countP (fun d => decide (d.requestId = r.id ∧ d.decision = .approve)) (s.tables.decisions ++ [d]) : ℤ) ≥
        r.quorum then .approved else .pending) = status
    obtain ⟨missed,_⟩ | ⟨r',found',_,_,changed⟩ := exec_updateStatus
      ⟨{ s.tables with decisions := s.tables.decisions ++ [d] },s.saved,s.closed,fun n => s.clock (n + 1)⟩ r.id
      input.expectedRevision (fun _ => true) status
    · exact absurd rfl (missed r found revision)
    · obtain rfl : r = r' := Option.some.inj (found.symm.trans found')
      rw [changed]
      refine keeps_onlyIf _ (keeps_event frame_inner _ _ _ _ _ _ _) _ ⟨⟨?_,?_⟩,holds.2⟩
      · refine holds.1.1.decide found pending rfl (backed d rfl rfl rfl) nonce apart ?_ ?_
        · intro deny
          rw [← chosen,if_pos deny]
        · intro granted
          rw [← chosen] at granted
          split_ifs at granted with deny enough
          · cases granted
          · exact enough
          · cases granted
      · exact holds.1.2.decide found pending

theorem keeps_decide (id : String) (input : DecisionInput) : Keeps (Outer c before fresh) (decide c id input) := by
  unfold ApprovalEngine.decide
  refine keeps_bind keeps_opened fun _ => keeps_bind (keeps_reject _ _) fun _ => ?_
  refine keeps_begin frame_outer (keeps_guarded ?_ keeps_rollback)
  intro s holds
  unfold decideOpen
  rw [exec_bind]
  have admitted := keeps_admitDecision (c := c) (K := Inner c before fresh) frame_inner id input s holds
  rcases done : exec (admitDecision c id input) s with ⟨error | r,s'⟩
  · rw [done] at admitted
    exact admitted
  · rw [done] at admitted
    obtain ⟨⟨clock,rfl⟩,found,pending,revision,apart,backed⟩ := admitDecision_ok done
    have recorded := record_inner admitted found pending revision apart backed
    dsimp only
    rw [exec_bind]
    cases (exec (recordDecision c id input r) { s with clock }).1 with
    | error error => exact recorded
    | ok _ => exact (keeps_bind keeps_commit fun _ => keeps_engine_get frame_inner id) _ recorded

end Decide

end Keeps

end RatifyOs.Execution
