import Mathlib.Data.List.Induction
import RatifyOs.Execution.ApprovalSafety

/-! Runs of the approval engine: any calls in any order, whatever they answer. -/
namespace RatifyOs.Execution
open Data Data.Session ApprovalEngine ApprovalTables

inductive ApprovalCall where
  | request (input : ApprovalRequestInput) (quorum : ℤ) (challenge : String)
  | decide (id : String) (input : DecisionInput)
  | revoke (id operatorId reason : String) (expectedRevision : ℕ)
  | get (id : String)
  | consume (id : String) (input : BoundTransaction)

section Runs
variable (c : ApprovalConfig)

def ApprovalCall.run : ApprovalCall → Engine (Option ApprovalRecord)
  | request input quorum challenge => ApprovalEngine.request c input quorum challenge
  | decide id input => ApprovalEngine.decide c id input
  | revoke id operatorId reason expectedRevision => ApprovalEngine.revoke c id operatorId reason expectedRevision
  | get id => ApprovalEngine.get c id
  | consume id input => ApprovalEngine.consume c id input

def runApprovals (s : ApprovalEngine) (calls : List ApprovalCall) : ApprovalEngine :=
  calls.foldl (fun s call => (exec (call.run c) s).2) s

def opening (clock : ℕ → ℤ) : ApprovalEngine := ⟨⟨.empty,[],[]⟩,none,false,clock⟩

/-- The rows a call may write for the first time. -/
def ApprovalCall.Fresh : ApprovalCall → ApprovalRow → Prop
  | request input quorum _, r => Requested c input quorum r
  | _, _ => False

/-- The row was written by a call of `request` while its id was free. -/
def FromRequest (clock : ℕ → ℤ) (calls : List ApprovalCall) (r : ApprovalRow) : Prop :=
  ∃ first input quorum challenge rest, calls = first ++ .request input quorum challenge :: rest ∧
    (runApprovals c (opening clock) first).tables.requests.find? r.id = none ∧ Requested c input quorum r

variable {c}

theorem Requested.same {input : ApprovalRequestInput} {quorum : ℤ} {r r' : ApprovalRow} (made : Requested c input quorum r)
    (same : Same r r') : Requested c input quorum r' := by
  rw [same]
  exact made

theorem ApprovalCall.keeps {s : ApprovalEngine} (safe : s.tables.Safe c.operators c.verify) (call : ApprovalCall) :
    Outer c s.tables (call.Fresh c) (exec (call.run c) s).2 := by
  have now (fresh : ApprovalRow → Prop) : Outer c s.tables fresh s := ⟨safe,.refl _ _⟩
  cases call with
  | request input quorum challenge => exact keeps_request input quorum challenge s (now _)
  | decide id input => exact keeps_decide id input s (now _)
  | revoke id operatorId reason expectedRevision => exact keeps_revoke id operatorId reason expectedRevision s (now _)
  | get id => exact keeps_engine_get frame_outer id s (now _)
  | consume id input => exact keeps_consume id input s (now _)

theorem runApprovals_safe (calls : List ApprovalCall) {s : ApprovalEngine} (safe : s.tables.Safe c.operators c.verify) :
    (runApprovals c s calls).tables.Safe c.operators c.verify := by
  induction calls generalizing s with
  | nil => exact safe
  | cons call calls ih => exact ih (ApprovalCall.keeps safe call).1

theorem runApprovals_kept (calls : List ApprovalCall) {s : ApprovalEngine} (safe : s.tables.Safe c.operators c.verify)
    {id : String} {r : ApprovalRow} (found : s.tables.requests.find? id = some r) (closed : r.status.live = false) :
    (runApprovals c s calls).tables.requests.find? id = some r := by
  induction calls generalizing s with
  | nil => exact found
  | cons call calls ih =>
    obtain ⟨safe',after⟩ := ApprovalCall.keeps safe call
    obtain ⟨r',found',_,last⟩ := after.kept r (Table.mem_of_find? found)
    rw [Table.key_of_find? found,last closed] at found'
    exact ih safe' found'

theorem runApprovals_origin (clock : ℕ → ℤ) (calls : List ApprovalCall) :
    ∀ r ∈ (runApprovals c (opening clock) calls).tables.requests.rows, FromRequest c clock calls r := by
  induction calls using List.reverseRecOn with
  | nil => exact fun r inside => by cases inside
  | append_singleton calls call ih =>
    have run : runApprovals c (opening clock) (calls ++ [call]) =
        (exec (call.run c) (runApprovals c (opening clock) calls)).2 := by
      simp [runApprovals,List.foldl_append]
    obtain ⟨_,after⟩ := ApprovalCall.keeps (runApprovals_safe calls (s := opening clock) safe_empty) call
    rw [run]
    intro r' inside
    obtain ⟨r,was,same⟩ | ⟨absent,r,made,same⟩ := after.origin r' inside
    · obtain ⟨first,input,quorum,challenge,rest,rfl,free,requested⟩ := ih r was
      refine ⟨first,input,quorum,challenge,rest ++ [call],by simp,?_,requested.same same⟩
      rw [same.id_eq]
      exact free
    · cases call with
      | request input quorum challenge => exact ⟨calls,input,quorum,challenge,[],rfl,absent,Requested.same made same⟩
      | _ => cases made

theorem exec_guarded_ok {α : Type} {p : Engine α} {undo : Engine Unit} {s s' : ApprovalEngine} {a : α}
    (done : exec (guarded p undo) s = (.ok a,s')) : exec p s = (.ok a,s') := by
  unfold guarded at done
  rw [exec_tryCatch] at done
  rcases ran : exec p s with ⟨error | answer,mid⟩
  · rw [ran] at done
    simp only [exec_bind_eq_ok] at done
    obtain ⟨_,_,_,thrown⟩ := done
    cases thrown
  · rw [ran] at done
    exact done

theorem consume_ok {id : String} {input : BoundTransaction} {answer : Option ApprovalRecord} {s s' : ApprovalEngine}
    (safe : s.tables.Safe c.operators c.verify) (done : exec (consume c id input) s = (.ok answer,s')) :
    (∃ r, s.tables.requests.find? id = some r ∧ r.status = .approved ∧ s.clock 0 < r.expiresAt ∧
      canonicalSerialize (boundKeys c input) = r.bindingJson) ∧
    ∃ r', s'.tables.requests.find? id = some r' ∧ r'.status = .consumed := by
  unfold consume opened beginImmediate at done
  simp only [exec_bind_eq_ok,exec_get_eq_ok,exec_reject_eq_ok,exec_modify_eq_ok] at done
  obtain ⟨_,_,⟨_,_,⟨rfl,rfl⟩,_,rfl⟩,_,_,⟨_,_,⟨rfl,rfl⟩,_,_,⟨_,rfl⟩,rfl⟩,done⟩ := done
  have inside := exec_guarded_ok done
  unfold consumeOpen at inside
  rw [exec_raw_bind,exec_ofOption_bind_eq_ok] at inside
  obtain ⟨r,found,inside⟩ := inside
  rw [exec_now_bind] at inside
  split at inside
  · simp only [exec_bind_eq_ok] at inside
    obtain ⟨_,_,_,_,_,_,thrown⟩ := inside
    cases thrown
  · rename_i alive
    simp only [exec_bind_eq_ok,exec_reject_eq_ok] at inside
    obtain ⟨_,_,⟨approved,rfl⟩,_,_,⟨exact_,rfl⟩,changes,mid,updated,_,_,⟨one,rfl⟩,_,mid',noted,_,mid'',committed,got⟩ := inside
    refine ⟨⟨r,found,not_not.mp approved,not_le.mp alive,not_not.mp exact_⟩,?_⟩
    obtain ⟨_,missed⟩ | ⟨r',found',_,_,changed⟩ := exec_updateStatus _ id r.revision
      (fun status => Decidable.decide (status = .approved)) .consumed
    · rw [missed] at updated
      cases updated
      exact absurd (show (0 : ℕ) ≠ 1 by decide) one
    · obtain rfl : r = r' := Option.some.inj (found.symm.trans found')
      obtain rfl : r.id = id := Table.key_of_find? found
      rw [changed] at updated
      cases updated
      have used : (s.tables.requests.put { r with status := .consumed, revision := r.revision + 1 }).find? r.id =
          some { r with status := .consumed, revision := r.revision + 1 } :=
        Table.find?_put_self (r := { r with status := .consumed, revision := r.revision + 1 }) found
      have live : r.status.live := by simp [not_not.mp approved,ApprovalStatus.live]
      have safe' := safe.update { r with status := .consumed, revision := r.revision + 1 } found rfl live
        fun _ => safe.quorum r (Table.mem_of_find? found) (by simp [not_not.mp approved,ApprovalStatus.granted])
      -- what follows the update keeps a request that is closed
      have recorded := keeps_event (c := c) frame_outer r.id "consumed" none none r.bindingJson (r.revision + 1) none
        ⟨_,some s.tables,s.closed,fun n => s.clock (n + 1)⟩ ⟨safe',.refl _ fun _ => False⟩
      rw [noted] at recorded
      simp only [commit,exec_bind_eq_ok,exec_get_eq_ok,exec_reject_eq_ok,exec_modify_eq_ok] at committed
      obtain ⟨_,_,⟨rfl,rfl⟩,_,_,⟨_,rfl⟩,rfl⟩ := committed
      have kept := keeps_engine_get frame_outer r.id { mid' with saved := none } recorded
      rw [got] at kept
      obtain ⟨r',found',_,last⟩ := kept.2.kept _ (Table.mem_of_find? used)
      exact ⟨r',found',congrArg ApprovalRow.status (last rfl)⟩

variable (c)

theorem approval_safe (clock : ℕ → ℤ) (calls : List ApprovalCall) :
    let s := runApprovals c (opening clock) calls
    (∀ r ∈ s.tables.requests.rows, FromRequest c clock calls r ∧
      (r.status.granted →
        let recorded := s.tables.decisions.filter (·.requestId = r.id)
        r.quorum ≤ recorded.length ∧ (recorded.map DecisionRow.operatorId).Nodup ∧
          ∀ d ∈ recorded, d.decision = .approve ∧ Backed c.operators c.verify r d) ∧
      (r.status.live = false → ∀ more, (runApprovals c s more).tables.requests.find? r.id = some r)) ∧
    (s.tables.decisions.map DecisionRow.nonce).Nodup ∧
    ∀ id input answer s', exec (consume c id input) s = (.ok answer,s') →
      (∃ r ∈ s.tables.requests.find? id, r.status = .approved ∧ s.clock 0 < r.expiresAt ∧
        canonicalSerialize (boundKeys c input) = r.bindingJson) ∧
      ∀ more again answer' s'', exec (consume c id again) (runApprovals c s' more) ≠ (.ok answer',s'') := by
  intro s
  have safe : s.tables.Safe c.operators c.verify := runApprovals_safe calls safe_empty
  refine ⟨fun r inside => ⟨runApprovals_origin clock calls r inside,?_,?_⟩,safe.nonces,?_⟩
  · intro granted recorded
    have enough := safe.quorum r inside granted
    refine ⟨?_,?_,?_⟩
    · have fewer : s.tables.approvals r.id ≤ recorded.length := by
        unfold ApprovalTables.approvals recorded
        rw [← List.countP_eq_length_filter]
        apply List.countP_mono_left
        intro d _ both
        simp only [decide_eq_true_eq] at both ⊢
        exact both.1
      omega
    · have pairs : (recorded.map fun d => (d.requestId,d.operatorId)).Nodup :=
        safe.once.sublist (List.filter_sublist.map _)
      have same : (recorded.map fun d => (d.requestId,d.operatorId)) =
          (recorded.map DecisionRow.operatorId).map (Prod.mk r.id) := by
        rw [List.map_map]
        apply List.map_congr_left
        intro d member
        simpa using List.of_mem_filter member
      rw [same] at pairs
      exact pairs.of_map
    · intro d member
      have job : d.requestId = r.id := by simpa using List.of_mem_filter member
      have listed := List.mem_of_mem_filter member
      have row : s.tables.requests.find? d.requestId = some r := by rw [job,Table.find?_of_mem inside]
      refine ⟨?_,?_⟩
      · cases decision : d.decision with
        | approve => rfl
        | deny =>
          have denied := safe.denied d listed decision r row
          rw [denied] at granted
          cases granted
      · obtain ⟨r',row',backed⟩ := safe.backed d listed
        obtain rfl : r' = r := Option.some.inj (row'.symm.trans row)
        exact backed
  · intro closed more
    exact runApprovals_kept more safe (Table.find?_of_mem inside) closed
  · intro id input answer s' done
    obtain ⟨before,r,found,consumed⟩ := consume_ok safe done
    refine ⟨before,fun more again answer' s'' twice => ?_⟩
    have safe' : s'.tables.Safe c.operators c.verify := by
      have kept := (ApprovalCall.keeps safe (.consume id input)).1
      change (exec (consume c id input) s).2.tables.Safe _ _ at kept
      rwa [done] at kept
    have closed : r.status.live = false := by simp [consumed,ApprovalStatus.live]
    have kept := runApprovals_kept more safe' found closed
    obtain ⟨⟨r',found',approved,_⟩,_⟩ := consume_ok (runApprovals_safe more safe') twice
    obtain rfl : r = r' := Option.some.inj (kept.symm.trans found')
    rw [consumed] at approved
    cases approved

end Runs

end RatifyOs.Execution
