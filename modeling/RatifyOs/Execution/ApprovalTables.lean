import RatifyOs.Execution.Approvals

/-! What the rows of the approval tables say about one another, and the writes that keep
it so. -/
namespace RatifyOs.Execution
open Data

namespace ApprovalStatus

def live (status : ApprovalStatus) : Bool := status = .pending ∨ status = .approved

/-- The request was granted, and perhaps used. -/
def granted (status : ApprovalStatus) : Bool := status = .approved ∨ status = .consumed

end ApprovalStatus

/-- What stood behind a decision when it was recorded. -/
structure Backed (operators : List Operator) (verify : DecisionProof → Bool) (r : ApprovalRow) (d : DecisionRow) :
    Prop where
  other : d.operatorId ≠ r.proposerId
  covers : ∃ o ∈ operators, o.id = d.operatorId ∧ o.covers r.type
  proof : ∃ proof, verify proof = true ∧ proof.requestId = r.id ∧ proof.input.operatorId = d.operatorId ∧
    proof.input.decision = d.decision ∧ proof.input.nonce = d.nonce ∧ proof.input.challenge = r.challenge

/-- The columns that are written once. -/
def Same (r r' : ApprovalRow) : Prop := r' = { r with status := r'.status, revision := r'.revision }

theorem Same.refl (r : ApprovalRow) : Same r r := rfl

theorem Same.trans {a b c : ApprovalRow} (first : Same a b) (second : Same b c) : Same a c := by
  unfold Same at *
  rw [second,first]

theorem Same.id_eq {r r' : ApprovalRow} (same : Same r r') : r'.id = r.id := by rw [same]

theorem Same.backed {operators : List Operator} {verify : DecisionProof → Bool} {r r' : ApprovalRow} {d : DecisionRow}
    (same : Same r r') (backed : Backed operators verify r d) : Backed operators verify r' d := by
  rw [same]
  exact ⟨backed.other,backed.covers,backed.proof⟩

namespace ApprovalTables
variable (operators : List Operator) (verify : DecisionProof → Bool)

def approvals (t : ApprovalTables) (id : String) : ℕ :=
  t.decisions.countP fun d => d.requestId = id ∧ d.decision = .approve

structure Safe (t : ApprovalTables) : Prop where
  nonces : (t.decisions.map DecisionRow.nonce).Nodup
  once : (t.decisions.map fun d => (d.requestId,d.operatorId)).Nodup
  backed : ∀ d ∈ t.decisions, ∃ r, t.requests.find? d.requestId = some r ∧ Backed operators verify r d
  denied : ∀ d ∈ t.decisions, d.decision = .deny → ∀ r, t.requests.find? d.requestId = some r → r.status = .denied
  quorum : ∀ r ∈ t.requests.rows, r.status.granted → r.quorum ≤ t.approvals r.id

/-- What became of the requests of `before`, and where the other ones come from. -/
structure After (before : ApprovalTables) (fresh : ApprovalRow → Prop) (t : ApprovalTables) : Prop where
  kept : ∀ r ∈ before.requests.rows, ∃ r', t.requests.find? r.id = some r' ∧ Same r r' ∧ (r.status.live = false → r' = r)
  origin : ∀ r' ∈ t.requests.rows, (∃ r ∈ before.requests.rows, Same r r') ∨
    before.requests.find? r'.id = none ∧ ∃ r, fresh r ∧ Same r r'

variable {operators verify} {before t : ApprovalTables} {fresh : ApprovalRow → Prop}

theorem safe_empty : Safe operators verify ⟨.empty,[],[]⟩ := by
  constructor <;> simp

theorem After.refl (t : ApprovalTables) (fresh : ApprovalRow → Prop) : After t fresh t :=
  ⟨fun r inside => ⟨r,Table.find?_of_mem inside,.refl r,fun _ => rfl⟩,fun r inside => .inl ⟨r,inside,.refl r⟩⟩

section Update
variable {r : ApprovalRow} {new : ApprovalRow}

private theorem find?_update (found : t.requests.find? r.id = some r) (same : Same r new) {id : String} {old : ApprovalRow}
    (row : t.requests.find? id = some old) :
    ∃ r', (t.requests.put new).find? id = some r' ∧ Same old r' ∧ (old ≠ r → r' = old) ∧ (old = r → r' = new) := by
  have key : new.id = r.id := same.id_eq
  by_cases here : new.id = id
  · obtain rfl : r = old := by
      rw [← here,key,found] at row
      exact Option.some.inj row
    exact ⟨new,by rw [Table.find?_put,if_pos here,row]; rfl,same,fun other => absurd rfl other,fun _ => rfl⟩
  · refine ⟨old,by rw [Table.find?_put_of_ne here,row],.refl old,fun _ => rfl,?_⟩
    intro this
    rw [this] at row
    exact absurd (key.trans (Table.key_of_find? row)) here

theorem Safe.update (safe : Safe operators verify t) (new : ApprovalRow) (found : t.requests.find? r.id = some r) (same : Same r new)
    (live : r.status.live) (enough : new.status.granted → new.quorum ≤ t.approvals r.id) :
    Safe operators verify { t with requests := t.requests.put new } := by
  refine ⟨safe.nonces,safe.once,?_,?_,?_⟩
  · intro d inside
    obtain ⟨old,row,backed⟩ := safe.backed d inside
    obtain ⟨r',row',same',_⟩ := find?_update found same row
    exact ⟨r',row',same'.backed backed⟩
  · intro d inside deny r' row'
    obtain ⟨old,row,_⟩ := safe.backed d inside
    have denied := safe.denied d inside deny old row
    obtain ⟨r'',row'',_,other,_⟩ := find?_update found same row
    obtain rfl : r'' = r' := Option.some.inj (row''.symm.trans row')
    rw [other ?_]
    · exact denied
    · intro this
      rw [this] at denied
      simp [denied,ApprovalStatus.live] at live
  · intro r' inside granted
    obtain rfl | ⟨was,_⟩ := Table.mem_put inside
    · rw [same.id_eq]
      exact enough granted
    · exact safe.quorum r' was granted

theorem After.update (after : After before fresh t) (new : ApprovalRow) (found : t.requests.find? r.id = some r) (same : Same r new)
    (live : r.status.live) : After before fresh { t with requests := t.requests.put new } := by
  refine ⟨?_,?_⟩
  · intro old inside
    obtain ⟨mid,row,same',last⟩ := after.kept old inside
    obtain ⟨r',row',same'',other,_⟩ := find?_update found same row
    refine ⟨r',row',same'.trans same'',fun final => ?_⟩
    rw [other ?_,last final]
    intro this
    rw [last final] at this
    rw [this,live] at final
    cases final
  · intro r' inside
    obtain rfl | ⟨was,_⟩ := Table.mem_put inside
    · obtain ⟨old,inside',same'⟩ | ⟨absent,made,is_fresh,same'⟩ := after.origin r (Table.mem_of_find? found)
      · exact .inl ⟨old,inside',same'.trans same⟩
      · refine .inr ⟨?_,made,is_fresh,same'.trans same⟩
        rw [same.id_eq]
        exact absent
    · exact after.origin r' was

end Update

theorem Safe.append {r : ApprovalRow} {d : DecisionRow} (safe : Safe operators verify t)
    (found : t.requests.find? d.requestId = some r) (backed : Backed operators verify r d)
    (nonce : ∀ old ∈ t.decisions, old.nonce ≠ d.nonce)
    (once : ∀ old ∈ t.decisions, ¬(old.requestId = d.requestId ∧ old.operatorId = d.operatorId))
    (denied : d.decision = .deny → r.status = .denied) :
    Safe operators verify { t with decisions := t.decisions ++ [d] } := by
  have append {α : Type} (f : DecisionRow → α) (was : (t.decisions.map f).Nodup)
      (apart : ∀ old ∈ t.decisions, f old ≠ f d) : ((t.decisions ++ [d]).map f).Nodup := by
    rw [List.map_append,List.nodup_append]
    refine ⟨was,by simp,?_⟩
    intro a inside b single same
    obtain ⟨old,is_old,rfl⟩ := List.mem_map.mp inside
    simp only [List.map_cons,List.map_nil,List.mem_singleton] at single
    exact apart old is_old (same.trans single)
  refine ⟨append _ safe.nonces nonce,append _ safe.once ?_,?_,?_,?_⟩
  · intro old inside same
    simp only [Prod.mk.injEq] at same
    exact once old inside same
  · simp only [List.forall_mem_append,List.forall_mem_singleton]
    exact ⟨safe.backed,r,found,backed⟩
  · simp only [List.forall_mem_append,List.forall_mem_singleton]
    refine ⟨safe.denied,fun deny r' row => ?_⟩
    obtain rfl : r = r' := Option.some.inj (found.symm.trans row)
    exact denied deny
  · intro r' inside granted
    have enough := safe.quorum r' inside granted
    have more : t.approvals r'.id ≤ approvals { t with decisions := t.decisions ++ [d] } r'.id := by
      simp only [approvals,List.countP_append]
      omega
    omega

/-- The tables after a decision was recorded and the request updated. -/
def decided (t : ApprovalTables) (d : DecisionRow) (new : ApprovalRow) : ApprovalTables :=
  { t with requests := t.requests.put new, decisions := t.decisions ++ [d] }

theorem Safe.decide (safe : Safe operators verify t) {r : ApprovalRow} {d : DecisionRow}
    (found : t.requests.find? r.id = some r) (pending : r.status = .pending) (job : d.requestId = r.id)
    (backed : Backed operators verify r d) (nonce : ∀ old ∈ t.decisions, old.nonce ≠ d.nonce)
    (once : ∀ old ∈ t.decisions, ¬(old.requestId = r.id ∧ old.operatorId = d.operatorId)) {status : ApprovalStatus}
    {revision : ℕ} (denied : d.decision = .deny → status = .denied)
    (enough : status.granted → r.quorum ≤ approvals { t with decisions := t.decisions ++ [d] } r.id) :
    Safe operators verify (decided t d { r with status, revision }) := by
  have live : r.status.live := by simp [pending,ApprovalStatus.live]
  rw [← job] at once
  cases decision : d.decision with
  | approve =>
    -- nobody has denied, so the decision comes first
    have listed := safe.append (job ▸ found) backed nonce once fun deny => by rw [decision] at deny; cases deny
    exact listed.update (r := r) _ found rfl live enough
  | deny =>
    have closing := denied decision
    have closed := safe.update { r with status, revision } found rfl live fun granted => by
      rw [closing] at granted
      cases granted
    refine closed.append (r := { r with status, revision }) ?_ (Same.backed rfl backed) nonce once fun _ => closing
    rw [job]
    exact Table.find?_put_self (r := { r with status, revision }) found

theorem After.decide (after : After before fresh t) {r : ApprovalRow} {d : DecisionRow}
    (found : t.requests.find? r.id = some r) (pending : r.status = .pending) {status : ApprovalStatus} {revision : ℕ} :
    After before fresh (decided t d { r with status, revision }) := by
  have moved := after.update { r with status, revision } found rfl (by simp [pending,ApprovalStatus.live])
  exact ⟨moved.kept,moved.origin⟩

theorem Safe.insert {r : ApprovalRow} {requests : Table ApprovalRow.id} (safe : Safe operators verify t)
    (inserted : t.requests.insert? r = some requests) (pending : r.status = .pending) :
    Safe operators verify { t with requests } := by
  have found := Table.find?_insert? inserted
  obtain ⟨absent,rows⟩ := Table.insert?_eq_some_iff.mp inserted
  have other : ∀ d ∈ t.decisions, r.id ≠ d.requestId := by
    intro d inside same
    obtain ⟨old,row,_⟩ := safe.backed d inside
    rw [← same,absent] at row
    cases row
  refine ⟨safe.nonces,safe.once,?_,?_,?_⟩
  · intro d inside
    obtain ⟨old,row,backed⟩ := safe.backed d inside
    exact ⟨old,by rw [found,if_neg (other d inside),row],backed⟩
  · intro d inside deny r' row
    rw [found,if_neg (other d inside)] at row
    exact safe.denied d inside deny r' row
  · simp only [rows,List.forall_mem_append,List.forall_mem_singleton]
    refine ⟨safe.quorum,fun granted => ?_⟩
    simp [pending,ApprovalStatus.granted] at granted

theorem After.insert {r : ApprovalRow} {requests : Table ApprovalRow.id} (after : After before fresh t)
    (inserted : t.requests.insert? r = some requests) (made : fresh r) : After before fresh { t with requests } := by
  have found := Table.find?_insert? inserted
  obtain ⟨absent,rows⟩ := Table.insert?_eq_some_iff.mp inserted
  refine ⟨?_,?_⟩
  · intro old inside
    obtain ⟨r',row,same,last⟩ := after.kept old inside
    refine ⟨r',?_,same,last⟩
    rw [found,if_neg,row]
    intro here
    rw [here,row] at absent
    cases absent
  · simp only [rows,List.forall_mem_append,List.forall_mem_singleton]
    refine ⟨after.origin,.inr ⟨?_,r,made,.refl r⟩⟩
    cases was : before.requests.find? r.id with
    | none => rfl
    | some old =>
      obtain ⟨r',row,_⟩ := after.kept old (Table.mem_of_find? was)
      rw [Table.key_of_find? was,absent] at row
      cases row

end ApprovalTables

end RatifyOs.Execution
