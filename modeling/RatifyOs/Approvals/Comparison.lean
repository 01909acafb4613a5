import RatifyOs.Approvals.Binding

/-! No request that was stored is ever found corrupt, and no other transaction is taken for the one
that was approved. -/
namespace RatifyOs.Approvals
open Data Data.JsValue Data.Session Execution
open Execution.ApprovalEngine (opened guarded)

section Keys
variable {c : ApprovalConfig} {i j : BoundTransaction}

theorem boundFields_distinct (i : BoundTransaction) (hash : String) : ((boundFields i hash).map (·.1)).Nodup := by
  change ([Utf16.ofString "chain",Utf16.ofString "transactionHash",Utf16.ofString "intentHash",
    Utf16.ofString "policyHash",Utf16.ofString "policyVersion",Utf16.ofString "simulationHash",
    Utf16.ofString "simulationBlock",Utf16.ofString "simulationState",Utf16.ofString "account",
    Utf16.ofString "nonce",Utf16.ofString "value",Utf16.ofString "calldata",Utf16.ofString "router"]).Nodup
  decide +kernel

theorem boundFields_wellFormed (i : BoundTransaction) (hash : String) : (JsValue.obj (boundFields i hash)).WellFormed :=
  ⟨boundFields_distinct i hash,by simp [boundFields,WellFormedFields,WellFormed]⟩

theorem boundKeys_eq_ok {keys : JsValue} : boundKeys c i = .ok keys ↔
    ∃ text, canonicalSerialize i.serializedTransaction = .ok text ∧ keys = .obj (boundFields i (digest c text)) := by
  simp only [boundKeys,canonicalHash,Result.bind_eq_ok,Result.pure_eq_ok]
  constructor
  · rintro ⟨_,⟨text,written,rfl⟩,rfl⟩
    exact ⟨text,written,rfl⟩
  · rintro ⟨text,written,rfl⟩
    exact ⟨_,⟨text,written,rfl⟩,rfl⟩

theorem binding_eq_ok {text : Text} : binding c i = .ok text ↔
    ∃ tx, canonicalSerialize i.serializedTransaction = .ok tx ∧
      canonicalSerialize (.obj (boundFields i (digest c tx))) = .ok text := by
  simp only [binding,Result.bind_eq_ok,boundKeys_eq_ok]
  constructor
  · rintro ⟨_,⟨tx,written,rfl⟩,bound⟩
    exact ⟨tx,written,bound⟩
  · rintro ⟨tx,written,bound⟩
    exact ⟨_,⟨tx,written,rfl⟩,bound⟩

theorem parse_boundFields {hash : String} {text : Text}
    (written : canonicalSerialize (.obj (boundFields i hash)) = .ok text) :
    parse text = some (.obj (Keyed.sort (boundFields i hash))) :=
  parse_serialize (boundFields_wellFormed i hash) written

theorem boundFields_eq {hash hash' : String} {text : Text} (written : canonicalSerialize (.obj (boundFields i hash)) = .ok text)
    (written' : canonicalSerialize (.obj (boundFields j hash')) = .ok text) : boundFields i hash = boundFields j hash' := by
  have read := parse_boundFields written
  rw [parse_boundFields written',Option.some.injEq,JsValue.obj.injEq] at read
  have perm := (Keyed.sort_perm (boundFields i hash)).symm
  rw [← read] at perm
  exact Keyed.eq_of_perm rfl (perm.trans (Keyed.sort_perm _)) (boundFields_distinct i hash)

/-- The transactions are told apart by the hash of their texts. -/
def Apart (c : ApprovalConfig) (i j : BoundTransaction) : Prop :=
  ∀ tx tx', canonicalSerialize i.serializedTransaction = .ok tx → canonicalSerialize j.serializedTransaction = .ok tx' →
    digest c tx = digest c tx' → tx = tx'

theorem same_of_binding {text : Text} (bound : binding c i = .ok text) (bound' : binding c j = .ok text)
    (apart : Apart c i j) : i.Same j := by
  obtain ⟨tx,written,keys⟩ := binding_eq_ok.mp bound
  obtain ⟨tx',written',keys'⟩ := binding_eq_ok.mp bound'
  have same := boundFields_eq keys keys'
  simp only [boundFields,List.cons.injEq,Prod.mk.injEq,JsValue.str.injEq,true_and,and_true] at same
  obtain ⟨chain,hash,others⟩ := same
  have texts := apart tx tx' written written' (Utf16.ofString_injective hash)
  refine ⟨?_,(text_eq_iff i.wellFormed j.wellFormed written written').mp texts⟩
  simp only [BoundTransaction.texts,List.cons.injEq,and_true]
  exact ⟨chain,others⟩

end Keys

section Filed
variable {c : ApprovalConfig} {input : ApprovalRequestInput} {r : ApprovalRow}

structure Filed (c : ApprovalConfig) (input : ApprovalRequestInput) (r : ApprovalRow) : Prop where
  id : r.id = input.id
  transaction : canonicalSerialize input.serializedTransaction = .ok r.txJson
  bound : binding c input.toBoundTransaction = .ok r.bindingJson

theorem requestRow_filed {quorum : ℤ} {challenge : String} {createdAt : ℤ}
    (made : requestRow c input quorum challenge createdAt = .ok r) : Filed c input r := by
  simp only [requestRow,Result.bind_eq_ok,Result.pure_eq_ok] at made
  obtain ⟨tx,written,text,bound,rfl⟩ := made
  exact ⟨rfl,written,bound⟩

/-- The hash that is read back from the row is that of the transaction read back from it. -/
theorem map_filed (filed : Filed c input r) : ∃ record, map c r = .ok record ∧
    canonicalSerialize record.serializedTransaction = .ok r.txJson := by
  obtain ⟨tx,written,bound⟩ := binding_eq_ok.mp filed.bound
  obtain rfl : tx = r.txJson := Except.ok.inj (written.symm.trans filed.transaction)
  have keys := parse_boundFields bound
  have transaction := parse_serialize input.wellFormed written
  have again := serialize_ordered _ written
  have there : (Utf16.ofString "transactionHash",JsValue.str (.ofString (digest c r.txJson))) ∈
      Keyed.sort (boundFields input.toBoundTransaction (digest c r.txJson)) := by
    apply (Keyed.sort_perm _).mem_iff.mpr
    exact .tail _ (.head _)
  have distinct := (Keyed.keys_sort _).nodup_iff.mpr (boundFields_distinct input.toBoundTransaction (digest c r.txJson))
  have stored := Keyed.lookup_of_mem distinct there
  refine ⟨record r (.obj (Keyed.sort (boundFields input.toBoundTransaction (digest c r.txJson))))
    (ordered input.serializedTransaction),?_,again⟩
  simp [map,keys,transaction,canonicalHash,again,property,stored,map.textOf,Result.reject]

end Filed

section Runs
variable {c : ApprovalConfig} {P : ApprovalRow → Prop}

/-- Every row has the property, those that a rollback brings back too. -/
def Holds (P : ApprovalRow → Prop) (s : ApprovalEngine) : Prop :=
  (∀ r ∈ s.tables.requests.rows, P r) ∧ ∀ t ∈ s.saved, ∀ r ∈ t.requests.rows, P r

theorem keeps_beginImmediate : Keeps (Holds P) ApprovalEngine.beginImmediate := by
  unfold ApprovalEngine.beginImmediate
  refine keeps_bind keeps_get fun s => keeps_bind (keeps_reject _ _) fun _ => keeps_modify fun s holds => ⟨holds.1,?_⟩
  intro t saved
  cases saved
  exact holds.1

theorem keeps_rows_commit : Keeps (Holds P) ApprovalEngine.commit := by
  unfold ApprovalEngine.commit
  refine keeps_bind keeps_get fun s => keeps_bind (keeps_reject _ _) fun _ => ?_
  exact keeps_modify fun s holds => ⟨holds.1,fun _ none_ => by cases none_⟩

theorem keeps_rows_rollback : Keeps (Holds P) ApprovalEngine.rollback := by
  unfold ApprovalEngine.rollback
  refine keeps_read fun s holds => ?_
  cases saved : s.saved with
  | none => exact fun _ holds => holds
  | some tables =>
    intro s' _
    exact ⟨holds.2 tables saved,fun _ none_ => by cases none_⟩

theorem keeps_rows_insert {r : ApprovalRow} (holds_ : P r) : Keeps (Holds P) (ApprovalEngine.insertRequest r) := by
  intro s holds
  unfold ApprovalEngine.insertRequest
  rw [exec_bind,exec_get]
  dsimp only
  rw [exec_reject_bind,exec_ofOption_bind]
  split
  · exact holds
  · cases inserted : s.tables.requests.insert? r with
    | none => exact holds
    | some requests =>
      refine ⟨fun r' inside => ?_,holds.2⟩
      obtain ⟨_,rows⟩ := Table.insert?_eq_some_iff.mp inserted
      change r' ∈ requests.rows at inside
      rw [rows] at inside
      rcases List.mem_append.mp inside with old | new
      · exact holds.1 r' old
      · rwa [List.mem_singleton.mp new]

theorem keeps_rows_update (updated : ∀ r status revision, P r → P { r with status, revision }) (id : String) (revision : ℕ)
    (from_ : ApprovalStatus → Bool) (status : ApprovalStatus) :
    Keeps (Holds P) (ApprovalEngine.updateStatus id revision from_ status) := by
  intro s holds
  obtain ⟨_,same⟩ | ⟨r,found,_,_,changed⟩ := exec_updateStatus s id revision from_ status
  · rw [same]
    exact holds
  · rw [changed]
    refine ⟨fun r' inside => ?_,holds.2⟩
    rcases Table.mem_put inside with new | old
    · rw [new]
      exact updated r _ _ (holds.1 r (Table.mem_of_find? found))
    · exact holds.1 r' old.1

section Methods
variable (updated : ∀ r status revision, P r → P { r with status, revision })

theorem keeps_now : Keeps (Holds P) ApprovalEngine.now := fun _ holds => holds

theorem keeps_returned {α : Type} (x : Except String α) : Keeps (Holds P) (returned x) := by
  cases x with
  | ok a => exact keeps_pure a
  | error e => exact keeps_throw e

theorem keeps_event (id name : String) (operator reason : Option String) (binding : Text) (revision : ℕ) :
    Keeps (Holds P) (event c id name operator reason binding revision) := by
  unfold event
  refine keeps_bind keeps_now fun _ => keeps_bind (keeps_ofOption _ _) fun parsed => ?_
  exact keeps_bind (keeps_returned _) fun _ => keeps_modify fun s holds => holds

include updated

theorem keeps_expire (r : ApprovalRow) : Keeps (Holds P) (expire c r) := by
  unfold expire
  exact keeps_bind (keeps_rows_update updated _ _ _ _) fun _ => keeps_onlyIf _ (keeps_event _ _ _ _ _ _)

theorem keeps_refreshed (r : ApprovalRow) : Keeps (Holds P) (refreshed c r) := by
  unfold refreshed
  split
  · refine keeps_bind keeps_now fun time => ?_
    split
    · refine keeps_bind keeps_beginImmediate fun _ => keeps_bind ?_ fun _ => keeps_bind (keeps_raw _) fun _ => keeps_ofOption _ _
      refine keeps_tryCatch (keeps_bind (keeps_expire updated r) fun _ => keeps_rows_commit) fun error => ?_
      exact keeps_bind keeps_rows_rollback fun _ => keeps_throw error
    · exact keeps_pure r
  · exact keeps_pure r

theorem keeps_rows_get (id : String) : Keeps (Holds P) (get c id) := by
  unfold get
  refine keeps_bind keeps_opened fun _ => keeps_bind (keeps_raw id) fun found => ?_
  cases found with
  | none => exact keeps_pure none
  | some r =>
    exact keeps_bind (keeps_refreshed updated r) fun r => keeps_bind (keeps_returned _) fun _ => keeps_pure _

theorem keeps_consume (id : String) (input : BoundTransaction) : Keeps (Holds P) (consume c id input) := by
  unfold consume
  refine keeps_bind keeps_opened fun _ => keeps_bind keeps_beginImmediate fun _ => ?_
  have undone : Keeps (Holds P) (do
      let found ← ApprovalEngine.raw id
      onlyIf (found.map (·.status) ≠ some .expired) ApprovalEngine.rollback) :=
    keeps_bind (keeps_raw id) fun found => keeps_onlyIf _ keeps_rows_rollback
  refine keeps_tryCatch ?_ fun error => keeps_bind (keeps_tryCatch undone fun _ => keeps_pure _) fun _ => keeps_throw error
  unfold consumeOpen
  refine keeps_bind (keeps_raw id) fun found => keeps_bind (keeps_ofOption _ _) fun r => keeps_bind keeps_now fun time => ?_
  split
  · exact keeps_bind (keeps_expire updated r) fun _ => keeps_bind keeps_rows_commit fun _ => keeps_throw _
  · refine keeps_bind (keeps_reject _ _) fun _ => keeps_bind (keeps_returned _) fun _ => keeps_bind (keeps_reject _ _) fun _ => ?_
    refine keeps_bind (keeps_rows_update updated _ _ _ _) fun _ => keeps_bind (keeps_reject _ _) fun _ => ?_
    exact keeps_bind (keeps_event _ _ _ _ _ _) fun _ => keeps_bind keeps_rows_commit fun _ => keeps_rows_get updated id

end Methods

/-- A statement keeps a property of the rows that no update can take from one, if what it inserts has it. -/
theorem keeps_statement (updated : ∀ r status revision, P r → P { r with status, revision }) (statement : Statement)
    (inserted : ∀ input quorum challenge createdAt r, statement = .request input quorum challenge createdAt →
      requestRow c input quorum challenge createdAt = .ok r → P r) : Keeps (Holds P) (statement.run c) := by
  cases statement with
  | beginImmediate => exact keeps_beginImmediate
  | commit => exact keeps_rows_commit
  | rollback => exact keeps_rows_rollback
  | request input quorum challenge createdAt =>
    rw [Statement.run]
    cases made : requestRow c input quorum challenge createdAt with
    | error error => exact fun s holds => holds
    | ok r =>
      rw [returned,pure_bind]
      exact keeps_rows_insert (inserted input quorum challenge createdAt r rfl made)
  | updateStatus id revision from_ status => exact keeps_bind (keeps_rows_update updated _ _ _ _) fun _ => keeps_pure _
  | decision d =>
    rw [Statement.run,ApprovalEngine.insertDecision]
    refine keeps_bind keeps_get fun s => keeps_bind (keeps_reject _ _) fun _ => keeps_bind (keeps_reject _ _) fun _ => ?_
    exact keeps_modify fun s holds => holds
  | event e => exact keeps_modify fun s holds => holds
  | get id => exact keeps_bind (keeps_rows_get updated id) fun _ => keeps_pure _
  | consume id input => exact keeps_bind (keeps_consume updated id input) fun _ => keeps_pure _

/-- Every row was inserted by a request, and still holds its texts. -/
theorem rows_filed (clock : ℕ → ℤ) (statements : List Statement) {r : ApprovalRow}
    (inside : r ∈ (after c clock statements).tables.requests.rows) : ∃ input quorum challenge createdAt,
      .request input quorum challenge createdAt ∈ statements ∧ Filed c input r := by
  have keeps : ∀ s statement, statement ∈ statements →
      Holds (fun r => ∃ input quorum challenge createdAt, .request input quorum challenge createdAt ∈ statements ∧
        Filed c input r) s →
      Holds (fun r => ∃ input quorum challenge createdAt, .request input quorum challenge createdAt ∈ statements ∧
        Filed c input r) (statementStep c s statement) := by
    intro s statement asked holds
    refine keeps_statement ?_ statement ?_ s holds
    · rintro r status revision ⟨input,quorum,challenge,createdAt,there,filed⟩
      exact ⟨input,quorum,challenge,createdAt,there,filed.id,filed.transaction,filed.bound⟩
    · rintro input quorum challenge createdAt r rfl made
      exact ⟨input,quorum,challenge,createdAt,asked,requestRow_filed made⟩
  have start : Holds (fun r => ∃ input quorum challenge createdAt,
      .request input quorum challenge createdAt ∈ statements ∧ Filed c input r) (opening clock) :=
    ⟨fun r none_ => absurd none_ List.not_mem_nil,fun t none_ => by cases none_⟩
  exact (Data.Run.invariant keeps start (Data.Run.Meets.of_forall (fun _ there => there) _)).1 r inside

end Runs

section Consume
variable {c : ApprovalConfig}

theorem returned_eq_ok {α : Type} {x : Except String α} {a : α} {s s' : ApprovalEngine} :
    exec (returned x) s = (.ok a,s') ↔ x = .ok a ∧ s = s' := by
  cases x <;> simp [returned]

theorem consume_ok_binding {id : String} {input : BoundTransaction} {answer : Option ApprovalRecord} {s s' : ApprovalEngine}
    (done : exec (consume c id input) s = (.ok answer,s')) :
    ∃ r ∈ s.tables.requests.rows, r.id = id ∧ binding c input = .ok r.bindingJson := by
  unfold consume opened ApprovalEngine.beginImmediate at done
  simp only [exec_bind_eq_ok,exec_get_eq_ok,exec_reject_eq_ok,exec_modify_eq_ok] at done
  obtain ⟨_,_,⟨_,_,⟨rfl,rfl⟩,_,rfl⟩,_,_,⟨_,_,⟨rfl,rfl⟩,_,_,⟨_,rfl⟩,rfl⟩,done⟩ := done
  have inside := exec_guarded_ok done
  unfold consumeOpen at inside
  rw [exec_raw_bind,exec_ofOption_bind_eq_ok] at inside
  obtain ⟨r,found,inside⟩ := inside
  rw [exec_now_bind] at inside
  split at inside
  · simp only [exec_bind_eq_ok] at inside
    obtain ⟨_,_,_,_,_,_,thrown⟩ := inside
    cases thrown
  · simp only [exec_bind_eq_ok,exec_reject_eq_ok,returned_eq_ok] at inside
    obtain ⟨_,_,⟨_,rfl⟩,asked,_,⟨bound,rfl⟩,_,_,⟨same,rfl⟩,_⟩ := inside
    rw [not_not.mp same] at bound
    exact ⟨r,Table.mem_of_find? found,Table.key_of_find? found,bound⟩

theorem serialize_canonical (c : ApprovalConfig) :
    (∀ v w : JsValue, v.IsJson → w.IsJson → (canonicalSerialize v = canonicalSerialize w ↔ v.Same w)) ∧
    (∀ v : JsValue, v.IsJson → ∃ text parsed, canonicalSerialize v = .ok text ∧ parse text = some parsed ∧
      canonicalSerialize parsed = .ok text) ∧
    (∀ clock statements, ∀ r ∈ (after c clock statements).tables.requests.rows, ∃ record, map c r = .ok record) ∧
    (∀ i j : BoundTransaction, Apart c i j → ∀ text, binding c i = .ok text → binding c j = .ok text → i.Same j) ∧
    ∀ clock statements id (input : BoundTransaction) answer s',
      exec (consume c id input) (after c clock statements) = (.ok answer,s') →
      ∃ stored quorum challenge createdAt, .request stored quorum challenge createdAt ∈ statements ∧ stored.id = id ∧
        (Apart c input stored.toBoundTransaction → input.Same stored.toBoundTransaction) := by
  refine ⟨fun v w => serialize_eq_iff,?_,?_,?_,?_⟩
  · intro v json
    obtain ⟨text,written⟩ := serialize_writable v json.writable
    exact ⟨text,ordered v,written,parse_serialize json.wellFormed written,serialize_ordered v written⟩
  · intro clock statements r inside
    obtain ⟨input,_,_,_,_,filed⟩ := rows_filed clock statements inside
    obtain ⟨record,mapped,_⟩ := map_filed filed
    exact ⟨record,mapped⟩
  · intro i j apart text bound bound'
    exact same_of_binding bound bound' apart
  · intro clock statements id input answer s' done
    obtain ⟨r,inside,named,bound⟩ := consume_ok_binding done
    obtain ⟨stored,quorum,challenge,createdAt,asked,filed⟩ := rows_filed clock statements inside
    refine ⟨stored,quorum,challenge,createdAt,asked,filed.id.symm.trans named,fun apart => ?_⟩
    exact same_of_binding bound filed.bound apart

namespace Sample

/-- The data is half of a character. -/
def fields : List (Utf16 × JsValue) := [
  (.ofString "to",.null),
  (.ofString "data",.str ((Utf16.ofString "😀").take 1)),
  (.ofString "value",.num (.finite (3602879701896397 / 36028797018963968))),
  (.ofString "nonce",.arr [.bool true,.num 3])]

/-- The digest that is looked at below. -/
def config : ApprovalConfig :=
  ⟨[],fun _ => true,"1","hash",fun text =>
    if some (text.drop 12) = (canonicalSerialize (.obj fields)).toOption
    then "6ebfdb61d35f0f1ff90454f94355610b21da5bc3d2a4e41fb369ff96b89590ad" else ""⟩

theorem tenth : (JsValue.num (.finite (3602879701896397 / 36028797018963968))).WellFormed := by
  intro q same
  cases same
  decide +kernel

theorem list : (JsValue.arr [.bool true,.num 3]).WellFormed := by
  refine ⟨trivial,?_,trivial⟩
  intro q same
  cases same
  decide +kernel

def stored : ApprovalRequestInput where
  chain := .ofString "chain"
  serializedTransaction := .obj fields
  intentHash := .ofString "intent"
  policyHash := .ofString "policy"
  policyVersion := .ofString "1"
  simulationHash := .ofString "simulation"
  simulationBlock := .ofString "1"
  simulationState := .ofString "state"
  account := .ofString "account"
  nonce := .ofString "1"
  value := .ofString "0"
  calldata := .ofString "0x"
  router := .ofString "router"
  wellFormed := ⟨by decide +kernel,trivial,trivial,tenth,list,trivial⟩
  id := "request"
  type := .sign
  proposerId := "proposer"
  expiresAt := 100
  displayImpact := none

/-- The same transaction with its keys in another order. -/
def asked : BoundTransaction :=
  { stored.toBoundTransaction with
    serializedTransaction := .obj fields.reverse
    wellFormed := ⟨by decide +kernel,list,tenth,trivial,trivial,trivial⟩ }

def statements : List Statement :=
  [.request stored 1 "challenge" 50,.updateStatus "request" 0 (fun _ => true) .approved]

def requested : ApprovalEngine := after config (fun _ => 50) statements

theorem json_asked : asked.serializedTransaction.IsJson :=
  ⟨asked.wellFormed,⟨trivial,rfl,trivial⟩,rfl,trivial,trivial,trivial⟩

theorem json_stored : stored.serializedTransaction.IsJson :=
  ⟨stored.wellFormed,trivial,trivial,rfl,⟨trivial,rfl,trivial⟩,trivial⟩

theorem one_text {tx tx' : Text} (written : canonicalSerialize asked.serializedTransaction = .ok tx)
    (written' : canonicalSerialize stored.serializedTransaction = .ok tx') : tx = tx' := by
  have same : (canonicalSerialize asked.serializedTransaction).toOption =
      (canonicalSerialize stored.serializedTransaction).toOption := by decide +kernel
  rw [written,written'] at same
  exact Option.some.inj same

theorem apart : Apart config asked stored.toBoundTransaction := fun _ _ written written' _ => one_text written written'

theorem consumed : ∃ answer s', exec (consume config "request" asked) requested = (.ok answer,s') := by
  have ends : (exec (consume config "request" asked) requested).1.isOk = true := by decide +kernel
  rcases ran : exec (consume config "request" asked) requested with ⟨error | answer,s'⟩
  · rw [ran] at ends
    cases ends
  · exact ⟨answer,s',rfl⟩

end Sample

open Sample in
theorem serialize_canonical_reordered : asked.serializedTransaction.Same stored.serializedTransaction ∧
    (∃ r ∈ requested.tables.requests.rows, ∃ record, map config r = .ok record) ∧
    asked.Same stored.toBoundTransaction := by
  obtain ⟨iff,_,mapped,_,bound⟩ := serialize_canonical config
  refine ⟨?_,?_,?_⟩
  · obtain ⟨text,written⟩ := serialize_writable _ json_asked.writable
    obtain ⟨text',written'⟩ := serialize_writable _ json_stored.writable
    apply (iff _ _ json_asked json_stored).mp
    rw [written,written',one_text written written']
  · have some_ : requested.tables.requests.rows ≠ [] := by
      intro none_
      have one : requested.tables.requests.rows.length = 1 := by decide +kernel
      rw [none_] at one
      cases one
    obtain ⟨r,rows,listed⟩ := List.exists_cons_of_ne_nil some_
    have inside : r ∈ requested.tables.requests.rows := by simp [listed]
    exact ⟨r,inside,mapped _ _ r inside⟩
  · obtain ⟨answer,s',done⟩ := consumed
    obtain ⟨input,_,_,_,there,_,same⟩ := bound _ statements "request" asked answer s' done
    obtain rfl : input = stored := by
      have either := List.mem_pair.mp there
      simp only [reduceCtorEq,or_false,Statement.request.injEq] at either
      exact either.1
    exact same apart

end Consume

end RatifyOs.Approvals
