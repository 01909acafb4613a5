import RatifyOs.Signer.System

/-! Whether a signature that was recorded can be looked up again. -/
namespace RatifyOs.Signer
open Async Data

/-- A signature over the message with this hash was stored for the authorization. -/
def records (id hash signature : String) : Entry Op Op.Ans String → Bool
  | ⟨.transition name .claimed .signed (some data),.ok true⟩ =>
    name = id ∧ data.requestHash = some hash ∧ data.signature = some signature
  | _ => false

def Recorded (id hash signature : String) (p : Pool) : Prop := p.trace.any (records id hash signature) = true

def releases (id : String) : Entry Op Op.Ans String → Bool
  | ⟨.result name _ _,.ok (.signed _ (some _))⟩ => name = id
  | _ => false

/-- What the lookup needs of the stored object. -/
structure Holds (hash signature : String) (data : RowData) : Prop where
  asked : data.requestHash = some hash
  signed : data.signature = some signature
  bytes : ∃ transaction, present data.transaction = some transaction

/-- How many releases of the signed bytes the row has seen. -/
def spent : Option ReplayRow → ℕ
  | some row => if row.recovered then 1 else 0
  | none => 0

structure Durable (id : String) (p : Pool) : Prop where
  kept : ∀ hash signature, Recorded id hash signature p → ∃ row, p.state.row id = some row ∧
    row.state ≠ .claimed ∧ (row.state = .signed → ∃ data, row.data = some data ∧ Holds hash signature data)
  released : p.trace.countP (releases id) ≤ spent (p.state.row id)

theorem durable_initial (id : String) (clock : ℤ) : Durable id (Config.initial (State.initial clock)) where
  kept hash signature recorded := by simp [Recorded,Config.initial] at recorded
  released := by simp [Config.initial]

section Retrieval
variable {web3 : Web3} {toLowerCase : String → String} {c : SignerConfig}

theorem Stage.cases_signed {h : Log} {id : String} {from_ to_ : ExecutionState} {data : Option RowData}
    (stage : Stage web3 h id from_ to_ data) :
    (from_ = .claimed ∧ ∃ decoded raw signed lastValidBlockHeight, attachSignature web3 decoded raw = .ok signed ∧
      data = some {
        requestHash := some decoded.messageHash
        transaction := some signed.transaction
        signature := signed.signature
        lastValidBlockHeight }) ∨ (to_ ≠ .claimed ∧ to_ ≠ .signed) := by
  cases stage with
  | sign newest attached => exact .inl ⟨rfl,_,_,_,_,attached,rfl⟩
  | settle listed seen =>
    refine .inr ?_
    unfold settled at seen
    split at seen
    · cases seen
      simp
    · split at seen
      · cases seen
        simp
      · split at seen
        · cases seen
          simp
        · cases seen
  | _ => exact .inr ⟨by simp,by simp⟩

private theorem attached_bytes (wires : ∀ tx bytes, web3.serialize tx = some bytes → bytes ≠ [])
    {decoded : DecodedTransaction} {raw : Bytes} {signed : SignResult}
    (attached : attachSignature web3 decoded raw = .ok signed) : signed.transaction ≠ "" := by
  simp only [attachSignature,Result.bind_eq_ok,Result.reject_eq_ok,Result.required_eq_ok,Result.pure_eq_ok] at attached
  obtain ⟨_,_,wire,serialized,rfl⟩ := attached
  exact Bytes.toBase64_ne_empty (wires _ wire serialized)

/-- Only the signing transition of the authorization stores a signature, and what it
stores can be looked up. -/
private theorem records_entry (wires : ∀ tx bytes, web3.serialize tx = some bytes → bytes ≠ []) {h : Log} {op : Op}
    {answer : Except String op.Ans} {id hash signature : String} (allowed : allow web3 h op)
    (here : records id hash signature ⟨op,answer⟩ = true) :
    ∃ data, op = .transition id .claimed .signed (some data) ∧ answer ≍ (.ok true : Except String Bool) ∧
      Holds hash signature data := by
  unfold records at here
  split at here
  · rename_i name data entry
    obtain ⟨rfl,same⟩ := Sigma.mk.inj entry
    simp only [decide_eq_true_eq] at here
    obtain ⟨rfl,asked,signed⟩ := here
    refine ⟨data,rfl,same,asked,signed,?_⟩
    rcases Stage.cases_signed allowed with ⟨_,decoded,raw,result,limit,attached,written⟩ | ⟨_,unsigned⟩
    · cases written
      exact ⟨result.transaction,present_eq_some.mpr ⟨rfl,attached_bytes wires attached⟩⟩
    · exact absurd rfl unsigned
  · cases here

/-- A row that is past `claimed` stays there, and a signed row keeps its object. -/
private theorem kept_row {p : Pool} {id : String} {op : Op} {s' : State} {h : Log} (step : RowStep id p.state op s')
    (allowed : allow web3 h op) {row : ReplayRow} (found : p.state.row id = some row)
    (unclaimed : row.state ≠ .claimed) :
    ∃ row', s'.row id = some row' ∧ row'.state ≠ .claimed ∧
      (row'.state = .signed → row.state = .signed ∧ row'.data = row.data) := by
  cases step with
  | same same => exact ⟨row,same.trans found,unclaimed,fun signed => ⟨signed,rfl⟩⟩
  | claimed absent after => simp [absent] at found
  | moved there expected after =>
    cases Option.some.inj (there.symm.trans found)
    rcases Stage.cases_signed allowed with ⟨fresh,_⟩ | ⟨unclaimed',unsigned⟩
    · exact absurd (expected.trans fresh) unclaimed
    · exact ⟨_,after,unclaimed',fun signed => absurd signed unsigned⟩
  | released there after =>
    cases Option.some.inj (there.symm.trans found)
    exact ⟨_,after,unclaimed,fun signed => ⟨signed,rfl⟩⟩

private theorem spent_step {id : String} {s s' : State} {op : Op} (step : RowStep id s op s') :
    spent (s.row id) ≤ spent (s'.row id) := by
  cases step with
  | same same => rw [same]
  | claimed absent after => rw [absent,after]; exact Nat.le_refl 0
  | moved there expected after => rw [there,after]; exact Nat.le_refl _
  | released there after =>
    rw [there,after]
    change (if _ then 1 else 0) ≤ 1
    split <;> omega

private theorem released_step {id requestHash : String} {recoverRaw : Bool} {choice : Choice} {s : State}
    {signature : Option String} {transaction : String}
    (answered : (handle toLowerCase choice (.result id requestHash recoverRaw) s).1 =
      .ok (.signed signature (some transaction))) :
    spent (s.row id) = 0 ∧ spent ((handle toLowerCase choice (.result id requestHash recoverRaw) s).2.row id) = 1 := by
  obtain ⟨asks,claimed,recovered⟩ := result_released toLowerCase answered
  rcases s.replay.recoverSigned_cases id s.clock with refused | ⟨old,found,_,unreleased,put⟩
  · rw [refused] at recovered
    cases recovered
  · have named : old.id = id := Table.key_of_find? found
    have before : s.row id = some old := found
    have there : s.replay.rows.find? old.id = some old := by
      rw [named]
      exact found
    have after : (handle toLowerCase choice (.result id requestHash recoverRaw) s).2.row id =
        some { old with recovered := true, version := old.version + 1, updatedAt := s.clock } := by
      have store := congrArg Prod.snd (recovered.symm.trans put)
      dsimp only at store
      unfold handle State.row
      dsimp only
      rw [store,← named]
      exact Table.find?_put_self there
    rw [before,after]
    exact ⟨by simp [spent,unreleased],rfl⟩

variable (toLowerCase) in
private theorem durable_perform (wires : ∀ tx bytes, web3.serialize tx = some bytes → bytes ≠ []) {p : Pool}
    {id : String} (durable : Durable id p) (choice : Choice) {op : Op} {h : Log} (allowed : allow web3 h op) :
    (∀ hash signature,
      (⟨op,(handle toLowerCase choice op p.state).1⟩ :: p.trace : Log).any (records id hash signature) = true →
        ∃ row, (handle toLowerCase choice op p.state).2.row id = some row ∧ row.state ≠ .claimed ∧
          (row.state = .signed → ∃ data, row.data = some data ∧ Holds hash signature data)) ∧
      (⟨op,(handle toLowerCase choice op p.state).1⟩ :: p.trace : Log).countP (releases id) ≤
        spent ((handle toLowerCase choice op p.state).2.row id) := by
  have step := handle_row toLowerCase id choice op p.state
  constructor
  · intro hash signature recorded
    rw [List.any_cons,Bool.or_eq_true] at recorded
    rcases recorded with here | before
    · obtain ⟨data,rfl,answered,holds⟩ := records_entry wires allowed here
      rcases p.state.replay.transition_cases id .claimed .signed (some data) p.state.clock with
        refused | ⟨old,found,expected,moved⟩
      · simp [handle,refused] at answered
      · have named : old.id = id := Table.key_of_find? found
        have there : p.state.replay.rows.find? old.id = some old := by
          rw [named]
          exact found
        refine ⟨{ old with state := .signed, data := some data, version := old.version + 1,
                           updatedAt := p.state.clock },?_,by simp,fun _ => ⟨data,rfl,holds⟩⟩
        unfold handle State.row
        dsimp only
        rw [moved]
        exact named ▸ Table.find?_put_self there
    · obtain ⟨row,found,unclaimed,signed⟩ := durable.kept hash signature before
      obtain ⟨row',after,unclaimed',same⟩ := kept_row step allowed found unclaimed
      refine ⟨row',after,unclaimed',fun is_signed => ?_⟩
      obtain ⟨was,data⟩ := same is_signed
      rw [data]
      exact signed was
  · rw [List.countP_cons]
    have grows := spent_step step
    have before := durable.released
    by_cases release : releases id ⟨op,(handle toLowerCase choice op p.state).1⟩ = true
    · rw [if_pos release]
      unfold releases at release
      split at release
      · rename_i name requestHash recoverRaw signature transaction entry
        obtain ⟨rfl,answered⟩ := Sigma.mk.inj entry
        simp only [decide_eq_true_eq] at release
        subst release
        obtain ⟨fresh,used⟩ := released_step (eq_of_heq answered)
        omega
      · cases release
    · rw [if_neg release]
      omega

private theorem durable_step (wires : ∀ tx bytes, web3.serialize tx = some bytes → bytes ≠ []) {p : Pool} {id : String}
    (event : Event Call Choice) (disciplined : System.Obeys (allow web3) (fun _ => True) p) (durable : Durable id p) :
    Durable id ((system web3 toLowerCase c).step p event) := by
  cases event with
  | start call => exact ⟨durable.kept,durable.released⟩
  | ambient choice => exact ⟨durable.kept,durable.released⟩
  | crash => exact ⟨durable.kept,durable.released⟩
  | perform i choice =>
    rcases (system web3 toLowerCase c).perform_cases p i choice with ⟨op,next,history,here⟩ | idle
    · have performed := durable_perform toLowerCase wires durable choice (disciplined.allowed here)
      rw [(system web3 toLowerCase c).perform_eq here]
      exact ⟨performed.1,performed.2⟩
    · rw [idle]
      exact durable

end Retrieval

/-- The lookup answers with this signature. -/
def Answers (toLowerCase : String → String) (id requestHash signature : String) (recoverRaw : Bool) (s : State) : Prop :=
  ∃ transaction,
    (result toLowerCase id requestHash recoverRaw s.clock s.replay).1 = .ok (.signed (some signature) transaction)

private theorem result_signed {toLowerCase : String → String} {id requestHash : String} {recoverRaw : Bool} {now : ℤ}
    {s : ReplayStore} {signature transaction : Option String}
    (answered : (result toLowerCase id requestHash recoverRaw now s).1 = .ok (.signed signature transaction)) :
    ∃ row, s.get id = some row ∧ row.state = .signed := by
  unfold result at answered
  split at answered
  · cases answered
  · split at answered
    · cases answered
    · split at answered
      · cases answered
      · cases answered
      · rename_i data read
        cases found : s.get id with
        | none => simp [readStored,found] at read
        | some row =>
          rw [found] at read
          exact ⟨row,rfl,((readStored_eq_some toLowerCase).mp read).1⟩

theorem answers_iff {toLowerCase : String → String} {id hash requestHash signature : String} {s : State}
    (stored : ∃ row, s.row id = some row ∧ row.state ≠ .claimed ∧
      (row.state = .signed → ∃ data, row.data = some data ∧ Holds hash signature data))
    (asked : requestHash ≠ "") (matching : toLowerCase requestHash = toLowerCase hash) (recoverRaw : Bool) :
    Answers toLowerCase id requestHash signature recoverRaw s ↔ ∃ row, s.row id = some row ∧ row.state = .signed := by
  constructor
  · rintro ⟨transaction,answered⟩
    exact result_signed answered
  · rintro ⟨row,found,signed⟩
    obtain ⟨row',found',_,object⟩ := stored
    cases Option.some.inj (found.symm.trans found')
    obtain ⟨data,there,holds⟩ := object signed
    obtain ⟨transaction,bytes⟩ := holds.bytes
    have read : readStored toLowerCase (s.replay.get id) requestHash = .ok (some ⟨transaction,some signature⟩) := by
      rw [show s.replay.get id = some row from found,readStored_eq_some]
      exact ⟨signed,data,there,by rw [holds.asked,Option.map_some,matching],bytes,holds.signed⟩
    have unexpired : ¬∃ row ∈ s.replay.get id, row.state = .expired := by
      rintro ⟨other,here,expired⟩
      cases Option.some.inj (found.symm.trans here)
      rw [signed] at expired
      cases expired
    unfold Answers result
    rw [if_neg unexpired,if_neg asked,read]
    cases recoverRaw with
    | false => exact ⟨none,rfl⟩
    | true =>
      dsimp only
      rw [if_pos rfl]
      rcases s.replay.recoverSigned_cases id s.clock with refused | ⟨old,here,_,_,recovered⟩
      · rw [refused]
        exact ⟨none,rfl⟩
      · cases Option.some.inj (found.symm.trans here)
        rw [recovered,there]
        refine ⟨some transaction,?_⟩
        simp [bytes]

/-- Whatever the calls, answers and crashes: a recorded signature is answered with exactly
while its row is still `signed`, and its raw bytes are released at most once. -/
theorem signature_retrievable_iff (web3 : Web3) (toLowerCase : String → String) (c : SignerConfig)
    (wires : ∀ tx bytes, web3.serialize tx = some bytes → bytes ≠ []) (clock : ℤ) (events : List (Event Call Choice))
    (id : String) :
    (∀ hash signature,
      Recorded id hash signature ((system web3 toLowerCase c).run (Config.initial (State.initial clock)) events) →
        ∀ requestHash, requestHash ≠ "" → toLowerCase requestHash = toLowerCase hash → ∀ recoverRaw,
          (Answers toLowerCase id requestHash signature recoverRaw
              ((system web3 toLowerCase c).run (Config.initial (State.initial clock)) events).state ↔
            ∃ row, ((system web3 toLowerCase c).run (Config.initial (State.initial clock)) events).state.row id =
              some row ∧ row.state = .signed)) ∧
      ((system web3 toLowerCase c).run (Config.initial (State.initial clock)) events).trace.countP (releases id) ≤ 1 := by
  have durable := ((system web3 toLowerCase c).run_induction (program_safe web3 toLowerCase c) (fun _ _ => True)
    (Durable id) (fun p event disciplined _ durable => durable_step wires event disciplined durable)
    (System.obeys_initial _) (durable_initial id clock) events
    ((system web3 toLowerCase c).meets_of_forall (fun _ _ => trivial) _ _)).2
  constructor
  · intro hash signature recorded requestHash asked matching recoverRaw
    exact answers_iff (durable.kept hash signature recorded) asked matching recoverRaw
  · have limit : ∀ row, spent row ≤ 1 := by
      intro row
      unfold spent
      split
      · split <;> omega
      · omega
    exact Nat.le_trans durable.released (limit _)

open Sample in
private theorem sample_wires : ∀ tx bytes, web3.serialize tx = some bytes → bytes ≠ [] := by
  intro tx bytes serialized
  unfold web3 at serialized
  dsimp only at serialized
  split at serialized
  · cases serialized
    exact List.cons_ne_nil _ _
  · split at serialized
    · cases serialized
      exact List.cons_ne_nil _ _
    · cases serialized

open Sample in
theorem signature_retrievable_signed :
    Answers String.toLower "authorization" messageHash base58Signature true
      (signer.run (Config.initial (State.initial 0)) (signing none)).state := by
  have run : Recorded "authorization" messageHash base58Signature
        (signer.run (Config.initial (State.initial 0)) (signing none)) ∧
      ((signer.run (Config.initial (State.initial 0)) (signing none)).state.row "authorization").map (·.state) =
        some .signed := by
    unfold Recorded
    decide +kernel
  obtain ⟨row,found,signed⟩ := Option.map_eq_some_iff.mp run.2
  exact ((signature_retrievable_iff web3 String.toLower ⟨false,false⟩ sample_wires 0 (signing none) "authorization").1
    messageHash base58Signature run.1 messageHash (by decide) rfl true).mpr ⟨row,found,signed⟩

open Sample in
/-- Once the signed bytes have been broadcast, the lookup of the signature throws. -/
theorem broadcast_unretrievable :
    Recorded "authorization" messageHash base58Signature
        (signer.run (Config.initial (State.initial 0)) (signing none ++ broadcasting)) ∧
      ¬Answers String.toLower "authorization" messageHash base58Signature false
        (signer.run (Config.initial (State.initial 0)) (signing none ++ broadcasting)).state := by
  have run : Recorded "authorization" messageHash base58Signature
        (signer.run (Config.initial (State.initial 0)) (signing none ++ broadcasting)) ∧
      ((signer.run (Config.initial (State.initial 0)) (signing none ++ broadcasting)).state.row "authorization").map
        (·.state) = some .broadcast := by
    unfold Recorded
    decide +kernel
  refine ⟨run.1,?_⟩
  rintro ⟨transaction,answered⟩
  obtain ⟨row,found,signed⟩ := result_signed answered
  have after := run.2
  rw [show State.row _ _ = some row from found,Option.map_some,signed] at after
  cases after

end RatifyOs.Signer
