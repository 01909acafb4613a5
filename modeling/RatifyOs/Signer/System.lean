import RatifyOs.Async.System
import RatifyOs.Signer.Service

/-! Any calls of any number of signers over one replay store, and what each of them may do
to a row in terms of what it has done before. -/
namespace RatifyOs.Signer
open Async Data RatifyOs.Execution
open Async.Program hiding pure throw

structure State where
  replay : ReplayStore
  clock : ℤ

def State.initial (clock : ℤ) : State := ⟨.empty,clock⟩

def State.row (s : State) (id : String) : Option ReplayRow := s.replay.get id

structure Choice where
  reply : (op : Op) → Except String op.Ans := fun _ => .error ""
  elapsed : ℕ := 0

instance : Inhabited Choice := ⟨{}⟩

inductive Call where
  | sign (authorizationId transaction claimedFeePayer : String) (lastValidBlockHeight : Option ℤ)
  | signEnvelope (transaction : String) (envelope : Option AuthorizationEnvelope)
  | result (id requestHash : String) (recoverRaw : Bool)
  | broadcastSigned (id transaction : String)
  | reconcileTransactions

abbrev Pool := Config Op Op.Ans String State

section Signers
variable (web3 : Web3) (toLowerCase : String → String) (c : SignerConfig)

def handle (choice : Choice) : (op : Op) → State → Except String op.Ans × State
  | .now,s => (.ok s.clock,s)
  | .get id,s => (.ok (s.replay.get id),s)
  | .consume id expiresAt,s =>
    let consumed := s.replay.consume id expiresAt s.clock
    (.ok consumed.1,{ s with replay := consumed.2 })
  | .transition id from_ to_ data,s =>
    let moved := s.replay.transition id from_ to_ data s.clock
    (.ok moved.1,{ s with replay := moved.2 })
  | .list states,s => (.ok (s.replay.list states),s)
  | .result id requestHash recoverRaw,s =>
    let answered := result toLowerCase id requestHash recoverRaw s.clock s.replay
    (answered.1,{ s with replay := answered.2 })
  | op,s => (choice.reply op,s)

def discard {α : Type} (p : Signing α) : Signing Unit := do
  let _ ← p
  return ()

def Call.program : Call → Signing Unit
  | .sign authorizationId transaction claimedFeePayer lastValidBlockHeight =>
    discard (Signer.sign web3 toLowerCase c authorizationId transaction claimedFeePayer lastValidBlockHeight)
  | .signEnvelope transaction envelope => discard (Signer.signEnvelope web3 toLowerCase c transaction envelope)
  | .result id requestHash recoverRaw => discard (call (Op.result id requestHash recoverRaw))
  | .broadcastSigned id transaction => discard (Signer.broadcastSigned web3 id transaction)
  | .reconcileTransactions => Signer.reconcileTransactions

def system : System Op Op.Ans String State Call Choice where
  program := Call.program web3 toLowerCase c
  handle := handle toLowerCase
  ambient choice s := { s with clock := s.clock + choice.elapsed }
  restart s := s

abbrev Log := History Op Op.Ans String

/-- The row the call is reconciling is one of those it has listed. -/
def Listed (h : Log) (row : ReplayRow) : Prop :=
  ∃ rows, ⟨.list [.broadcast,.reconciliation],.ok rows⟩ ∈ h ∧ row ∈ rows

/-- The transitions of a replay row. -/
inductive Stage (h : Log) (id : String) : ExecutionState → ExecutionState → Option RowData → Prop where
  | sign {decoded raw signed lastValidBlockHeight rest}
      (newest : h = ⟨.signMessage id decoded.messageBytes,.ok raw⟩ :: rest)
      (attached : attachSignature web3 decoded raw = .ok signed) :
      Stage h id .claimed .signed (some {
        requestHash := some decoded.messageHash
        transaction := some signed.transaction
        signature := signed.signature
        lastValidBlockHeight })
  | fail : Stage h id .claimed .failed none
  | expire {limit height} (past : limit < height) :
      Stage h id .claimed .expired (some { lastValidBlockHeight := some limit, blockHeight := some height })
  | broadcast {data} (unasked : data.requestHash = none) : Stage h id .signed .broadcast (some data)
  | unresolved {data} (unasked : data.requestHash = none) : Stage h id .signed .reconciliation (some data)
  | settle {row status state data} (listed : Listed h row) (seen : settled row status = some state) :
      Stage h id row.state state (some data)
  | drop {row signature limit height rest} (listed : Listed h row)
      (newest : h = ⟨.getBlockHeight,.ok (some height)⟩ :: ⟨.getSignatureStatuses signature,.ok none⟩ :: rest)
      (past : limit < height) :
      Stage h id row.state .dropped (some {
        signature := some signature, lastValidBlockHeight := some limit, blockHeight := some height })

def allow (h : Log) : Op → Prop
  | .transition id from_ to_ data => Stage web3 h id from_ to_ data
  | _ => True

def Safe {α : Type} (p : Signing α) (h : Log) : Prop :=
  p.wp (allow web3) (fun _ _ => True) (fun _ _ => True) h

theorem Safe.then {α β : Type} {p : Signing α} {f : α → Signing β} {h : Log} (first : Safe web3 p h)
    (rest : ∀ value h, Safe web3 (f value) h) : Safe web3 (p >>= f) h := by
  rw [Safe,wp_bind]
  apply wp_mono p first
  · exact fun value h _ => rest value h
  · exact fun _ _ _ => trivial

private theorem Safe.of_call {op : Op} {h : Log} (allowed : allow web3 h op) : Safe web3 (call op) h := by
  simp [Safe,allowed]

theorem stored_safe (id requestHash : String) (h : Log) : Safe web3 (stored toLowerCase id requestHash) h := by
  simp [Safe,stored,allow]

theorem fenceBlockhash_safe (id : String) (lastValidBlockHeight : Option ℤ) (h : Log) :
    Safe web3 (fenceBlockhash c id lastValidBlockHeight) h := by
  cases lastValidBlockHeight with
  | none => simp [Safe,fenceBlockhash]
  | some limit =>
    have burn : ∀ h height, ¬height ≤ limit → Stage web3 h id .claimed .expired
        (some { lastValidBlockHeight := some limit, blockHeight := some height }) := by
      intro h height past
      apply Stage.expire
      omega
    simp only [Safe,fenceBlockhash,wp_ite,wp_bind,wp_call,wp_ofOption,wp_pure,wp_throw,allow,implies_true,
      and_true,true_and]
    exact fun _ _ height _ past => burn _ height past

theorem signClaimed_safe (id : String) (decoded : DecodedTransaction) (lastValidBlockHeight : Option ℤ) (h : Log) :
    Safe web3 (signClaimed web3 id decoded lastValidBlockHeight) h := by
  have fail : ∀ h, Stage web3 h id .claimed .failed none := fun _ => .fail
  simp only [Safe,signClaimed,wp_tryCatch,wp_bind,wp_call,wp_ofExcept,wp_reject,wp_pure,wp_throw,allow,fail,
    implies_true,and_true,true_and]
  exact fun raw signed attached => .sign rfl attached

private theorem claim_safe (id : String) (decoded : DecodedTransaction) (expiresAt : ℤ)
    (lastValidBlockHeight : Option ℤ) (h : Log) :
    Safe web3 (do
      let fresh ← call (Op.consume id expiresAt)
      reject (fresh = false) "envelope_replayed"
      let _ ← fenceBlockhash c id lastValidBlockHeight
      signClaimed web3 id decoded lastValidBlockHeight) h := by
  apply Safe.then
  · exact Safe.of_call web3 trivial
  · intro fresh h
    apply Safe.then
    · simp [Safe]
    · intro _ h
      apply Safe.then
      · exact fenceBlockhash_safe web3 c id lastValidBlockHeight h
      · exact fun _ h => signClaimed_safe web3 id decoded lastValidBlockHeight h

theorem sign_safe (authorizationId transaction claimedFeePayer : String) (lastValidBlockHeight : Option ℤ) (h : Log) :
    Safe web3 (sign web3 toLowerCase c authorizationId transaction claimedFeePayer lastValidBlockHeight) h := by
  apply Safe.then
  · simp [Safe]
  · intro decoded h
    apply Safe.then
    · exact Safe.of_call web3 trivial
    · intro _ h
      apply Safe.then
      · simp [Safe]
      · intro _ h
        apply Safe.then
        · exact stored_safe web3 toLowerCase authorizationId decoded.messageHash h
        · intro prior h
          cases prior with
          | some prior => simp [Safe]
          | none =>
            apply Safe.then
            · exact Safe.of_call web3 trivial
            · exact fun now h => claim_safe web3 c authorizationId decoded (now + 60000) lastValidBlockHeight h

theorem signEnvelope_safe (transaction : String) (envelope : Option AuthorizationEnvelope) (h : Log) :
    Safe web3 (signEnvelope web3 toLowerCase c transaction envelope) h := by
  apply Safe.then
  · simp [Safe]
  · intro _ h
    apply Safe.then
    · simp [Safe]
    · intro decoded h
      apply Safe.then
      · simp [Safe]
      · intro envelope h
        apply Safe.then
        · exact stored_safe web3 toLowerCase envelope.claims.id decoded.messageHash h
        · intro prior h
          apply Safe.then
          · exact Safe.of_call web3 trivial
          · intro _ h
            apply Safe.then
            · exact Safe.of_call web3 trivial
            · intro _ h
              cases prior with
              | some prior => simp [Safe]
              | none =>
                exact claim_safe web3 c envelope.claims.id decoded envelope.claims.expiresAt
                  (some envelope.claims.lastValidBlockHeight) h

theorem broadcastSigned_safe (id transaction : String) (h : Log) :
    Safe web3 (broadcastSigned web3 id transaction) h := by
  have unresolved : ∀ expected returned lastValidBlockHeight h,
      Safe web3 (broadcastSigned.unresolved id expected returned lastValidBlockHeight) h := by
    intro expected returned lastValidBlockHeight h
    have move : ∀ h, Stage web3 h id .signed .reconciliation
        (some { expected := some expected, returned := some returned, lastValidBlockHeight }) :=
      fun _ => .unresolved rfl
    simp [Safe,broadcastSigned.unresolved,allow,move]
  apply Safe.then
  · simp [Safe]
  · intro expected h
    apply Safe.then
    · exact Safe.of_call web3 trivial
    · intro row h
      apply Safe.then
      · exact Safe.of_call web3 trivial
      · intro returned h
        cases returned with
        | str landed =>
          have move : ∀ h limit, Stage web3 h id .signed .broadcast
              (some { signature := some landed, transaction := some transaction, lastValidBlockHeight := limit }) :=
            fun _ _ => .broadcast rfl
          have other := unresolved expected (.str landed) ((row.bind (·.data)).bind (·.lastValidBlockHeight)) h
          unfold Safe at other
          simp [Safe,allow,move,other]
        | _ => exact unresolved _ _ _ h

theorem reconcileTransaction_safe (row : ReplayRow) (h : Log) (listed : Listed h row) :
    Safe web3 (reconcileTransaction row) h := by
  have later : ∀ entry, Listed (entry :: h) row := by
    intro entry
    obtain ⟨rows,recorded,member⟩ := listed
    exact ⟨rows,List.mem_cons_of_mem _ recorded,member⟩
  unfold Safe reconcileTransaction
  dsimp only
  split
  · simp
  · rename_i signature there
    simp only [wp_bind,wp_call,allow,true_and,implies_true,and_true]
    intro status
    cases status with
    | some status =>
      dsimp only
      cases seen : settled row status with
      | none => simp
      | some state =>
        have move : ∀ data, Stage web3 (⟨.getSignatureStatuses signature,.ok (some status)⟩ :: h) row.id row.state
            state (some data) := fun _ => .settle (later _) seen
        simp [allow,move]
    | none =>
      cases (row.data.getD {}).lastValidBlockHeight with
      | none => simp
      | some limit =>
        simp only [wp_bind,wp_call,allow,true_and,implies_true,and_true]
        intro height
        cases height with
        | none => simp
        | some height =>
          simp only [wp_ite,wp_bind,wp_call,wp_pure,allow,implies_true,and_true]
          intro past
          apply Stage.drop
          · obtain ⟨rows,recorded,member⟩ := listed
            exact ⟨rows,by simp [recorded],member⟩
          · rfl
          · exact past

theorem reconcileRows_safe (rows all : List ReplayRow) (h : Log) (recorded :
    ⟨.list [.broadcast,.reconciliation],.ok all⟩ ∈ h) (inside : rows ⊆ all) :
    Safe web3 (reconcileRows rows) h := by
  induction rows generalizing h with
  | nil => simp [Safe,reconcileRows]
  | cons row rows ih =>
    have here : Listed h row := ⟨all,recorded,inside List.mem_cons_self⟩
    have first := wp_recorded _ (reconcileTransaction_safe web3 row h here)
    unfold Safe reconcileRows
    rw [wp_bind]
    apply wp_mono _ first
    · exact fun _ after grown => ih after (grown.2 recorded) (List.subset_of_cons_subset inside)
    · exact fun _ _ _ => trivial

theorem program_safe (call : Call) : ((system web3 toLowerCase c).program call).wp (allow web3)
    (fun _ _ => True) (fun _ _ => True) [] := by
  have discarded : ∀ {α : Type} {p : Signing α}, Safe web3 p [] → Safe web3 (discard p) [] := by
    intro α p safe
    apply Safe.then web3 safe
    simp [Safe]
  cases call with
  | sign authorizationId transaction claimedFeePayer lastValidBlockHeight =>
    exact discarded (sign_safe web3 toLowerCase c authorizationId transaction claimedFeePayer lastValidBlockHeight [])
  | signEnvelope transaction envelope =>
    exact discarded (signEnvelope_safe web3 toLowerCase c transaction envelope [])
  | result id requestHash recoverRaw => exact discarded (Safe.of_call web3 trivial)
  | broadcastSigned id transaction => exact discarded (broadcastSigned_safe web3 id transaction [])
  | reconcileTransactions =>
    simp only [system,Call.program,reconcileTransactions,wp_bind,wp_call,allow,implies_true,and_true,true_and]
    exact fun rows => reconcileRows_safe web3 rows rows _ List.mem_cons_self (List.Subset.refl rows)

end Signers

section Rows
variable (toLowerCase : String → String)

/-- What one effect does to the row of one authorization. -/
inductive RowStep (id : String) (s : State) : Op → State → Prop where
  | same {op s'} (row : s'.row id = s.row id) : RowStep id s op s'
  | claimed {expiresAt s'} (absent : s.row id = none)
      (row : s'.row id = some ⟨id,expiresAt,.claimed,1,none,s.clock,false⟩) : RowStep id s (.consume id expiresAt) s'
  | moved {from_ to_ data old s'} (found : s.row id = some old) (expected : old.state = from_)
      (row : s'.row id = some { old with state := to_, data, version := old.version + 1, updatedAt := s.clock }) :
      RowStep id s (.transition id from_ to_ data) s'
  | released {requestHash old s'} (found : s.row id = some old)
      (row : s'.row id = some { old with recovered := true, version := old.version + 1, updatedAt := s.clock }) :
      RowStep id s (.result id requestHash true) s'

private theorem row_put (s : State) {old : ReplayRow} (new : ReplayRow) {name : String}
    (found : s.row name = some old) (same : new.id = old.id) (id : String) :
    (⟨s.replay.rows.put new⟩ : ReplayStore).get id = if name = id then some new else s.replay.get id := by
  have named : old.id = name := Table.key_of_find? found
  unfold ReplayStore.get
  rw [Table.find?_put,same,named]
  by_cases here : name = id
  · subst here
    rw [if_pos rfl,if_pos rfl]
    rw [show s.replay.rows.find? name = some old from found]
    rfl
  · rw [if_neg here,if_neg here]

theorem handle_row (id : String) (choice : Choice) (op : Op) (s : State) :
    RowStep id s op (handle toLowerCase choice op s).2 := by
  cases op with
  | consume name expiresAt =>
    rcases s.replay.consume_cases name expiresAt s.clock with refused | ⟨rows,inserted,claimed⟩
    · apply RowStep.same
      simp [handle,refused]
    · have found := Table.find?_insert? inserted id
      have absent := (Table.insert?_eq_some_iff.mp inserted).1
      by_cases here : name = id
      · subst here
        refine .claimed absent ?_
        simpa [handle,claimed,State.row,ReplayStore.get] using found
      · apply RowStep.same
        simpa [handle,claimed,State.row,ReplayStore.get,here] using found
  | transition name from_ to_ data =>
    rcases s.replay.transition_cases name from_ to_ data s.clock with refused | ⟨old,found,expected,moved⟩
    · apply RowStep.same
      simp [handle,refused]
    · have after := row_put s { old with state := to_, data, version := old.version + 1, updatedAt := s.clock }
        found rfl id
      by_cases here : name = id
      · subst here
        apply RowStep.moved found expected
        simpa [handle,moved,State.row] using after
      · apply RowStep.same
        simpa [handle,moved,State.row,here] using after
  | result name requestHash recoverRaw =>
    rcases result_store toLowerCase name requestHash recoverRaw s.clock s.replay with untouched | ⟨rfl,recovers⟩
    · apply RowStep.same
      simp [handle,untouched]
    · rcases s.replay.recoverSigned_cases name s.clock with refused | ⟨old,found,_,_,recovered⟩
      · apply RowStep.same
        simp [handle,recovers,refused]
      · have after := row_put s { old with recovered := true, version := old.version + 1, updatedAt := s.clock }
          found rfl id
        by_cases here : name = id
        · subst here
          apply RowStep.released found
          simpa [handle,recovers,recovered,State.row] using after
        · apply RowStep.same
          simpa [handle,recovers,recovered,State.row,here] using after
  | _ => exact .same rfl

end Rows

namespace Sample

/-- The wallet signs, the network accepts the bytes, and does not know them afterwards. -/
def reply : (op : Op) → Except String op.Ans
  | .evaluatePolicy _ => .ok ()
  | .signMessage _ _ => .ok signature
  | .sendTransaction _ => .ok (.str base58Signature)
  | .getSignatureStatuses _ => .ok none
  | .getBlockHeight => .ok none
  | _ => .error "unavailable"

def steps (thread n : ℕ) : List (Event Call Choice) := List.replicate n (.perform thread { reply })

def signing (lastValidBlockHeight : Option ℤ) : List (Event Call Choice) :=
  .start (.sign "authorization" (wire signature 1).toBase64 (web3.base58 payer) lastValidBlockHeight) :: steps 0 6

def broadcasting : List (Event Call Choice) :=
  .start (.broadcastSigned "authorization" (wire signature 1).toBase64) :: steps 1 3

def signer : System Op Op.Ans String State Call Choice := system web3 String.toLower ⟨false,false⟩

end Sample

end RatifyOs.Signer
