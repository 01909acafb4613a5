import RatifyOs.Data.Table
import RatifyOs.Trading.Types
import RatifyOs.Async.System
import RatifyOs.Trading.Orchestrator

/-! `ExecutionStore`: quotes and executions, with the compare-and-set every change of an
execution goes through. -/
namespace RatifyOs.Trading
open Data

structure ExecutionStore where
  executions : Table Execution.id
  quotes : Table Quote.id

namespace ExecutionStore

def empty : ExecutionStore := ⟨.empty,.empty⟩

def putQuote (s : ExecutionStore) (q : Quote) : ExecutionStore :=
  { s with quotes := s.quotes.upsert q }

def getQuote (s : ExecutionStore) (id : String) : Option Quote := s.quotes.find? id

def findQuoteByHash (s : ExecutionStore) (hash : String) : Option Quote :=
  (s.quotes.select (·.quoteHash = hash)).head?

def get (s : ExecutionStore) (id : String) : Option Execution := s.executions.find? id

def byIdempotency (s : ExecutionStore) (k : String) : Option Execution :=
  (s.executions.select (·.idempotencyKey = k)).head?

def list (s : ExecutionStore) (states : List TradeState) : List Execution :=
  s.executions.select (·.state ∈ states)

/-- The row `create` inserts, under the id `randomUUID` drew. -/
def newRow (x : NewExecution) (state : TradeState) (id : String) (now : ℤ) : Execution where
  id := id
  version := 0
  quoteId := x.quoteId
  quoteHash := x.quoteHash
  intentHash := x.intentHash
  policyHash := x.policyHash
  riskHash := x.riskHash
  reservationId := x.reservationId
  simulationHash := x.simulationHash
  approvalId := none
  authorizationId := none
  actor := x.actor
  dryRun := x.dryRun
  idempotencyKey := x.idempotencyKey
  state := state
  approver := none
  messageHash := none
  signature := none
  slot := none
  lastValidBlockHeight := x.lastValidBlockHeight
  createdAt := now
  updatedAt := now

/-- Both the id and the idempotency key are unique columns. -/
def create (s : ExecutionStore) (x : NewExecution) (state : TradeState) (id : String) (now : ℤ) :
    Except String Execution × ExecutionStore :=
  let r := newRow x state id now
  match s.byIdempotency x.idempotencyKey with
  | some _ => (.error "UNIQUE constraint failed: executions.idempotency_key",s)
  | none =>
    match s.executions.insert? r with
    | some executions => (.ok r,{ s with executions })
    | none => (.error "UNIQUE constraint failed: executions.id",s)

/-- Inside `BEGIN IMMEDIATE` the payload read is the payload compared, so the update
changes exactly one row. -/
def transition (s : ExecutionStore) (id : String) (states : List TradeState) (p : Patch)
    (version : Option ℕ) (now : ℤ) : Except String Execution × ExecutionStore :=
  match s.get id with
  | none => (.error "execution_not_found",s)
  | some old =>
    if old.state ∉ states ∨ (∃ v ∈ version, old.version ≠ v) then (.error "state conflict",s)
    else (.ok (old.patched p now),{ s with executions := s.executions.put (old.patched p now) })

theorem create_cases (s : ExecutionStore) (x : NewExecution) (state : TradeState) (id : String) (now : ℤ) :
    (∃ error, s.create x state id now = (.error error,s)) ∨
      ∃ executions, s.executions.insert? (newRow x state id now) = some executions ∧
        s.create x state id now = (.ok (newRow x state id now),{ s with executions }) := by
  unfold create
  cases s.byIdempotency x.idempotencyKey with
  | some taken => exact .inl ⟨_,rfl⟩
  | none =>
    cases inserted : s.executions.insert? (newRow x state id now) with
    | none => exact .inl ⟨"UNIQUE constraint failed: executions.id",by simp [inserted]⟩
    | some executions => exact .inr ⟨executions,rfl,by simp [inserted]⟩

/-- A transition either leaves the store alone and throws, or patches one row it found
in one of the expected states. -/
theorem transition_cases (s : ExecutionStore) (id : String) (states : List TradeState) (p : Patch)
    (version : Option ℕ) (now : ℤ) :
    (∃ error, s.transition id states p version now = (.error error,s)) ∨
      ∃ old, s.get id = some old ∧ old.state ∈ states ∧
        s.transition id states p version now =
          (.ok (old.patched p now),{ s with executions := s.executions.put (old.patched p now) }) := by
  unfold transition
  cases found : s.get id with
  | none => exact .inl ⟨_,rfl⟩
  | some old =>
    by_cases conflict : old.state ∉ states ∨ ∃ v ∈ version, old.version ≠ v
    · exact .inl ⟨_,if_pos conflict⟩
    · refine .inr ⟨old,rfl,?_,if_neg conflict⟩
      exact not_not.mp (not_or.mp conflict).1

end ExecutionStore

/-! Any calls of the orchestrator over one execution store, with every port answering
whatever it likes, and what one step can do to one execution. -/
open Async

structure State where
  store : ExecutionStore
  clock : ℤ

def State.row (s : State) (e : String) : Option Execution := s.store.get e

/-- The environment's part in a step: what a port answers, the identifier drawn for a new
row, the time that passes and a quote that is stored meanwhile. -/
structure Choice where
  reply : (op : Op) → Except String op.Ans := fun _ => .error ""
  id : String := ""
  elapsed : ℕ := 0
  quote : Option Quote := none

instance : Inhabited Choice := ⟨{}⟩

inductive Call where
  | execute (quoteId : String) (o : ExecuteOptions)
  | approve (id operator : String) (input : Option Execution.DecisionInput)
  | deny (id operator : String) (input : Option Execution.DecisionInput)
  | refreshApproval (id : String) (operator : Option String)
  | submit (id : String)
  | recover (id : String)
  | recoverSigning (id : String)
  | reconcile (id : String)
  | recoverAndReconcile (limit : ℤ)

def handle (choice : Choice) : (op : Op) → State → Except String op.Ans × State
  | .byIdempotency key,s => (.ok (s.store.byIdempotency key),s)
  | .getQuote id,s => (.ok (s.store.getQuote id),s)
  | .getExecution id,s => (.ok (s.store.get id),s)
  | .list states,s => (.ok (s.store.list states),s)
  | .create x state,s =>
    let result := s.store.create x state choice.id s.clock
    (result.1,{ s with store := result.2 })
  | .transition id states patch,s =>
    let result := s.store.transition id states patch none s.clock
    (result.1,{ s with store := result.2 })
  | .now,s => (.ok s.clock,s)
  | op,s => (choice.reply op,s)

/-- Time passes, and a quote may be stored, under an id that is not taken. -/
def elapse (choice : Choice) (s : State) : State where
  clock := s.clock + choice.elapsed
  store := match choice.quote with
    | some q => if (s.store.getQuote q.id).isSome then s.store else s.store.putQuote q
    | none => s.store

def discard {α : Type} (p : Trade α) : Trade Unit := do
  let _ ← p
  return ()

section Deployed
variable (web3 : Signer.Web3) (c : Deployment)

/-- `recoverSigning` is handed a row its caller has read. -/
def Call.program : Call → Trade Unit
  | .execute quoteId o => discard (Trading.execute c quoteId o)
  | .approve id operator input => discard (Trading.approve c id operator input)
  | .deny id operator input => discard (Trading.deny c id operator input)
  | .refreshApproval id operator => discard (Trading.refreshApproval c id operator)
  | .submit id => discard (Trading.submit web3 c id)
  | .recover id => discard (Trading.recover id)
  | .recoverSigning id => discard do
    let row ← require id
    Trading.recoverSigning web3 c row
  | .reconcile id => discard (Trading.reconcile c id)
  | .recoverAndReconcile limit => discard (Trading.recoverAndReconcile web3 c limit)

def system : System Op Op.Ans String State Call Choice where
  program := Call.program web3 c
  handle := handle
  ambient := elapse
  restart s := s

end Deployed

namespace Sample

def blockhash : String := "CktRuQ2mttgRGkXJtyksdKHjUdc2C4TgDzyB98oEzy8"

def request : RatifyOs.Execution.SimulationRequest where
  cluster := "mainnet-beta"
  transaction := (Signer.Sample.wire (List.replicate 64 0) 1).toBase64
  message := (Signer.Sample.messageBytes 1).toBase64
  messageHash := Signer.Sample.messageHash
  feePayer := "4vJ9JU1bJJE96FWSJKvHsmmFADCg4gpZQff4P3bkLKi"
  recentBlockhash := blockhash
  lastValidBlockHeight := 100
  programIds := ["11111111111111111111111111111111"]
  accountKeys := ["4vJ9JU1bJJE96FWSJKvHsmmFADCg4gpZQff4P3bkLKi","11111111111111111111111111111111"]
  instructions := [⟨"11111111111111111111111111111111",[some "4vJ9JU1bJJE96FWSJKvHsmmFADCg4gpZQff4P3bkLKi"],"01"⟩]
  addressTableLookups := []
  policyHash := "policy"

def evidence : RatifyOs.Execution.SimulationEvidence where
  hash := "0xe"
  messageHash := Signer.Sample.messageHash
  slot := 7
  blockhash
  unitsConsumed := 150
  feeLamports := 5000
  logs := []
  accountStates := []
  assetDeltas := []
  capabilities := ⟨true,true,true,true⟩

def quote : Quote where
  id := "q"
  side := .buy
  cluster := "mainnet-beta"
  inputMint := "in"
  outputMint := "out"
  amountIn := 1000
  amountOut := 2000
  minimumOut := 1990
  slippageBps := 50
  slot := 7
  lastValidBlockHeight := 100
  expiresAt := 60000
  intentHash := "intent"
  quoteHash := "quote"
  policyHash := "policy"
  request := some request
  evidence := some evidence

def deployment : Deployment where
  policy := ⟨1,true,.finalized⟩
  liveEnabled := true
  approvalEngine := true
  authorizationIssuer := true
  risk := false
  reservations := true
  signer := true
  signerResult := true
  audience := none

def envelope : RatifyOs.Execution.AuthorizationEnvelope where
  signature := "signed"
  claims := {
    protocol := "ari-solana-execution-authorization", version := 1, id := "authorization"
    cluster := request.cluster, feePayer := request.feePayer, transaction := request.transaction
    message := request.message, messageHash := request.messageHash
    recentBlockhash := blockhash, lastValidBlockHeight := request.lastValidBlockHeight
    programIds := request.programIds, accountKeys := request.accountKeys
    instructions := request.instructions, addressTableLookups := [], simulationHash := evidence.hash
    references := ⟨"quote","policy",1,none,some "reservation","e","signer"⟩
    signerKeyId := none, issuedAt := 0, expiresAt := 30000 }

/-- Ports that agree to everything and a signer that never answers. -/
def reply : (op : Op) → Except String op.Ans
  | .simulate _ => .ok (.evidence evidence)
  | .blockHeight => .ok 50
  | .status _ => .ok none
  | .approvalRequest _ _ _ _ => .ok ()
  | .approvalGet _ => .ok (some .approved)
  | .approvalDecide _ _ => .ok ()
  | .approvalConsume _ _ => .ok ()
  | .reserve _ _ _ => .ok "reservation"
  | .valid _ => .ok true
  | .commit _ _ => .ok true
  | .release _ _ => .ok true
  | .issue _ _ _ _ => .ok envelope
  | .sign _ _ _ => .error "signer_timeout"
  | _ => .error "unavailable"

/-- The signer answers, the network accepts the bytes, and the cluster roots them. -/
def settledReply : (op : Op) → Except String op.Ans
  | .sign _ _ _ => .ok ⟨some (Signer.Sample.wire Signer.Sample.signature 1).toBase64,
      some Signer.Sample.base58Signature,none⟩
  | .broadcast _ _ => .ok Signer.Sample.base58Signature
  | .status _ => .ok (some ⟨9,.finalized,false⟩)
  | op => reply op

/-- The cluster takes the bytes and the answer of the broadcast is lost. -/
def lostReply : (op : Op) → Except String op.Ans
  | .broadcast _ _ => .error "fetch failed"
  | op => settledReply op

/-- The cluster does not know the signature and is past the blockhash. -/
def forgottenReply : (op : Op) → Except String op.Ans
  | .blockHeight => .ok 101
  | op => reply op

def stepsWith (reply : (op : Op) → Except String op.Ans) (thread n : ℕ) : List (Event Call Choice) :=
  List.replicate n (.perform thread { reply, id := "e" })

def steps (thread n : ℕ) : List (Event Call Choice) := stepsWith reply thread n

/-- A quote is executed and approved; the row of `e` is ready to be submitted. -/
def approval : List (Event Call Choice) :=
  [.ambient { quote := some quote },.start (.execute "q" ⟨"key","actor",some false⟩)] ++ steps 0 9 ++
    [.start (.approve "e" "operator" (some ⟨"operator",.approve,"challenge","nonce",0,none,none,none⟩))] ++
    steps 1 5

/-- The execution is signed, broadcast and finalized. -/
def settlement : List (Event Call Choice) :=
  approval ++ [.start (.submit "e")] ++ stepsWith settledReply 2 15 ++ [.start (.reconcile "e")] ++
    stepsWith settledReply 3 3

end Sample

abbrev Pool := Config Op Op.Ans String State

/-- What one effect does to the row of one execution. -/
inductive RowStep (e : String) (s : State) : Op → State → Prop where
  | same {op s'} (row : s'.row e = s.row e) : RowStep e s op s'
  | created {x state s'} (absent : s.row e = none)
      (row : s'.row e = some (ExecutionStore.newRow x state e s.clock)) : RowStep e s (.create x state) s'
  | moved {states patch old s'} (found : s.row e = some old) (expected : old.state ∈ states)
      (row : s'.row e = some (old.patched patch s.clock)) : RowStep e s (.transition e states patch) s'

private theorem create_row (e : String) (choice : Choice) (x : NewExecution) (state : TradeState) (s : State) :
    RowStep e s (.create x state) (handle choice (.create x state) s).2 := by
  rcases s.store.create_cases x state choice.id s.clock with ⟨error,refused⟩ | ⟨executions,inserted,created⟩
  · exact .same (by simp [handle,refused,State.row])
  · have absent := (Table.insert?_eq_some_iff.mp inserted).1
    have found := Table.find?_insert? inserted e
    by_cases mine : choice.id = e
    · subst mine
      refine .created absent ?_
      simpa [handle,created,State.row,ExecutionStore.get,ExecutionStore.newRow] using found
    · refine .same ?_
      simpa [handle,created,State.row,ExecutionStore.get,ExecutionStore.newRow,mine] using found

private theorem transition_row (e : String) (choice : Choice) (id : String) (states : List TradeState)
    (patch : Patch) (s : State) :
    RowStep e s (.transition id states patch) (handle choice (.transition id states patch) s).2 := by
  rcases s.store.transition_cases id states patch none s.clock with
    ⟨error,refused⟩ | ⟨old,found,expected,moved⟩
  · exact .same (by simp [handle,refused,State.row])
  · have named : old.id = id := Table.key_of_find? found
    by_cases mine : id = e
    · subst mine
      refine .moved found expected ?_
      have put := Table.find?_put s.store.executions (old.patched patch s.clock) id
      have here : s.store.executions.find? id = some old := found
      simpa [handle,moved,State.row,ExecutionStore.get,Execution.patched,named,here] using put
    · refine .same ?_
      have put := Table.find?_put s.store.executions (old.patched patch s.clock) e
      simpa [handle,moved,State.row,ExecutionStore.get,Execution.patched,named,mine] using put

theorem transition_answer {e : String} {choice : Choice} {states : List TradeState} {patch : Patch} {s : State}
    {x : Execution} (answered : (handle choice (.transition e states patch) s).1 = .ok x) :
    (handle choice (.transition e states patch) s).2.row e = some x ∧
      ∃ old, s.row e = some old ∧ old.state ∈ states ∧ x = old.patched patch s.clock := by
  rcases s.store.transition_cases e states patch none s.clock with
    ⟨error,refused⟩ | ⟨old,found,expected,moved⟩
  · simp [handle,refused] at answered
  · have named : old.id = e := Table.key_of_find? found
    have same : old.patched patch s.clock = x := by simpa [handle,moved] using answered
    refine ⟨?_,old,found,expected,same.symm⟩
    have put := Table.find?_put s.store.executions (old.patched patch s.clock) e
    have here : s.store.executions.find? e = some old := found
    rw [← same]
    simpa [handle,moved,State.row,ExecutionStore.get,Execution.patched,named,here] using put

theorem exists_reply {op : Op} (answer : Except String op.Ans) : ∃ choice : Choice, choice.reply op = answer := by
  classical
  exact ⟨{ reply := fun other => if same : other = op then same ▸ answer else .error "" },by simp⟩

theorem handle_quote (choice : Choice) (op : Op) (s : State) (id : String) :
    (handle choice op s).2.store.getQuote id = s.store.getQuote id := by
  cases op with
  | create x state =>
    rcases s.store.create_cases x state choice.id s.clock with ⟨error,refused⟩ | ⟨executions,inserted,created⟩
    · simp [handle,refused]
    · simp [handle,created,ExecutionStore.getQuote]
  | transition e states patch =>
    rcases s.store.transition_cases e states patch none s.clock with
      ⟨error,refused⟩ | ⟨old,found,expected,moved⟩
    · simp [handle,refused]
    · simp [handle,moved,ExecutionStore.getQuote]
  | _ => rfl

theorem elapse_quote (choice : Choice) (s : State) {id : String} {q : Quote}
    (found : s.store.getQuote id = some q) : (elapse choice s).store.getQuote id = some q := by
  unfold elapse
  dsimp only
  split
  · rename_i new quote
    split
    · exact found
    · rename_i fresh
      have other : new.id ≠ id := by
        intro same
        simp [same,found] at fresh
      unfold ExecutionStore.putQuote ExecutionStore.getQuote
      rw [Table.find?_upsert,if_neg other]
      exact found
  · exact found

theorem handle_row (e : String) (choice : Choice) (op : Op) (s : State) :
    RowStep e s op (handle choice op s).2 := by
  cases op with
  | create x state => exact create_row e choice x state s
  | transition id states patch => exact transition_row e choice id states patch s
  | _ => exact .same rfl

section Deployed
variable (web3 : Signer.Web3) (c : Deployment)

theorem row_of_step (e : String) (p : Pool) (event : Event Call Choice) :
    ((system web3 c).step p event).state.row e = p.state.row e ∨
      ∃ i choice op next history, event = .perform i choice ∧
        p.threads i = some ⟨.perform op next,history⟩ ∧
        RowStep e p.state op ((system web3 c).step p event).state := by
  cases event with
  | start call => exact .inl rfl
  | ambient choice =>
    refine .inl ?_
    simp only [System.step,system,elapse,State.row,ExecutionStore.get,ExecutionStore.putQuote]
    split
    · split <;> rfl
    · rfl
  | crash => exact .inl rfl
  | perform i choice =>
    rcases (system web3 c).perform_cases p i choice with ⟨op,next,history,here⟩ | idle
    · refine .inr ⟨i,choice,op,next,history,rfl,here,?_⟩
      rw [(system web3 c).perform_eq here]
      exact handle_row e choice op p.state
    · exact .inl (by rw [idle])

end Deployed

end RatifyOs.Trading
