import RatifyOs.Data.Tally
import RatifyOs.Execution.Issuer

/-! Simulation over raw JSON-RPC, what the gateway demands of its evidence, and the
movement the evidence is about. The node, `web3.js` and `bs58` are parameters. -/
namespace RatifyOs.Execution
open Data Data.Result Signer

def NATIVE_ASSET : String := "native"

/-- The `SimulationResult` with all its fields. -/
structure RpcSimulationResult where
  success : Bool
  slot : ℤ
  blockhash : String
  messageHash : String
  unitsConsumed : ℤ
  feeLamports : ℤ
  logs : List String
  accountStates : List AccountState
  assetDeltas : List AssetDelta
  capabilities : Option SimulationCapabilities
  err : Option String
  deriving DecidableEq

namespace RpcSimulator

structure RpcSimulationError where
  code : String
  message : String
  deriving DecidableEq

def RpcSimulationError.coded (code : String) : RpcSimulationError := ⟨code,code⟩

inductive AccountData where
  | text (encoded : String)
  | parts (encoded : List String)
  deriving DecidableEq

structure RpcAccount where
  lamports : ℤ
  owner : String
  data : AccountData
  deriving DecidableEq

def accountData : Option RpcAccount → Bytes
  | none => []
  | some ⟨_,_,.text encoded⟩ => .ofBase64 encoded
  | some ⟨_,_,.parts encoded⟩ => .ofBase64 (encoded.head?.getD "")

def stateOf (address : String) (a : Option RpcAccount) : AccountState where
  address := address
  lamports := (a.map (·.lamports)).getD 0
  owner := (a.map (·.owner)).getD ""
  data := a.map fun found => (accountData (some found)).toBase64

def TOKEN_PROGRAM_ID : String := "TokenkegQfeZyiNwAJbNbGKPFXCWuBvf9Ss623VQ5DA"

def TOKEN_2022_PROGRAM_ID : String := "TokenzQdBNbLqP5VEhdkAS6EPFLC1PHnBqCXEpPxuEb"

def TOKEN_PROGRAMS : List String := [TOKEN_PROGRAM_ID,TOKEN_2022_PROGRAM_ID]

/-- SPL token account layout: mint[0..32] owner[32..64] amount u64le[64..72]. -/
def SPL_ACCOUNT_BYTES : ℕ := 165

def CLUSTER_GENESIS_HASHES : List (String × String) :=
  [("mainnet-beta","5eykt4UsFv8P8NJdTREpY1vzqKqZKvdpKuc147dw2N9d"),
    ("devnet","EtWTRABZaYq6iMfeYKouRu166VU2xqa1wcaWoxPkrZBG"),
    ("testnet","4uhcVJyU9pJkvQyS88uRDiswHXSCkY3zQawwpjk2NsNY")]

structure TokenAccount where
  mint : String
  owner : String
  amount : ℕ
  deriving DecidableEq

def readBigUInt64LE (bytes : Bytes) (offset : ℕ) : ℕ :=
  ((bytes.drop offset).take 8).foldr (fun b n => b.toNat + 256 * n) 0

structure RpcSimulatorOptions where
  cluster : String
  genesisHash : Option String := none
  maxSlotDrift : Option ℤ := none
  maxObservedAccounts : Option ℕ := none
  addressLookupTables : List String := []

/-- `{ context: { slot }, value }`; the slot is absent unless it is a safe integer. -/
structure AccountsAnswer where
  slot : Option ℤ
  value : Option (List (Option RpcAccount))

structure SimulateAnswer where
  slot : Option ℤ
  /-- The error union as `decodeSimulationError` renders it. -/
  err : Option String
  logs : Option (List String)
  accounts : Option (List (Option RpcAccount))
  unitsConsumed : ℤ
  deriving DecidableEq

/-- What the node answers to each call, if the call gets an answer. -/
structure Node where
  getGenesisHash : Except RpcSimulationError String
  lookupTables : List String → Except RpcSimulationError AccountsAnswer
  getMultipleAccounts : List String → Except RpcSimulationError AccountsAnswer
  simulateTransaction : (transaction : String) → (sigVerify : Bool) → (minContextSlot : ℤ) →
    (addresses : List String) → Except RpcSimulationError SimulateAnswer
  getFeeForMessage : (message : String) → Except RpcSimulationError (Option ℤ)

/-- A writable account with its state before and after. -/
structure Observed where
  address : String
  before : Option RpcAccount
  after : Option RpcAccount

/-- What a simulation has read when the node has answered it. -/
structure Observation where
  addresses : List String
  preAccounts : List (Option RpcAccount)
  slot : ℤ
  value : SimulateAnswer
  deriving DecidableEq

section Simulator
variable (web3 : Web3) (deserializeTable : Bytes → Option (List String))
  (writable : VersionedTransaction → List (List String) → List String)

/-- Decode an SPL token account into (mint, owner, amount). -/
def tokenAccount (a : Option RpcAccount) : Option TokenAccount := do
  let account ← a
  if account.owner ∉ TOKEN_PROGRAMS then none
  else
    let data := accountData a
    if data.length < SPL_ACCOUNT_BYTES then none
    else
      return {
        mint := web3.base58 (data.take 32)
        owner := web3.base58 ((data.drop 32).take 32)
        amount := readBigUInt64LE data 64 }

def lookupTable (values : List (Option RpcAccount)) (key : String) (i : ℕ) :
    Except RpcSimulationError (List String) := do
  let account ← required (values[i]?.join)
    ⟨"address_table_lookup_missing","address lookup table " ++ key ++ " not found"⟩
  required (deserializeTable (accountData (some account)))
    ⟨"address_table_lookup_invalid","address lookup table " ++ key ++ " could not be decoded"⟩

def lookupTables (o : RpcSimulatorOptions) (node : Node) (q : SimulationRequest) :
    Except RpcSimulationError (List (List String)) := do
  if q.addressTableLookups = [] then return []
  else
    q.addressTableLookups.forM fun key =>
      reject (key ∉ o.addressLookupTables) ⟨"address_table_lookup_unpinned",
        "address lookup table " ++ key ++ " is not pinned by the operator"⟩
    let response ← node.lookupTables q.addressTableLookups
    q.addressTableLookups.zipIdx.mapM fun (key,i) =>
      lookupTable deserializeTable (response.value.getD []) key i

/-- Every writable account the message can mutate, in message order. -/
def writableAccounts (o : RpcSimulatorOptions) (tx : VersionedTransaction) (tables : List (List String)) :
    Except RpcSimulationError (List String) := do
  let unique := (writable tx tables).eraseDups
  let max := o.maxObservedAccounts.getD 64
  reject (unique.length > max) ⟨"observed_accounts_exceeded",toString unique.length ++
    " writable accounts exceeds the " ++ toString max ++ " this simulator will observe"⟩
  return unique

/-- The calls of a simulation, up to the node's answer about the transaction. -/
def observe (o : RpcSimulatorOptions) (node : Node) (q : SimulationRequest) :
    Except RpcSimulationError Observation := do
  let expectedGenesis ← required (o.genesisHash.or (CLUSTER_GENESIS_HASHES.lookup o.cluster))
    ⟨"cluster_unknown","no genesis hash known for cluster " ++ o.cluster ++ "; supply genesisHash"⟩
  reject (q.cluster ≠ o.cluster) (.coded "cluster_mismatch")
  let genesisHash ← node.getGenesisHash
  reject (genesisHash ≠ expectedGenesis) (.coded "cluster_mismatch")
  let decoded ← (decodeTransaction web3 q.transaction).mapError RpcSimulationError.coded
  reject (decoded.messageHash ≠ q.messageHash) (.coded "transaction_mismatch")
  let sigVerify := decoded.signatures.all (·.isSome)
  let tables ← lookupTables deserializeTable o node q
  let addresses ← writableAccounts writable o decoded.transaction tables
  let pre ← node.getMultipleAccounts addresses
  let preSlot ← required pre.slot (.coded "context_slot_invalid")
  let value ← node.simulateTransaction q.transaction sigVerify preSlot addresses
  let slot ← required value.slot (.coded "context_slot_invalid")
  reject (slot < preSlot) (.coded "slot_regressed")
  reject (slot - preSlot > o.maxSlotDrift.getD 150) (.coded "slot_drift_exceeded")
  return ⟨addresses,pre.value.getD [],slot,value⟩

abbrev Totals := Table fun d : AssetDelta => d.asset ++ ":" ++ d.owner

def totals : Tallied (fun d : AssetDelta => d.asset ++ ":" ++ d.owner) ℤ where
  amount := AssetDelta.amount
  grow prior amount := { prior with amount := prior.amount + amount }
  key_grow _ _ := rfl
  amount_grow _ _ := rfl

def add (t : Totals) (d : AssetDelta) : Totals := if d.amount = 0 then t else totals.add t d

def lamportsOf (a : Option RpcAccount) : ℤ := (a.map (·.lamports)).getD 0

def nativeDelta (seen : Observed) : AssetDelta :=
  ⟨NATIVE_ASSET,seen.address,lamportsOf seen.after - lamportsOf seen.before⟩

/-- One turn of the loop over the writable accounts. -/
def addDeltas (t : Totals) (seen : Observed) : Except RpcSimulationError Totals := do
  let moved := add t (nativeDelta seen)
  match tokenAccount web3 seen.after with
  | none => return moved
  | some post =>
    let prior := tokenAccount web3 seen.before
    -- A token account that changed mint or owner is not the same account.
    reject (∃ p ∈ prior, p.mint ≠ post.mint ∨ p.owner ≠ post.owner) (.coded "token_account_identity_changed")
    return add moved ⟨post.mint,post.owner,post.amount - ((prior.map (·.amount)).getD 0 : ℕ)⟩

def observedAccounts (seen : Observation) (postAccounts : List (Option RpcAccount)) : List Observed :=
  seen.addresses.zipIdx.map fun (address,i) => ⟨address,seen.preAccounts[i]?.join,postAccounts[i]?.join⟩

def report (node : Node) (q : SimulationRequest) (seen : Observation) :
    Except RpcSimulationError RpcSimulationResult := do
  let value := seen.value
  let unitsConsumed := max 0 value.unitsConsumed
  match value.err with
  | some err =>
    return {
      success := false, slot := seen.slot, blockhash := q.recentBlockhash, messageHash := q.messageHash
      unitsConsumed, feeLamports := 0, logs := value.logs.getD [], accountStates := [], assetDeltas := []
      capabilities := some ⟨false,value.logs.isSome,false,true⟩, err := some err }
  | none =>
    let postAccounts ← required value.accounts ⟨"account_states_unavailable",
      "simulateTransaction returned no account states; asset deltas cannot be derived"⟩
    reject (postAccounts.length ≠ seen.addresses.length) (.coded "account_states_incomplete")
    let logs ← required value.logs ⟨"logs_unavailable","no program logs"⟩
    let fee ← node.getFeeForMessage q.message
    let feeLamports ← required fee ⟨"fee_unavailable",
      "getFeeForMessage returned no fee; the recent blockhash is unknown to this cluster"⟩
    let accounts := observedAccounts seen postAccounts
    let moved ← accounts.foldlM (addDeltas web3) .empty
    return {
      success := true, slot := seen.slot, blockhash := q.recentBlockhash, messageHash := q.messageHash
      unitsConsumed, feeLamports, logs
      accountStates := accounts.map fun a => stateOf a.address a.after
      assetDeltas := moved.rows
      capabilities := some ⟨true,true,true,true⟩, err := none }

def simulate (o : RpcSimulatorOptions) (node : Node) (q : SimulationRequest) :
    Except RpcSimulationError RpcSimulationResult :=
  observe web3 deserializeTable writable o node q >>= report web3 node q

/-! What the accounts hold, and what the evidence says moved. -/

def tokenHolding (asset owner : String) (a : Option RpcAccount) : ℤ :=
  match tokenAccount web3 a with
  | some t => if t.mint = asset ∧ t.owner = owner then t.amount else 0
  | none => 0

/-- What one account holds of an asset for an owner. -/
def holding (asset owner address : String) (a : Option RpcAccount) : ℤ :=
  (if NATIVE_ASSET = asset ∧ address = owner then lamportsOf a else 0) + tokenHolding web3 asset owner a

/-- The owner's total after less the total before, over the observed accounts. -/
def movement (accounts : List Observed) (asset owner : String) : ℤ :=
  (accounts.map fun seen => holding web3 asset owner seen.address seen.after).sum -
    (accounts.map fun seen => holding web3 asset owner seen.address seen.before).sum

def reported (deltas : List AssetDelta) (asset owner : String) : ℤ :=
  ((deltas.filter fun d => d.asset = asset ∧ d.owner = owner).map (·.amount)).sum

end Simulator

end RpcSimulator

structure SafetyContext where
  expectedMessageHash : String
  maxSlotLag : ℤ
  currentSlot : ℤ
  allowedAssets : List String
  currentBlockHeight : Option ℤ
  lastValidBlockHeight : Option ℤ

section Safety
variable (isPublicKey : String → Bool) (toLowerCase : String → String)

/-- No asset appears twice for one owner, and each of them may move. -/
def assertDeltasAllowed (allowedAssets : List String) : List AssetDelta → List String → Except String Unit
  | [],_ => return
  | d :: deltas,seen => do
    let k := d.asset ++ ":" ++ d.owner
    reject (k ∈ seen) "simulation_duplicate_asset_delta"
    reject (d.asset ∉ allowedAssets) ("unexpected_asset_delta:" ++ d.asset)
    assertDeltasAllowed allowedAssets deltas (k :: seen)

def assertSimulationSafe (result : RpcSimulationResult) (context : SafetyContext) : Except String Unit := do
  reject (¬result.success) ("simulation_failed" ++ ((present result.err).map (":" ++ ·)).getD "")
  let c ← required result.capabilities "simulation_capabilities_absent"
  reject (¬c.balances) "simulation_balances_unavailable"
  reject (¬c.fee) "simulation_fee_unavailable"
  reject (¬c.logs) "simulation_logs_unavailable"
  reject (¬c.addressTableLookups) "simulation_address_table_lookup_unresolved"
  reject (¬isPublicKey result.blockhash) "simulation_blockhash_invalid"
  reject (toLowerCase result.messageHash ≠ toLowerCase context.expectedMessageHash)
    "simulation_transaction_mismatch"
  reject (result.slot > context.currentSlot ∨ context.currentSlot - result.slot > context.maxSlotLag)
    "simulation_stale_slot"
  reject (∃ height ∈ context.currentBlockHeight, ∃ last ∈ context.lastValidBlockHeight, height > last)
    "simulation_blockhash_expired"
  assertDeltasAllowed context.allowedAssets result.assetDeltas []

structure ExecutionContext where
  policyHash : String
  currentSlot : ℤ
  maxSlotLag : ℤ
  allowedAssets : List String
  currentBlockHeight : Option ℤ

structure Prepared where
  messageHash : String
  request : SimulationRequest
  simulation : RpcSimulationResult

/-- `ExecutionGateway.prepare` -/
def prepare (web3 : Web3) (simulator : SimulationRequest → Except String RpcSimulationResult)
    (transaction : PreparedTransaction) (context : ExecutionContext) : Except String Prepared := do
  let request ← buildSimulationRequest web3 transaction context.policyHash
  let simulation ← simulator request
  assertSimulationSafe isPublicKey toLowerCase simulation {
    expectedMessageHash := request.messageHash
    currentSlot := context.currentSlot
    maxSlotLag := context.maxSlotLag
    allowedAssets := context.allowedAssets
    currentBlockHeight := context.currentBlockHeight
    lastValidBlockHeight := context.currentBlockHeight.map fun _ => (request.lastValidBlockHeight : ℤ) }
  return ⟨request.messageHash,request,simulation⟩

end Safety

end RatifyOs.Execution
