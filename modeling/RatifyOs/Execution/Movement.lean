import RatifyOs.Execution.RpcSimulator
import Mathlib.Algebra.Order.BigOperators.Group.List
import Mathlib.Tactic.Ring

/-! What the asset deltas of a simulation leave out of the movement they are evidence of. -/
namespace RatifyOs.Execution.RpcSimulator
open Data Data.Result Signer

def Plain (s : String) : Prop := ':' ∉ s.toList

private theorem split_unique {x y w z : List Char} {c : Char} (absent : c ∉ x) (absent' : c ∉ y)
    (same : x ++ c :: w = y ++ c :: z) : x = y ∧ w = z := by
  induction x generalizing y with
  | nil =>
    cases y with
    | nil => exact ⟨rfl,(List.cons.inj same).2⟩
    | cons d y =>
      refine absurd (List.mem_cons.mpr (.inl ?_)) absent'
      exact (List.cons.inj same).1
  | cons b x ih =>
    cases y with
    | nil =>
      refine absurd (List.mem_cons.mpr (.inl ?_)) absent
      exact (List.cons.inj same).1.symm
    | cons d y =>
      obtain ⟨head,tail⟩ := List.cons.inj same
      obtain ⟨rest,ends⟩ := ih (fun inside => absent (List.mem_cons_of_mem _ inside))
        (fun inside => absent' (List.mem_cons_of_mem _ inside)) tail
      exact ⟨by rw [head,rest],ends⟩

theorem key_inj {a b o p : String} (plain : Plain a) (plain' : Plain b)
    (same : a ++ ":" ++ o = b ++ ":" ++ p) : a = b ∧ o = p := by
  have chars := congrArg String.toList same
  simp only [String.toList_append] at chars
  change (a.toList ++ [':']) ++ o.toList = (b.toList ++ [':']) ++ p.toList at chars
  rw [List.append_assoc,List.append_assoc,List.singleton_append,List.singleton_append] at chars
  obtain ⟨assets,owners⟩ := split_unique plain plain' chars
  exact ⟨String.toList_inj.mp assets,String.toList_inj.mp owners⟩

section Deltas
variable (web3 : Web3)

/-- What a token account held that is a token account no longer. -/
def dropped (asset owner : String) (seen : Observed) : ℤ :=
  if tokenAccount web3 seen.after = none then tokenHolding web3 asset owner seen.before else 0

def evidencedAccounts (seen : Observation) : List Observed :=
  observedAccounts seen (seen.value.accounts.getD [])

section Gateway
variable (isPublicKey : String → Bool) (toLowerCase : String → String)
  (deserializeTable : Bytes → Option (List String))
  (writable : VersionedTransaction → List (List String) → List String)

/-- `RpcSimulator.simulate` as the gateway depends on it. -/
def simulator (o : RpcSimulatorOptions) (node : Node) (q : SimulationRequest) : Except String RpcSimulationResult :=
  (simulate web3 deserializeTable writable o node q).mapError (·.message)

/-- Where the gateway accepts, no owner's total of an asset that may not move has changed. -/
def Guarded (o : RpcSimulatorOptions) (node : Node) (q : SimulationRequest) (seen : Observation) : Prop :=
  ∀ t context p, prepare isPublicKey toLowerCase web3
      (simulator web3 deserializeTable writable o node) t context = .ok p → p.request = q →
    ∀ asset, asset ∉ context.allowedAssets → ∀ owner, movement web3 (evidencedAccounts seen) asset owner = 0

end Gateway

end Deltas

/-! A token account that holds five units and is closed by the transaction. -/
namespace Sample
open Signer.Sample

def tokenData : Bytes := payer ++ program ++ (5 :: List.replicate 100 0)

def held : RpcAccount := ⟨2039280,TOKEN_PROGRAM_ID,.text tokenData.toBase64⟩

def node (before : Option RpcAccount) : Node where
  getGenesisHash := .ok "EtWTRABZaYq6iMfeYKouRu166VU2xqa1wcaWoxPkrZBG"
  lookupTables _ := .error (.coded "unused")
  getMultipleAccounts _ := .ok ⟨some 10,some [before]⟩
  simulateTransaction _ _ _ _ := .ok ⟨some 11,none,some [],some [none],150⟩
  getFeeForMessage _ := .ok (some 5000)

def options : RpcSimulatorOptions where
  cluster := "devnet"

def request : SimulationRequest where
  cluster := "devnet"
  transaction := (wire signature 1).toBase64
  message := ""
  messageHash := messageHash
  feePayer := ""
  recentBlockhash := ""
  lastValidBlockHeight := 100
  programIds := []
  accountKeys := []
  instructions := []
  addressTableLookups := []
  policyHash := ""

def answer : SimulateAnswer := ⟨some 11,none,some [],some [none],150⟩

def closed (before : Option RpcAccount) : Observation := ⟨["vault"],[before],11,answer⟩

def evidence (deltas : List AssetDelta) : RpcSimulationResult where
  success := true
  slot := 11
  blockhash := ""
  messageHash := messageHash
  unitsConsumed := 150
  feeLamports := 5000
  logs := []
  accountStates := [⟨"vault",0,"",none⟩]
  assetDeltas := deltas
  capabilities := some ⟨true,true,true,true⟩
  err := none

def prepared : PreparedTransaction := ⟨"devnet",(wire signature 1).toBase64,100⟩

def context : ExecutionContext := ⟨"",11,0,["native"],none⟩

theorem observed (before : Option RpcAccount) {q : SimulationRequest} (cluster : q.cluster = "devnet")
    (wired : q.transaction = (wire signature 1).toBase64) (hashed : q.messageHash = messageHash)
    (named : q.addressTableLookups = []) :
    observe Signer.Sample.web3 (fun _ => none) (fun _ _ => ["vault"]) options (node before) q = .ok (closed before) := by
  rw [observe,cluster,wired,hashed,decodes (.inl rfl),lookupTables,if_pos named]
  rfl

theorem built : buildSimulationRequest Signer.Sample.web3 prepared "" =
    .ok (simulationRequestOf (decoded 1) "devnet" 100 "") := by
  rw [buildSimulationRequest,prepared,decodes (.inl rfl)]
  rfl

end Sample

end RatifyOs.Execution.RpcSimulator
