import RatifyOs.Pools.Guards
import RatifyOs.Signer.Fees

/-! The transactions of the two builders: the instructions of a curve trade, and the budget that
is put in front of the instructions of either. `web3.js` is a parameter. -/
namespace RatifyOs.Pools
open Data Data.Result
open Signer (COMPUTE_BUDGET_PROGRAM_ID decodeTransaction DecodedTransaction)

abbrev PublicKey := String

structure AccountMeta where
  pubkey : PublicKey
  isSigner : Bool
  isWritable : Bool
  deriving DecidableEq

structure TransactionInstruction where
  programId : PublicKey
  keys : List AccountMeta
  data : Bytes
  deriving DecidableEq

inductive Seed where
  | text (s : String)
  | key (k : PublicKey)
  deriving DecidableEq

/-- What the builders call of `web3.js`. `compileV0` makes the unsigned transaction of a payer, a
blockhash and instructions, and writes it in base64. -/
structure Web3Builder where
  publicKey : String → Except Thrown PublicKey
  findProgramAddress : List Seed → PublicKey → PublicKey
  setComputeUnitLimit : ℕ → Except Thrown TransactionInstruction
  setComputeUnitPrice : Double → Except Thrown TransactionInstruction
  compileV0 : PublicKey → String → List TransactionInstruction → Except Thrown String

def littleEndianBytes : ℕ → ℕ → Bytes
  | 0, _ => []
  | width + 1, n => .ofNat n :: littleEndianBytes width (n / 256)

def u64le (v : ℤ) : Except Thrown Bytes := do
  reject (v < 0 ∨ v > 18446744073709551615) (.range s!"value out of u64 range: {v}")
  return littleEndianBytes 8 v.toNat

/-! Accounts and instructions of the bonding curve. -/

def PUMP_PROGRAM_ID : PublicKey := "6EF8rrecthR5Dkzon8Nwu78hRvfCKubJ14M5uBEwF6P"
def PUMP_FEE_PROGRAM_ID : PublicKey := "pfeeUxB6jkeY1Hxd7CsFCAjcbHA9rWtchMGdZ6VojVZ"
def TOKEN_PROGRAM_ID : PublicKey := "TokenkegQfeZyiNwAJbNbGKPFXCWuBvf9Ss623VQ5DA"
def TOKEN_2022_PROGRAM_ID : PublicKey := "TokenzQdBNbLqP5VEhdkAS6EPFLC1PHnBqCXEpPxuEb"
def ASSOCIATED_TOKEN_PROGRAM_ID : PublicKey := "ATokenGPvbdGVxr1b2hvZbsiqW5xWH25efTNsLJA8knL"
def SYSTEM_PROGRAM_ID : PublicKey := "11111111111111111111111111111111"
def BUY_DISCRIMINATOR : Bytes := [102,6,61,18,1,218,235,234]

structure CurveIxContext where
  user : PublicKey
  mint : PublicKey
  creator : PublicKey
  feeRecipient : PublicKey

section Curve
variable (web3 : Web3Builder) (ctx : CurveIxContext)

def associatedTokenAddress (mint owner : PublicKey) (tokenProgramId : PublicKey := TOKEN_PROGRAM_ID) : PublicKey :=
  web3.findProgramAddress [.key owner,.key tokenProgramId,.key mint] ASSOCIATED_TOKEN_PROGRAM_ID

def bondingCurvePda : PublicKey := web3.findProgramAddress [.text "bonding-curve",.key ctx.mint] PUMP_PROGRAM_ID

/-- Address, signer, writable: the order of the `buy` accounts is that of the program. -/
def buyAccounts : List AccountMeta := [
  ⟨web3.findProgramAddress [.text "global"] PUMP_PROGRAM_ID,false,false⟩,
  ⟨ctx.feeRecipient,false,true⟩,
  ⟨ctx.mint,false,false⟩,
  ⟨bondingCurvePda web3 ctx,false,true⟩,
  ⟨associatedTokenAddress web3 ctx.mint (bondingCurvePda web3 ctx),false,true⟩,
  ⟨associatedTokenAddress web3 ctx.mint ctx.user,false,true⟩,
  ⟨ctx.user,true,true⟩,
  ⟨SYSTEM_PROGRAM_ID,false,false⟩,
  ⟨TOKEN_PROGRAM_ID,false,false⟩,
  ⟨web3.findProgramAddress [.text "creator-vault",.key ctx.creator] PUMP_PROGRAM_ID,false,true⟩,
  ⟨web3.findProgramAddress [.text "__event_authority"] PUMP_PROGRAM_ID,false,false⟩,
  ⟨PUMP_PROGRAM_ID,false,false⟩,
  ⟨web3.findProgramAddress [.text "global_volume_accumulator"] PUMP_PROGRAM_ID,false,false⟩,
  ⟨web3.findProgramAddress [.text "user_volume_accumulator",.key ctx.user] PUMP_PROGRAM_ID,false,true⟩,
  ⟨web3.findProgramAddress [.text "fee_config",.key PUMP_PROGRAM_ID] PUMP_FEE_PROGRAM_ID,false,false⟩,
  ⟨PUMP_FEE_PROGRAM_ID,false,false⟩]

/-- `buy(amount: u64, max_sol_cost: u64, track_volume: OptionBool)` -/
def buildBuyInstruction (tokenAmount maxSolCostLamports : ℤ) (trackVolume : Bool := true) :
    Except Thrown TransactionInstruction := do
  let amount ← u64le tokenAmount
  let maxSolCost ← u64le maxSolCostLamports
  return ⟨PUMP_PROGRAM_ID,buyAccounts web3 ctx,BUY_DISCRIMINATOR ++ amount ++ maxSolCost ++ [if trackVolume then 1 else 0]⟩

/-- An idempotent create of the user's token account. -/
def ensureUserAtaInstruction : TransactionInstruction where
  programId := ASSOCIATED_TOKEN_PROGRAM_ID
  keys := [
    ⟨ctx.user,true,true⟩,
    ⟨associatedTokenAddress web3 ctx.mint ctx.user,false,true⟩,
    ⟨ctx.user,false,false⟩,
    ⟨ctx.mint,false,false⟩,
    ⟨SYSTEM_PROGRAM_ID,false,false⟩,
    ⟨TOKEN_PROGRAM_ID,false,false⟩]
  data := [1]

/-- The seed is a whole number and not negative. -/
def pickFeeRecipient (recipients : List String) (primary : String) (seed : ℕ) : Except Thrown PublicKey :=
  web3.publicKey (recipients[seed % recipients.length]?.getD primary)

end Curve

/-! The budget of a transaction. -/

structure BuiltTx where
  unsignedTxBase64 : String
  recentBlockhash : String
  priorityFeeLamports : Double
  computeUnitLimit : ℕ

def DEFAULT_CU_LIMIT : ℕ := 250000

def DLMM_CU_LIMIT : ℕ := 600000

/-- Micro-lamports per compute unit. -/
def unitPrice (priorityFeeLamports : Double) (cuLimit : ℕ) : Double :=
  (priorityFeeLamports * 1000000 / .finite cuLimit).floor

def declaredFee (microLamports : Double) (cuLimit : ℕ) : Double := (microLamports * .finite cuLimit / 1000000).floor

section Budget
variable (web3 : Web3Builder)

/-- A limit and a price in front of the instructions, as both builders write them. -/
def withBudget (payer recentBlockhash : String) (instructions : List TransactionInstruction) (priorityFeeLamports : Double)
    (cuLimit : ℕ) : Except Thrown BuiltTx := do
  let microLamports := unitPrice priorityFeeLamports cuLimit
  let limit ← web3.setComputeUnitLimit cuLimit
  let price ← web3.setComputeUnitPrice microLamports
  let unsignedTxBase64 ← web3.compileV0 payer recentBlockhash (limit :: price :: instructions)
  return ⟨unsignedTxBase64,recentBlockhash,declaredFee microLamports cuLimit,cuLimit⟩

def buildUnsignedTx (payer : PublicKey) (instructions : List TransactionInstruction) (recentBlockhash : String)
    (priorityFeeLamports : Double) (computeUnitLimit : Option ℕ := none) : Except Thrown BuiltTx := do
  reject (¬priorityFeeLamports.isFinite ∨ priorityFeeLamports < 0) (.range "priorityFeeLamports must be finite and non-negative")
  withBudget web3 payer recentBlockhash instructions priorityFeeLamports (computeUnitLimit.getD DEFAULT_CU_LIMIT)

structure Blockhash where
  blockhash : String
  lastValidBlockHeight : ℕ

/-- `#draft` of the DLMM venue -/
def MeteoraDlmmVenue.draft (latest : Blockhash) (instructions : List TransactionInstruction) (extraSigners : List String) (payer : String)
    (priorityFeeLamports : Double) : Except Thrown VenueTxDraft := do
  let payerKey ← web3.publicKey payer
  let built ← withBudget web3 payerKey latest.blockhash instructions (Double.max 0 priorityFeeLamports) DLMM_CU_LIMIT
  return ⟨built.unsignedTxBase64,latest.blockhash,latest.lastValidBlockHeight,built.priorityFeeLamports,extraSigners⟩

end Budget

end RatifyOs.Pools
