import RatifyOs.Data.Double
import RatifyOs.Data.Result
import RatifyOs.Kernel.Guards

/-! Exits from liquidity positions: the intents that `pools_close` and `pools_rebalance` build,
and what the kernel's static guards make of them. -/
namespace RatifyOs.Pools
open Data Data.Result Kernel

inductive PoolGuardCode where
  | spendCap
  | positionCap
  | maxPositions
  | baseLegCap
  | mintAuthority
  | freezeAuthority
  | token2022
  | rugHeat
  | liquidityFloor
  | slippage
  | rangeInvalid
  | migrated
  | unsupportedCurve
  | extraSigner
  | venueError
  deriving DecidableEq

/-- A `PoolGuardError`, or the `RangeError` of `BigInt(x)`. -/
inductive Thrown where
  | pool (code : PoolGuardCode) (message : String)
  | range (message : String)
  deriving DecidableEq

def refuse (c : Prop) [Decidable c] (code : PoolGuardCode) (message : String) : Except Thrown Unit :=
  Result.reject c (.pool code message)

def bigInt : Double → Except Thrown ℤ
  | .finite q => if q.den = 1 then .ok q.num else .error (.range "not an integer")
  | _ => .error (.range "not an integer")

structure VenueTxDraft where
  unsignedTxBase64 : String
  recentBlockhash : String
  lastValidBlockHeight : ℕ
  priorityFeeLamports : Double
  extraSigners : List String

structure PoolSummary where
  address : String
  quoteMint : String
  quoteDecimals : ℕ

structure LpPosition where
  poolAddress : String
  owner : String
  lowerLevel : ℤ
  upperLevel : ℤ

structure TokenAmount where
  mint : String
  amount : ℤ
  decimals : ℕ
  deriving DecidableEq

def WSOL_MINT : String := "So11111111111111111111111111111111111111112"

def SOL_DECIMALS : ℕ := 9

def BASE_FEE_LAMPORTS : ℤ := 5000

/-- The cost of the transaction, for an action that takes nothing else out of the wallet. -/
def withdrawInputLeg (priorityFeeLamports : Double) (signatures : Option ℤ := none)
    (rentAllowanceLamports : Option ℤ := none) : Except Thrown TokenAmount := do
  let sigs := max 1 (signatures.getD 1)
  let fee ← bigInt (Double.max 0 priorityFeeLamports.floor)
  let amount := fee + BASE_FEE_LAMPORTS * sigs + rentAllowanceLamports.getD 0
  return ⟨WSOL_MINT,if amount > 0 then amount else 1,SOL_DECIMALS⟩

structure IntentDraft where
  kind : IntentKind
  source : String
  input : TokenAmount
  outputMint : String
  inputProvenance : Option MintProvenance := none
  outputProvenance : Option MintProvenance := none
  unsignedTxBase64 : String
  recentBlockhash : String
  lastValidBlockHeight : ℕ
  priorityFeeLamports : Double
  summary : String
  expectedOut : ℤ
  minOut : ℤ
  slippageBps : ℤ

/-- A number of the kernel's, where it is one. -/
def finite? : Double → Option ℚ
  | .finite q => some q
  | _ => none

section Intents
variable (json : IntentDraft → Text)

/-- `slippageBps` is whole at every caller, where `Math.round` keeps it. -/
def toTradeIntent (d : IntentDraft) : Except Thrown TradeIntent := do
  refuse (d.input.amount ≤ 0) .spendCap s!"{d.source}: input leg must be positive"
  refuse (d.minOut > d.expectedOut) .slippage
    s!"{d.source}: minOut {d.minOut} exceeds expectedOut {d.expectedOut}"
  refuse (d.unsignedTxBase64 = "") .venueError s!"{d.source}: no transaction was built"
  refuse (¬d.priorityFeeLamports.isFinite ∨ d.priorityFeeLamports < 0) .venueError
    s!"{d.source}: priority fee must be finite and non-negative"
  return {
    kind := d.kind
    source := d.source
    inputMint := d.input.mint
    inputAmount := d.input.amount
    outputMint := d.outputMint
    inputProvenance := d.inputProvenance.getD .user
    outputProvenance := d.outputProvenance.getD .untrusted
    unsignedTxBase64 := d.unsignedTxBase64
    lastValidBlockHeight := d.lastValidBlockHeight
    landMode := .selfRpc
    landHandle := none
    priorityFeeLamports := finite? d.priorityFeeLamports.floor
    quote := ⟨d.expectedOut,d.minOut,d.slippageBps⟩
    perp := none
    summary := d.summary
    json := json d }

def assertWalletSignableAlone (draft : VenueTxDraft) (source : String) : Except Thrown Unit :=
  refuse (draft.extraSigners ≠ []) .extraSigner
    (s!"{source}: this transaction needs {draft.extraSigners.length} signer(s) beyond the wallet " ++
      "(" ++ ", ".intercalate draft.extraSigners ++ "); the kernel signs one key and will not be handed a second")

def assertOwned (position : Option LpPosition) (missing ownerWallet : String) : Except Thrown LpPosition := do
  match position with
  | none => throw (.pool .venueError missing)
  | some position =>
    refuse (position.owner ≠ ownerWallet) .venueError "that position is not owned by this wallet"
    return position

/-- The exit that both tools build: only its kind, its source and its summary differ. -/
def withdrawal (kind : IntentKind) (source summary : String) (pool : PoolSummary) (draft : VenueTxDraft) :
    Except Thrown TradeIntent := do
  let input ← withdrawInputLeg draft.priorityFeeLamports
  toTradeIntent json {
    kind
    source
    input
    outputMint := pool.quoteMint
    outputProvenance := some .untrusted
    unsignedTxBase64 := draft.unsignedTxBase64
    recentBlockhash := draft.recentBlockhash
    lastValidBlockHeight := draft.lastValidBlockHeight
    priorityFeeLamports := draft.priorityFeeLamports
    summary
    expectedOut := 0
    minOut := 0
    slippageBps := 0 }

structure CloseConfig where
  poolAddress : String
  positionAddress : String
  bpsToRemove : Option ℕ

/-- `build` of `pools_close`, with what the venue has answered. -/
def buildClose (ownerWallet : String) (cfg : CloseConfig) (pool : PoolSummary) (position : Option LpPosition)
    (draft : VenueTxDraft) (summary : String) : Except Thrown TradeIntent := do
  let bps := cfg.bpsToRemove.getD 10000
  let _ ← assertOwned position s!"position {cfg.positionAddress} not found in {cfg.poolAddress}" ownerWallet
  assertWalletSignableAlone draft "pools_close"
  withdrawal json (if bps = 10000 then .lpClose else .lpRemove) "pools_close" summary pool draft

/-- The exit half of `build` of `pools_rebalance`, once its decision is to move. -/
def buildRebalanceExit (pool : PoolSummary) (draft : VenueTxDraft) (summary : String) : Except Thrown TradeIntent := do
  assertWalletSignableAlone draft "pools_rebalance"
  withdrawal json .lpRebalance "pools_rebalance" summary pool draft

end Intents

/-- What every exit looks like to the kernel: it spends its own fee and the base fee. -/
structure Exits (intent : TradeIntent) (fee : ℤ) : Prop where
  nonneg : 0 ≤ fee
  priorityFee : intent.priorityFeeLamports = some (fee : ℚ)
  inputMint : intent.inputMint = WSOL_MINT
  inputAmount : intent.inputAmount = fee + BASE_FEE_LAMPORTS
  kind : intent.kind = .lpClose ∨ intent.kind = .lpRemove ∨ intent.kind = .lpRebalance
  quote : intent.quote = ⟨0,0,0⟩
  perp : intent.perp = none
  built : intent.unsignedTxBase64 ≠ ""

theorem bigInt_intCast (n : ℤ) : bigInt (.finite n) = .ok n := by simp [bigInt]

theorem withdrawInputLeg_finite {q : ℚ} (nonneg : 0 ≤ q) :
    withdrawInputLeg (.finite q) = .ok ⟨WSOL_MINT,⌊q⌋ + BASE_FEE_LAMPORTS,SOL_DECIMALS⟩ := by
  have whole : (0 : ℤ) ≤ ⌊q⌋ := Int.floor_nonneg.mpr nonneg
  have fee : Double.max 0 (Double.floor (.finite q)) = .finite (⌊q⌋ : ℤ) := by
    rw [Double.floor,show (0 : Double) = .finite (0 : ℕ) from rfl]
    unfold Double.max
    rw [if_neg (by simp)]
    split
    · rfl
    · rename_i below
      rw [Double.finite_lt] at below
      have zero : (⌊q⌋ : ℚ) = (0 : ℕ) := by
        apply le_antisymm
        · exact not_lt.mp below
        · exact_mod_cast whole
      rw [zero]
  unfold withdrawInputLeg
  rw [fee,bigInt_intCast]
  simp only [Option.getD_none]
  change Except.ok _ = _
  rw [if_pos]
  · simp [BASE_FEE_LAMPORTS]
  · simp only [BASE_FEE_LAMPORTS]
    omega

section Exits
variable {json : IntentDraft → Text} {kind : IntentKind} {source summary : String} {pool : PoolSummary}
  {draft : VenueTxDraft} {intent : TradeIntent}

theorem withdrawal_exits (kinds : kind = .lpClose ∨ kind = .lpRemove ∨ kind = .lpRebalance)
    (ok : withdrawal json kind source summary pool draft = .ok intent) : ∃ fee, Exits intent fee := by
  unfold withdrawal at ok
  rw [bind_eq_ok] at ok
  obtain ⟨input,leg,ok⟩ := ok
  simp only [toTradeIntent,refuse,bind_eq_ok,reject_eq_ok,pure_eq_ok,not_or,not_not] at ok
  obtain ⟨_,_,_,_,_,built,_,⟨finite,nonneg⟩,rfl⟩ := ok
  cases asked : draft.priorityFeeLamports with
  | finite q =>
    rw [asked] at nonneg leg
    have nonneg : 0 ≤ q := by
      rw [show (0 : Double) = .finite (0 : ℕ) from rfl,Double.finite_lt] at nonneg
      exact_mod_cast not_lt.mp nonneg
    rw [withdrawInputLeg_finite nonneg,Except.ok.injEq] at leg
    subst leg
    exact ⟨⌊q⌋,Int.floor_nonneg.mpr nonneg,by simp [Double.floor,finite?],rfl,rfl,kinds,rfl,rfl,built⟩
  | infinite negative =>
    rw [asked] at finite
    cases finite
  | nan =>
    rw [asked] at finite
    cases finite

end Exits

/-- An intent that `pools_close` or the exit half of `pools_rebalance` has built. -/
inductive BuiltExit (json : IntentDraft → Text) (intent : TradeIntent) : Prop where
  | close (ownerWallet : String) (cfg : CloseConfig) (pool : PoolSummary) (position : Option LpPosition)
    (draft : VenueTxDraft) (summary : String)
    (ok : buildClose json ownerWallet cfg pool position draft summary = .ok intent)
  | rebalance (pool : PoolSummary) (draft : VenueTxDraft) (summary : String)
    (ok : buildRebalanceExit json pool draft summary = .ok intent)

theorem BuiltExit.exits {json : IntentDraft → Text} {intent : TradeIntent} (built : BuiltExit json intent) :
    ∃ fee, Exits intent fee := by
  cases built with
  | close ownerWallet cfg pool position draft summary ok =>
    simp only [buildClose,bind_eq_ok] at ok
    obtain ⟨_,_,_,_,ok⟩ := ok
    refine withdrawal_exits ?_ ok
    split
    · exact .inl rfl
    · exact .inr (.inl rfl)
  | rebalance pool draft summary ok =>
    simp only [buildRebalanceExit,bind_eq_ok] at ok
    obtain ⟨_,_,ok⟩ := ok
    exact withdrawal_exits (.inr (.inr rfl)) ok

/-- The mint passes the lists of the policy. -/
def MintPasses (policy : PolicyConfig) (mint : String) : Prop :=
  mint ∉ policy.mintDenylist ∧ ∀ allowed, policy.mintAllowlist = some allowed → mint ∈ allowed

theorem mintGuard_ok {policy : PolicyConfig} {mints : List String} (passes : ∀ mint ∈ mints, MintPasses policy mint) :
    mintGuard policy mints = .ok () := by
  induction mints with
  | nil => rfl
  | cons mint mints ih =>
    have first := passes mint List.mem_cons_self
    simp only [mintGuard,bind_eq_ok,refuse_eq_ok]
    refine ⟨(),first.1,(),?_,ih fun other inside => passes other (List.mem_cons_of_mem _ inside)⟩
    rintro ⟨allowed,listed,absent⟩
    exact absent (first.2 allowed (Option.mem_def.mp listed))

/-- The fee of an exit is within the share that the kernel allows of its own input leg. -/
def FeeWithinLeg (policy : PolicyConfig) (fee : ℤ) : Prop :=
  fee ≤ ((fee + BASE_FEE_LAMPORTS) * policy.priorityFeeMaxBps).tdiv 10000

theorem feeGuard_iff {policy : PolicyConfig} {intent : TradeIntent} {fee : ℤ} (exits : Exits intent fee)
    (within : fee ≤ policy.priorityFeeMaxLamports) : feeGuard policy intent = .ok () ↔ FeeWithinLeg policy fee := by
  have positive : intent.inputAmount > 0 := by
    have nonneg := exits.nonneg
    rw [exits.inputAmount,BASE_FEE_LAMPORTS]
    omega
  have bucketed : (quoteBucketFor intent.inputMint).isSome := by
    rw [exits.inputMint]
    decide
  have nonneg : ¬(fee : ℚ) < 0 := not_lt.mpr (by exact_mod_cast exits.nonneg)
  unfold feeGuard
  simp only [exits.priorityFee,if_neg nonneg,if_pos (And.intro bucketed positive)]
  simp only [bind_eq_ok,Except.ok.injEq,exists_eq_left',refuse_eq_ok,not_lt,exits.inputAmount]
  constructor
  · intro passes
    obtain ⟨_,_,leg⟩ := passes
    exact leg
  · exact fun leg => ⟨(),within,leg⟩

theorem feeGuard_of_static {policy : PolicyConfig} {intent : TradeIntent} {opts : GuardOptions}
    (ok : staticGuards policy intent opts = .ok ()) : feeGuard policy intent = .ok () := by
  simp only [staticGuards,bind_eq_ok] at ok
  obtain ⟨_,_,_,_,_,_,_,_,_,_,_,_,_,_,_,fee,_⟩ := ok
  exact fee

/-- An exit that a user has confirmed is accepted exactly when its fee is within the share of its
input leg and the policy's clamp on slippage is not negative. -/
theorem withdrawal_admitted_iff (json : IntentDraft → Text) (intent : TradeIntent) (built : BuiltExit json intent)
    (policy : PolicyConfig) (opts : GuardOptions) (confirmed : opts.confirmedByUser) (live : policy.killSwitch = false)
    (enabled : policy.executionEnabled) (ceiling : ∀ fee ∈ intent.priorityFeeLamports, fee ≤ policy.priorityFeeMaxLamports)
    (input : MintPasses policy intent.inputMint) (output : MintPasses policy intent.outputMint) :
    staticGuards policy intent opts = .ok () ↔
      (∀ fee ∈ intent.priorityFeeLamports, FeeWithinLeg policy ⌊fee⌋) ∧ 0 ≤ policy.maxSlippageBps := by
  obtain ⟨fee,exits⟩ := built.exits
  have within : fee ≤ policy.priorityFeeMaxLamports := by
    exact_mod_cast ceiling fee exits.priorityFee
  have positive : ¬intent.inputAmount ≤ 0 := by
    have nonneg := exits.nonneg
    rw [exits.inputAmount,BASE_FEE_LAMPORTS]
    omega
  have kinds : intent.kind.isIntentKind ∧ collateralGuard intent = .ok () ∧ perpGuard intent = .ok () := by
    rcases exits.kind with kind | kind | kind <;>
      simp [kind,IntentKind.isIntentKind,collateralGuard,IntentKind.postsZeroCollateral,Kernel.refuse,positive,perpGuard,
        IntentKind.isPerpIntentKind,exits.perp]
  have mints : mintGuard policy [intent.inputMint,intent.outputMint] = .ok () := by
    apply mintGuard_ok
    simp only [List.forall_mem_cons,List.not_mem_nil,false_implies,implies_true,and_true]
    exact ⟨input,output⟩
  have fees : (∀ fee ∈ intent.priorityFeeLamports, FeeWithinLeg policy ⌊fee⌋) ↔ FeeWithinLeg policy fee := by
    simp [exits.priorityFee]
  rw [fees,← feeGuard_iff exits within]
  unfold staticGuards
  simp only [bind_eq_ok,refuse_eq_ok,exits.quote,kinds,mints,live,enabled,confirmed,exits.built]
  constructor
  · rintro ⟨_,_,_,_,_,_,_,_,_,_,_,_,_,_,_,fee,_,slippage,_⟩
    exact ⟨fee,not_lt.mp slippage⟩
  · rintro ⟨fee,slippage⟩
    refine ⟨(),by simp,(),by simp,(),by simp,(),trivial,(),trivial,(),by simp,(),by simp,(),fee,(),not_lt.mpr slippage,(),?_,trivial⟩
    simp only [slippageBps,minOutToleranceBps]
    omega

namespace Sample

def draft (fee : ℕ) : VenueTxDraft := ⟨"AQAB","hash",100,.finite fee,[]⟩

def pool : PoolSummary := ⟨"pool","EPjFWdd5AufqSSqeM2qN1xzybapC8G4wEGGkZwyTDt1v",6⟩

def held : LpPosition := ⟨"pool","owner",-10,10⟩

def policy (priorityFeeMaxBps : ℤ) : PolicyConfig where
  executionEnabled := true
  killSwitch := false
  maxSlippageBps := 100
  capsSol := ⟨1000000000,5000000000,10000000000⟩
  capsUsdc := ⟨200000000,1000000000,2000000000⟩
  mintAllowlist := none
  mintDenylist := []
  allowToken2022 := false
  priorityFeeMaxLamports := 5000000
  priorityFeeMaxBps

def exit (fee : ℕ) : TradeIntent where
  kind := .lpClose
  source := "pools_close"
  inputMint := WSOL_MINT
  inputAmount := fee + BASE_FEE_LAMPORTS
  outputMint := pool.quoteMint
  inputProvenance := .user
  outputProvenance := .untrusted
  unsignedTxBase64 := "AQAB"
  lastValidBlockHeight := 100
  landMode := .selfRpc
  landHandle := none
  priorityFeeLamports := some fee
  quote := ⟨0,0,0⟩
  perp := none
  summary := "Withdraw"
  json := []

theorem built (fee : ℕ) : BuiltExit (fun _ => []) (exit fee) := by
  apply BuiltExit.close "owner" ⟨"pool","position",none⟩ pool (some held) (draft fee) "Withdraw"
  have nonneg : (0 : ℚ) ≤ (fee : ℚ) := Nat.cast_nonneg fee
  simp only [buildClose,bind_eq_ok]
  refine ⟨held,rfl,(),rfl,?_⟩
  rw [withdrawal,draft,withdrawInputLeg_finite nonneg]
  simp only [toTradeIntent,bind_eq_ok,refuse,reject_eq_ok,pure_eq_ok]
  refine ⟨_,rfl,(),?_,(),by decide,(),by decide,(),?_,?_⟩
  · simp [BASE_FEE_LAMPORTS]
    omega
  · simp [Double.isFinite]
  · simp [exit,Double.floor,finite?,BASE_FEE_LAMPORTS]

theorem passes (bps : ℤ) (mint : String) : MintPasses (policy bps) mint := ⟨List.not_mem_nil,nofun⟩

/-- The whole of the input leg may go on the fee. -/
theorem withdrawal_admitted : staticGuards (policy 10000) (exit 200000) ⟨false,true⟩ = .ok () := by
  apply (withdrawal_admitted_iff (fun _ => []) (exit 200000) (built 200000) (policy 10000) ⟨false,true⟩ rfl rfl rfl ?_
    (passes _ _) (passes _ _)).mpr
  · constructor
    · rintro _ ⟨⟩
      simp [FeeWithinLeg,BASE_FEE_LAMPORTS,policy]
    · decide
  · rintro _ ⟨⟩
    norm_num [policy]

/-- The fee that the tools ask for by default, under the share that the policy allows by default. -/
theorem withdrawal_refused : ¬∀ (json : IntentDraft → Text) (intent : TradeIntent), BuiltExit json intent →
    ∀ (policy : PolicyConfig) (opts : GuardOptions), opts.confirmedByUser → policy.killSwitch = false →
      policy.executionEnabled → (∀ fee ∈ intent.priorityFeeLamports, fee ≤ policy.priorityFeeMaxLamports) →
        MintPasses policy intent.inputMint → MintPasses policy intent.outputMint →
          staticGuards policy intent opts = .ok () := by
  intro all
  have ceiling : ∀ fee ∈ (exit 200000).priorityFeeLamports, fee ≤ (policy 50).priorityFeeMaxLamports := by
    rintro _ ⟨⟩
    norm_num [policy]
  have accepted := all (fun _ => []) (exit 200000) (built 200000) (policy 50) ⟨false,true⟩ rfl rfl rfl ceiling
    (passes _ _) (passes _ _)
  have exits : Exits (exit 200000) 200000 :=
    ⟨by decide,by norm_num [exit],rfl,rfl,.inl rfl,rfl,rfl,by decide⟩
  have leg := (feeGuard_iff exits (by decide)).mp (feeGuard_of_static accepted)
  simp [FeeWithinLeg,BASE_FEE_LAMPORTS,policy] at leg

end Sample

end RatifyOs.Pools
