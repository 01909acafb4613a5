import RatifyOs.Pools.CurveBuy
import RatifyOs.Pools.Deposit

/-! `pools_open`: what is read before a deposit is admitted, and what the admission leaves open. -/
namespace RatifyOs.Pools
open Data Data.Result Kernel

structure OpenConfig where
  poolAddress : String
  quoteAmountUi : Double
  baseAmountUi : Option Double
  belowBins : Option ℕ
  aboveBins : Option ℕ
  shape : Option LiquidityShape
  positionAddress : Option String

structure OpenLiquidityRequest where
  poolAddress : String
  owner : String
  quoteAmount : ℤ
  baseAmount : ℤ
  lowerLevel : ℤ
  upperLevel : ℤ
  shape : LiquidityShape
  priorityFeeLamports : Double
  positionAddress : Option String

/-- What the tool is composed of, and what venue, chain and signals answer to one call. A mint, a
holding or a reading that cannot be had is absent; a call of the venue that fails throws. -/
structure OpenEnv where
  guards : PoolGuardConfig
  priorityFeeLamports : Option Double
  numberText : Double → String
  json : IntentDraft → Text
  summary : OpenConfig → DepositPool → BinRange → String
  getPool : String → Except Thrown DepositPool
  getMintInfo : String → Option MintRecord
  listPositions : String → Except Thrown (List HeldPosition)
  positionsOf : String → String → Except Thrown (List HeldPosition)
  getTokenBalance : String → String → Option ℤ
  readRugHeat : String → Option RugHeat
  buildOpen : OpenLiquidityRequest → Except Thrown VenueTxDraft

def spanCap (maxSpan : Double) : Double := Double.max 1 (minimum maxSpan (.finite MAX_BIN_PER_POSITION))

/-- The loop of `shrink`, for a cap that is any number; it makes fewer turns than there are bins. -/
def shrinkWithin (cap : Double) : ℕ → ℕ → ℕ → ℕ × ℕ
  | 0, lo, hi => (lo,hi)
  | turns + 1, lo, hi =>
    if cap < .finite (lo + hi + 1 : ℕ) then
      if lo ≥ hi then shrinkWithin cap turns (lo - 1) hi else shrinkWithin cap turns lo (hi - 1)
    else (lo,hi)

/-- `rangeAroundActive` with the span of the guards -/
def rangeWithin (activeBinId : ℤ) (below above : ℕ) (maxSpan : Double) : Except Thrown BinRange := do
  binMathError (activeBinId < MIN_BIN_ID ∨ activeBinId > MAX_BIN_ID)
    s!"binId must be an integer in {MIN_BIN_ID}..{MAX_BIN_ID}, got {activeBinId}"
  let (lo,hi) := shrinkWithin (spanCap maxSpan) (below + above) below above
  return ⟨max MIN_BIN_ID (activeBinId - lo),min MAX_BIN_ID (activeBinId + hi)⟩

section Open
variable (env : OpenEnv)

/-- `getPosition` of the venue: one of the positions that the owner has in the pool. -/
def getPosition (poolAddress positionAddress owner : String) : Except Thrown (Option HeldPosition) := do
  let positions ← env.positionsOf poolAddress owner
  return positions.find? fun p => p.positionAddress = positionAddress

def baseLegOf (pool : DepositPool) (cfg : OpenConfig) : Except Thrown ℤ :=
  match cfg.baseAmountUi.filter fun x => x ≠ 0 ∧ x ≠ .nan with
  | some baseAmountUi => toBaseUnits env.numberText baseAmountUi pool.baseDecimals
  | none => .ok 0

/-- The position that is added to, where the config names one. -/
def existingPosition (req : OpenLiquidityRequest) : Except Thrown (Option HeldPosition) :=
  match req.positionAddress with
  | some positionAddress => getPosition env req.poolAddress positionAddress req.owner
  | none => .ok none

def openRequest (ownerWallet : String) (cfg : OpenConfig) : Except Thrown (DepositPool × OpenLiquidityRequest) := do
  let pool ← env.getPool cfg.poolAddress
  let quoteAmount ← toBaseUnits env.numberText cfg.quoteAmountUi pool.quoteDecimals
  let baseAmount ← baseLegOf env pool cfg
  let range ← rangeWithin pool.activeLevel (cfg.belowBins.getD 10) (cfg.aboveBins.getD 10) env.guards.maxLevelSpan
  return (pool,{
    poolAddress := cfg.poolAddress
    owner := ownerWallet
    quoteAmount
    baseAmount
    lowerLevel := range.lowerBinId
    upperLevel := range.upperBinId
    shape := cfg.shape.getD .spot
    priorityFeeLamports := env.priorityFeeLamports.getD DEFAULT_PRIORITY_FEE_LAMPORTS
    positionAddress := present cfg.positionAddress })

/-- The subject of the guards, from six reads. -/
def openSubject (pool : DepositPool) (req : OpenLiquidityRequest) : Except Thrown LpOpenSubject := do
  let openPositions ← env.listPositions req.owner
  let existing ← existingPosition env req
  return {
    pool
    input := ⟨pool.quoteMint,req.quoteAmount,pool.quoteDecimals⟩
    baseAmount := req.baseAmount
    baseHoldings := if req.baseAmount > 0 then env.getTokenBalance req.owner pool.baseMint else some 0
    mints := [env.getMintInfo pool.baseMint,env.getMintInfo pool.quoteMint]
    rugHeat := env.readRugHeat pool.baseMint
    addQuote := req.quoteAmount
    existingPositionQuote := (existing.map (·.quoteAmount)).getD 0
    openPositions
    isNewPosition := req.positionAddress.isNone
    lowerLevel := req.lowerLevel
    upperLevel := req.upperLevel }

def openWarnings (pool : DepositPool) (baseAmount : ℤ) : List String :=
  (if baseAmount > 0 then
    ["two-sided deposit: the kernel caps only the quote leg; the base leg is bounded by the pools guard"] else []) ++
  (if pool.liquidityQuote.getD 0 = 0 then ["pool quote-side liquidity unknown"] else [])

def buildPoolsOpen (ownerWallet : String) (cfg : OpenConfig) : Except Thrown BuiltIntent := do
  let (pool,req) ← openRequest env ownerWallet cfg
  let subject ← openSubject env pool req
  let refusal ← guardLpOpen env.numberText env.guards subject
  throwRefusal refusal
  let draft ← env.buildOpen req
  assertWalletSignableAlone draft "pools_open"
  binMathError (pool.levelStepBps = 0 ∨ pool.levelStepBps > MAX_BIN_STEP)
    s!"binStep must be an integer in 1..{MAX_BIN_STEP}, got {pool.levelStepBps}"
  let kind : IntentKind := if req.positionAddress.isSome then .lpAdd else .lpOpen
  let intent ← toTradeIntent env.json {
    kind
    source := "pools_open"
    input := ⟨pool.quoteMint,req.quoteAmount,pool.quoteDecimals⟩
    outputMint := pool.baseMint
    outputProvenance := some .untrusted
    unsignedTxBase64 := draft.unsignedTxBase64
    recentBlockhash := draft.recentBlockhash
    lastValidBlockHeight := draft.lastValidBlockHeight
    priorityFeeLamports := draft.priorityFeeLamports
    summary := env.summary cfg pool ⟨req.lowerLevel,req.upperLevel⟩
    expectedOut := 0
    minOut := 0
    slippageBps := 0 }
  return ⟨intent,⟨kind,some pool.address,cfg.positionAddress,openWarnings pool req.baseAmount⟩⟩

end Open

/-- The positions of every wallet, and what the wallets hold. -/
structure Chainstate where
  positions : List HeldPosition
  unique : (positions.map (·.positionAddress)).Nodup
  holding : String → String → ℤ

structure OpenEnv.Reads (env : OpenEnv) (chain : Chainstate) : Prop where
  list : ∀ owner ps, env.listPositions owner = .ok ps → ps.Perm (chain.positions.filter fun p => p.owner = owner)
  pool : ∀ pool owner ps, env.positionsOf pool owner = .ok ps →
    ps.Perm (chain.positions.filter fun p => p.owner = owner ∧ p.poolAddress = pool)
  holding : ∀ owner mint amount, env.getTokenBalance owner mint = some amount → amount = chain.holding owner mint

namespace Chainstate
variable (chain : Chainstate)

def openCount (owner : String) : ℕ := chain.positions.countP fun p => p.owner = owner

/-- The position that a deposit goes to, whoever it is of. -/
def funded (req : OpenLiquidityRequest) : Option HeldPosition :=
  req.positionAddress.bind fun address => chain.positions.find? fun p => p.positionAddress = address

end Chainstate

/-- What the admission of a deposit is to promise. -/
structure FailsClosed (guards : PoolGuardConfig) (chain : Chainstate) (pool : DepositPool) (req : OpenLiquidityRequest) : Prop where
  spend : ∃ limits, limitsFor guards pool.quoteMint = some limits ∧ req.quoteAmount ≤ limits.maxSpendPerAction ∧
    ((chain.funded req).map (·.quoteAmount)).getD 0 + req.quoteAmount ≤ limits.maxLpPositionQuote
  count : .finite (chain.openCount req.owner + if req.positionAddress.isSome then 0 else 1 : ℕ) ≤ guards.maxConcurrentPositions
  base : 0 < req.baseAmount → ∃ percent : ℚ, guards.maxBaseLegPctOfHoldings = .finite percent ∧
    req.baseAmount ≤ percent / 100 * chain.holding req.owner pool.baseMint
  topUp : req.positionAddress.isSome → ∃ p, chain.funded req = some p ∧ p.owner = req.owner ∧ p.poolAddress = req.poolAddress ∧
    p.lowerLevel ≤ req.lowerLevel ∧ req.upperLevel ≤ p.upperLevel

/-- A new position where the cap on positions is no number between two counts; a top-up of a position of
the wallet's in the pool that covers the range, under the cap. -/
def Admissible (guards : PoolGuardConfig) (chain : Chainstate) (req : OpenLiquidityRequest) : Prop :=
  if req.positionAddress.isSome then
    (∃ p, chain.funded req = some p ∧ p.owner = req.owner ∧ p.poolAddress = req.poolAddress ∧
      p.lowerLevel ≤ req.lowerLevel ∧ req.upperLevel ≤ p.upperLevel) ∧
    .finite (chain.openCount req.owner) ≤ guards.maxConcurrentPositions
  else guards.maxConcurrentPositions ≠ .nan ∧ ¬(.finite (chain.openCount req.owner) < guards.maxConcurrentPositions ∧
    guards.maxConcurrentPositions < .finite (chain.openCount req.owner + 1 : ℕ))

section Guards
variable {numberText : Double → String} {guards : PoolGuardConfig}

theorem guardSpend_none {input : TokenAmount} {limits : QuoteLimits} (passed : guardSpend guards input = none)
    (known : limitsFor guards input.mint = some limits) : input.amount ≤ limits.maxSpendPerAction := by
  unfold guardSpend at passed
  split_ifs at passed
  rw [known] at passed
  exact not_lt.mp (refusal_eq_none.mp passed)

theorem guardLpSizing_none {s : LpSizingSubject} (passed : guardLpSizing numberText guards s = none) :
    ∃ limits, limitsFor guards s.pool.quoteMint = some limits ∧ s.existingPositionQuote + s.addQuote ≤ limits.maxLpPositionQuote ∧
      ¬(s.isNewPosition = true ∧ guards.maxConcurrentPositions ≤ .finite s.openPositions.length) := by
  unfold guardLpSizing at passed
  cases known : limitsFor guards s.pool.quoteMint with
  | none =>
    rw [known] at passed
    cases passed
  | some limits =>
    rw [known] at passed
    dsimp only at passed
    split_ifs at passed with _ above
    exact ⟨limits,rfl,not_lt.mp above,refusal_eq_none.mp passed⟩

theorem floor_eq_finite {x : Double} {n : ℤ} (known : x.floor = .finite n) : ∃ q : ℚ, x = .finite q ∧ ⌊q⌋ = n := by
  cases x with
  | finite q =>
    rw [Double.floor,Double.finite.injEq,Int.cast_inj] at known
    exact ⟨q,rfl,known⟩
  | infinite negative => cases known
  | nan => cases known

theorem guardBaseLeg_none {baseAmount : ℤ} {baseHoldings : Option ℤ} (passed : guardBaseLeg numberText guards baseAmount baseHoldings = .ok none)
    (some_ : 0 < baseAmount) : ∃ (percent : ℚ) (holdings : ℤ), guards.maxBaseLegPctOfHoldings = .finite percent ∧
      baseHoldings = some holdings ∧ (baseAmount : ℚ) ≤ percent / 100 * holdings := by
  unfold guardBaseLeg at passed
  rw [if_neg (not_le.mpr some_)] at passed
  split_ifs at passed with disabled
  · cases passed
  · cases baseHoldings with
    | none => cases passed
    | some holdings =>
      dsimp only at passed
      split_ifs at passed with empty
      · cases passed
      · simp only [bind_eq_ok,pure_eq_ok,bigInt_eq_ok] at passed
        obtain ⟨n,known,passed⟩ := passed
        obtain ⟨q,percent,floor⟩ := floor_eq_finite known
        rw [percent,Double.ofNat_eq,Double.finite_le,Nat.cast_zero,not_le] at disabled
        have within := not_lt.mp (refusal_eq_none.mp passed)
        have positive : 0 < holdings := not_le.mp empty
        have nonneg : 0 ≤ n := floor ▸ Int.floor_nonneg.mpr disabled.le
        rw [Int.tdiv_eq_ediv_of_nonneg (mul_nonneg positive.le nonneg),Int.le_ediv_iff_mul_le (by decide)] at within
        have scaled : (baseAmount : ℚ) * 100 ≤ holdings * n := by exact_mod_cast within
        have least : (n : ℚ) ≤ q := floor ▸ Int.floor_le q
        have more : (holdings : ℚ) * n ≤ holdings * q := mul_le_mul_of_nonneg_left least (by exact_mod_cast positive.le)
        exact ⟨q,holdings,percent,rfl,by linarith⟩

/-- What the checks of a deposit have found when none refuses. -/
theorem guardLpOpen_none {s : LpOpenSubject} (passed : guardLpOpen numberText guards s = .ok none) :
    guardSpend guards s.input = none ∧ guardLpSizing numberText guards s.toLpSizingSubject = none ∧
      guardBaseLeg numberText guards s.baseAmount s.baseHoldings = .ok none := by
  simp only [guardLpOpen,bind_eq_ok,pure_eq_ok] at passed
  obtain ⟨baseLeg,base,passed⟩ := passed
  rw [first_eq_none] at passed
  simp only [List.forall_mem_cons] at passed
  obtain ⟨_,_,_,spend,sizing,rfl,_⟩ := passed
  exact ⟨spend,sizing,base⟩

end Guards

section Found
variable {env : OpenEnv} {chain : Chainstate} {req : OpenLiquidityRequest} {p : HeldPosition}

/-- An address is that of one position at most. -/
theorem find_address {positions : List HeldPosition} (unique : (positions.map (·.positionAddress)).Nodup) {address : String} :
    positions.find? (fun p => p.positionAddress = address) = some p ↔ p ∈ positions ∧ p.positionAddress = address := by
  constructor
  · intro found
    exact ⟨List.mem_of_find?_eq_some found,by simpa using List.find?_some found⟩
  · rintro ⟨there,rfl⟩
    cases found : positions.find? fun q => q.positionAddress = p.positionAddress with
    | none => exact absurd (List.find?_eq_none.mp found p there) (by simp)
    | some q =>
      have same : q.positionAddress = p.positionAddress := by simpa using List.find?_some found
      rw [List.inj_on_of_nodup_map unique (List.mem_of_find?_eq_some found) there same]

/-- What the venue finds is the position that is funded, where it is one of the wallet's in the pool. -/
theorem getPosition_eq (reads : env.Reads chain) {address : String} {existing : Option HeldPosition}
    (named : req.positionAddress = some address) (ok : getPosition env req.poolAddress address req.owner = .ok existing) :
    existing = some p ↔ chain.funded req = some p ∧ p.owner = req.owner ∧ p.poolAddress = req.poolAddress := by
  simp only [getPosition,bind_eq_ok,pure_eq_ok] at ok
  obtain ⟨positions,read_,rfl⟩ := ok
  have listed := reads.pool _ _ _ read_
  have unique : (positions.map (·.positionAddress)).Nodup := by
    rw [(listed.map _).nodup_iff]
    exact chain.unique.sublist (List.filter_sublist.map _)
  rw [find_address unique,listed.mem_iff,List.mem_filter,decide_eq_true_eq,Chainstate.funded,named,Option.bind_some,
    find_address chain.unique]
  constructor
  · rintro ⟨⟨there,owner,pool⟩,same⟩
    exact ⟨⟨there,same⟩,owner,pool⟩
  · rintro ⟨⟨there,same⟩,owner,pool⟩
    exact ⟨⟨there,owner,pool⟩,same⟩

theorem openSubject_count (reads : env.Reads chain) {pool : DepositPool} {subject : LpOpenSubject}
    (ok : openSubject env pool req = .ok subject) : subject.openPositions.length = chain.openCount req.owner := by
  simp only [openSubject,bind_eq_ok,pure_eq_ok] at ok
  obtain ⟨positions,listed,_,_,rfl⟩ := ok
  exact (reads.list _ _ listed).length_eq.trans List.countP_eq_length_filter.symm

theorem openSubject_existing (reads : env.Reads chain) {pool : DepositPool} {subject : LpOpenSubject}
    (ok : openSubject env pool req = .ok subject) (own : ∀ p, chain.funded req = some p → p.owner = req.owner ∧ p.poolAddress = req.poolAddress) :
    subject.existingPositionQuote = ((chain.funded req).map (·.quoteAmount)).getD 0 := by
  simp only [openSubject,bind_eq_ok,pure_eq_ok] at ok
  obtain ⟨positions,_,existing,found,rfl⟩ := ok
  dsimp only
  cases named : req.positionAddress with
  | none =>
    rw [existingPosition,named] at found
    cases found
    rw [Chainstate.funded,named]
    rfl
  | some address =>
    rw [existingPosition,named] at found
    have same : existing = chain.funded req := by
      apply Option.ext
      intro p
      rw [getPosition_eq reads named found]
      exact ⟨fun all => all.1,fun funded => ⟨funded,own p funded⟩⟩
    rw [same]

end Found

/-- For a count of positions below the cap, one more is within it unless the cap lies between. -/
theorem count_within {n : ℕ} {most : Double} (room : ¬most ≤ .finite n) :
    .finite (n + 1 : ℕ) ≤ most ↔ most ≠ .nan ∧ ¬(.finite n < most ∧ most < .finite (n + 1 : ℕ)) := by
  cases most with
  | finite q =>
    rw [Double.finite_le,not_le] at room
    simp only [Double.finite_le,Double.finite_lt,ne_eq,reduceCtorEq,not_false_eq_true,true_and,not_and,not_lt]
    exact ⟨fun within _ => within,fun within => within room⟩
  | infinite negative =>
    cases negative with
    | false => exact ⟨fun _ => ⟨by simp,fun both => by cases both.2⟩,fun _ => rfl⟩
    | true => exact absurd rfl room
  | nan => exact ⟨fun within => (by cases within),fun both => absurd rfl both.1⟩

/-- For every deposit that is built, whatever reads have failed: the promises of the admission hold
exactly for what is admissible. -/
theorem open_fails_closed_iff (env : OpenEnv) (chain : Chainstate) (reads : env.Reads chain) (ownerWallet : String)
    (cfg : OpenConfig) (built : BuiltIntent) (ok : buildPoolsOpen env ownerWallet cfg = .ok built) :
    ∃ pool req, openRequest env ownerWallet cfg = .ok (pool,req) ∧
      (∃ draft, env.buildOpen req = .ok draft ∧ built.intent.unsignedTxBase64 = draft.unsignedTxBase64) ∧
      built.intent.inputMint = pool.quoteMint ∧ built.intent.inputAmount = req.quoteAmount ∧
      (FailsClosed env.guards chain pool req ↔ Admissible env.guards chain req) := by
  simp only [buildPoolsOpen,bind_eq_ok,pure_eq_ok,throwRefusal_ok] at ok
  obtain ⟨⟨pool,req⟩,requested,subject,read_,_,passed,_,rfl,draft,drafted,_,_,_,_,intent,made,rfl⟩ := ok
  obtain ⟨wire,mint,amount,_⟩ := toTradeIntent_ok made
  refine ⟨pool,req,requested,⟨draft,drafted,wire⟩,mint,amount,?_⟩
  obtain ⟨spend,sizing,base⟩ := guardLpOpen_none passed
  obtain ⟨limits,known,within,room⟩ := guardLpSizing_none sizing
  have count := openSubject_count reads read_
  have subject_ : subject.pool = pool ∧ subject.input.mint = pool.quoteMint ∧ subject.input.amount = req.quoteAmount ∧
      subject.addQuote = req.quoteAmount ∧ subject.baseAmount = req.baseAmount ∧ subject.isNewPosition = req.positionAddress.isNone ∧
      (0 < req.baseAmount → subject.baseHoldings = env.getTokenBalance req.owner pool.baseMint) := by
    have all := read_
    simp only [openSubject,bind_eq_ok,pure_eq_ok] at all
    obtain ⟨_,_,_,_,rfl⟩ := all
    exact ⟨rfl,rfl,rfl,rfl,rfl,rfl,fun some_ => if_pos some_⟩
  obtain ⟨samePool,inputMint,inputAmount,added,baseAmount,isNew,holdings⟩ := subject_
  rw [samePool] at known
  have spent := guardSpend_none spend (by rw [inputMint]; exact known)
  rw [inputAmount] at spent
  rw [added] at within
  rw [isNew,count] at room
  have based (some_ : 0 < req.baseAmount) : ∃ percent : ℚ, env.guards.maxBaseLegPctOfHoldings = .finite percent ∧
      req.baseAmount ≤ percent / 100 * chain.holding req.owner pool.baseMint := by
    rw [baseAmount] at base
    obtain ⟨percent,held,known,there,least⟩ := guardBaseLeg_none base some_
    rw [holdings some_] at there
    rw [reads.holding _ _ _ there] at least
    exact ⟨percent,known,least⟩
  unfold Admissible
  cases named : req.positionAddress with
  | none =>
    rw [named] at room
    have funded : chain.funded req = none := by
      rw [Chainstate.funded,named]
      rfl
    have existing := openSubject_existing reads read_ (by rw [funded]; simp)
    rw [existing] at within
    have full := @count_within (chain.openCount req.owner) env.guards.maxConcurrentPositions
      fun full => room ⟨rfl,full⟩
    rw [if_neg (by simp),← full]
    constructor
    · intro closed
      have after := closed.count
      rwa [named] at after
    · intro after
      exact ⟨⟨limits,known,spent,within⟩,by rw [named]; exact after,based,by rw [named]; simp⟩
  | some address =>
    rw [if_pos (show (some address).isSome = true from rfl)]
    constructor
    · intro closed
      have after := closed.count
      rw [named] at after
      exact ⟨closed.topUp (by rw [named]; rfl),after⟩
    · rintro ⟨⟨p,funded,owner,pool',lower,upper⟩,after⟩
      have existing := openSubject_existing reads read_ (by
        intro q same
        rw [funded,Option.some.injEq] at same
        exact same ▸ ⟨owner,pool'⟩)
      rw [existing] at within
      refine ⟨⟨limits,known,spent,within⟩,?_,based,fun _ => ⟨p,funded,owner,pool',lower,upper⟩⟩
      rw [named]
      exact after

namespace Sample

def depositPool : DepositPool where
  address := "pool"
  quoteMint := WSOL_MINT
  quoteDecimals := SOL_DECIMALS
  activeLevel := 0
  name := none
  baseMint := "mint"
  baseDecimals := 6
  levelStepBps := 25
  liquidityQuote := some 100000000000

def position (owner : String) (quoteAmount : ℤ) : HeldPosition where
  poolAddress := "pool"
  owner
  lowerLevel := -20
  upperLevel := 20
  positionAddress := "position"
  baseAmount := 0
  quoteAmount

/-- One position, of this owner, and nothing of the base. -/
def chainstate (owner : String) (quoteAmount : ℤ) : Chainstate where
  positions := [position owner quoteAmount]
  unique := List.nodup_singleton _
  holding _ _ := 0

def openEnv (chain : Chainstate) : OpenEnv where
  guards := buyGuards
  priorityFeeLamports := none
  numberText _ := ""
  json _ := []
  summary _ _ _ := "Add"
  getPool _ := .ok depositPool
  getMintInfo mint := some ⟨mint,false,none,none⟩
  listPositions owner := .ok (chain.positions.filter fun p => p.owner = owner)
  positionsOf pool owner := .ok (chain.positions.filter fun p => p.owner = owner ∧ p.poolAddress = pool)
  getTokenBalance owner mint := some (chain.holding owner mint)
  readRugHeat _ := some ⟨10,[]⟩
  buildOpen req := .ok ⟨"AQAB","hash",100,req.priorityFeeLamports,[]⟩

theorem openEnv_reads (chain : Chainstate) : (openEnv chain).Reads chain where
  list _ _ read_ := (Except.ok.inj read_) ▸ List.Perm.refl _
  pool _ _ _ read_ := (Except.ok.inj read_) ▸ List.Perm.refl _
  holding _ _ _ read_ := (Option.some.inj read_).symm

def topUp : OpenConfig where
  poolAddress := "pool"
  quoteAmountUi := .finite (1 / 2)
  baseAmountUi := none
  belowBins := none
  aboveBins := none
  shape := none
  positionAddress := some "position"

def inputAmountOf : Except Thrown BuiltIntent → Option ℤ
  | .ok built => some built.intent.inputAmount
  | .error _ => none

theorem of_inputAmountOf {answer : Except Thrown BuiltIntent} {amount : ℤ} (made : inputAmountOf answer = some amount) :
    ∃ built, answer = .ok built := by
  cases answer with
  | ok built => exact ⟨built,rfl⟩
  | error e => cases made

theorem open_fails_closed_sample : ∃ (built : BuiltIntent) (pool : DepositPool) (req : OpenLiquidityRequest), openRequest (openEnv (chainstate "wallet" 1000000000)) "wallet" topUp = .ok (pool,req) ∧
    (∃ draft, (openEnv (chainstate "wallet" 1000000000)).buildOpen req = .ok draft ∧
      built.intent.unsignedTxBase64 = draft.unsignedTxBase64) ∧
    built.intent.inputMint = pool.quoteMint ∧ built.intent.inputAmount = req.quoteAmount ∧
    (FailsClosed buyGuards (chainstate "wallet" 1000000000) pool req ↔ Admissible buyGuards (chainstate "wallet" 1000000000) req) := by
  have made : inputAmountOf (buildPoolsOpen (openEnv (chainstate "wallet" 1000000000)) "wallet" topUp) = some 500000000 := by
    decide +kernel
  obtain ⟨built,ok⟩ := of_inputAmountOf made
  exact ⟨built,open_fails_closed_iff _ _ (openEnv_reads _) "wallet" topUp built ok⟩

/-- The wallet's own positions have none of this address, so the one that is funded counts as empty. -/
theorem open_for_another : ¬∀ (env : OpenEnv) (chain : Chainstate), env.Reads chain →
    ∀ (ownerWallet : String) (cfg : OpenConfig) (built : BuiltIntent), buildPoolsOpen env ownerWallet cfg = .ok built →
      ∃ pool req, openRequest env ownerWallet cfg = .ok (pool,req) ∧ FailsClosed env.guards chain pool req := by
  intro all
  have made : inputAmountOf (buildPoolsOpen (openEnv (chainstate "other" 1900000000)) "wallet" topUp) = some 500000000 := by
    decide +kernel
  obtain ⟨built,ok⟩ := of_inputAmountOf made
  obtain ⟨pool,req,requested,closed⟩ := all _ _ (openEnv_reads _) "wallet" topUp built ok
  have asked : (openRequest (openEnv (chainstate "other" 1900000000)) "wallet" topUp).toOption.map
      (fun answer => (answer.2.owner,answer.2.positionAddress)) = some ("wallet",some "position") := by decide +kernel
  rw [requested] at asked
  obtain ⟨owner,address⟩ := Prod.mk.inj (Option.some.inj asked)
  obtain ⟨p,funded,mine,_⟩ := closed.topUp (by rw [address]; rfl)
  have other : p.owner = "other" := by
    rw [Chainstate.funded,address,Option.bind_some] at funded
    have inside : p ∈ [position "other" 1900000000] := List.mem_of_find?_eq_some funded
    rw [List.mem_singleton.mp inside]
    rfl
  rw [other,owner] at mine
  exact absurd mine (by decide)

end Sample

end RatifyOs.Pools
