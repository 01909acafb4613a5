import RatifyOs.Kernel.Fills
import RatifyOs.Pools.CurveSell
import RatifyOs.Pools.Open
import RatifyOs.Strategy.Executor

/-! When the settle check by token delta raises a false alarm: the one balance that it compares
moves by what the transaction pays out, less whatever it spends of the same mint. -/
namespace RatifyOs.Settlement
open Async Data Data.Result Kernel Pools
open Async.Program hiding pure throw reject

structure Leg where
  mint : String
  amount : ℤ

def allowance (legs : List Leg) (mint : String) : ℤ := ((legs.filter fun leg => leg.mint = mint).map (·.amount)).sum

def Leg.Spares (mint : String) (leg : Leg) : Prop := leg.mint = mint → leg.amount = 0

theorem Leg.spares_iff {leg : Leg} {mint : String} (positive : 0 < leg.amount) : leg.Spares mint ↔ leg.mint ≠ mint := by
  constructor
  · intro spares same
    exact positive.ne' (spares same)
  · intro other same
    exact absurd same other

section Allowance
variable {legs : List Leg} {mint : String}

theorem allowance_cons (leg : Leg) : allowance (leg :: legs) mint = (if leg.mint = mint then leg.amount else 0) + allowance legs mint := by
  unfold allowance
  split_ifs with same <;> simp [same]

theorem allowance_nonneg (legal : ∀ leg ∈ legs, 0 ≤ leg.amount) : 0 ≤ allowance legs mint := by
  induction legs with
  | nil => exact le_rfl
  | cons leg legs ih =>
    obtain ⟨first,rest⟩ := List.forall_mem_cons.mp legal
    rw [allowance_cons]
    apply add_nonneg _ (ih rest)
    split_ifs
    · exact first
    · exact le_rfl

theorem allowance_eq_zero (legal : ∀ leg ∈ legs, 0 ≤ leg.amount) :
    allowance legs mint = 0 ↔ ∀ leg ∈ legs, leg.Spares mint := by
  induction legs with
  | nil => exact ⟨fun _ _ member => absurd member List.not_mem_nil,fun _ => rfl⟩
  | cons leg legs ih =>
    obtain ⟨first,rest⟩ := List.forall_mem_cons.mp legal
    have others : 0 ≤ allowance legs mint := allowance_nonneg rest
    rw [List.forall_mem_cons,← ih rest,allowance_cons,Leg.Spares]
    split_ifs with same
    · simp only [same,true_implies]
      omega
    · simp only [same,false_implies,true_and,zero_add]

end Allowance

/-- What a transaction did that kept to its bounds: it spent no more than its legs of any mint,
and it paid out at least the committed minimum. -/
structure Execution (intent : TradeIntent) (legs : List Leg) where
  spent : String → ℤ
  paid : String → ℤ
  nonneg : ∀ mint, 0 ≤ spent mint
  within : ∀ mint, spent mint ≤ allowance legs mint
  committed : intent.quote.minOutAmount ≤ paid intent.outputMint

namespace Execution
variable {intent : TradeIntent} {legs : List Leg} (e : Execution intent legs)

def change (mint : String) : ℤ := e.paid mint - e.spent mint

/-- The balances that are read once the transaction has landed. -/
def after (pre : Pair) : Pair := ⟨pre.input + e.change intent.inputMint,pre.output + e.change intent.outputMint⟩

end Execution

/-- The fill of a transaction that kept to its bounds is never reported as short. -/
def NoFalseAlarm (intent : TradeIntent) (legs : List Leg) : Prop :=
  ∀ (d : Deployment) (tradeId : String) (reservationId : Option String) (signature : String) (pre : Pair)
    (prePosition : Option ℤ) (h : Log) (r : ExecuteResult),
    Ran (conclude d intent tradeId reservationId signature pre prePosition) h (.pure r) →
    ∀ e : Execution intent legs, balances h = [e.after pre] →
      ∀ message, r.error ≠ some (GuardCode.settleShortfall.text,message)

section Check
variable {d : Deployment} {intent : TradeIntent} {tradeId signature : String} {pre : Pair} {prePosition : Option ℤ}
  {legs : List Leg}

theorem nowhere_of_kind (kind : intent.kind.isPerpIntentKind = false) : positionRef d intent = none := by
  unfold positionRef settleModeFor
  rw [kind]
  cases intent.perp <;> rfl

def tokenProblem (intent : TradeIntent) (outputDelta : ℤ) : Option (GuardCode × String) :=
  if outputDelta < intent.quote.minOutAmount then
    some (.settleShortfall,"received less than committed min-out") else none

theorem settle_token (nowhere : positionRef d intent = none) (outputDelta : ℤ) :
    settle d intent outputDelta prePosition = return ⟨slippageBps intent.quote.outAmount (max outputDelta 0),none,
      tokenProblem intent outputDelta⟩ := by
  unfold settle
  rw [nowhere]
  rfl

theorem conclude_token (nowhere : positionRef d intent = none) (reservationId : Option String) :
    (conclude d intent tradeId reservationId signature pre prePosition).wp (fun _ _ => True)
      (fun r h => ∃ post, balances h = [post] ∧
        r.error = (tokenProblem intent (post.output - pre.output)).map fun (code,message) => (code.text,message))
      (fun _ _ => True) [] := by
  unfold conclude readPair
  simp only [settle_token nowhere,wp_bind,wp_call,wp_pure,true_and,implies_true,and_true]
  intro post
  refine wp_mono _ (consume_reads reservationId _) (fun _ h₁ consumed => ?_) fun _ _ _ => trivial
  simp only [wp_bind,wp_call,true_and,implies_true,and_true]
  intro now _
  refine wp_mono _ (journal_reads _ _ _) (fun _ h₂ written => ?_) fun _ _ _ => trivial
  refine ⟨post,?_,rfl⟩
  rw [written.balances]
  exact consumed.balances

def landed (post : Pair) : (op : Op) → Except Failure op.Ans
  | .readPair _ _ _ => .ok post
  | .now => .ok 0
  | .setState _ _ _ => .ok ()
  | .appendJournal _ => .ok ()
  | _ => .error (.other "unavailable")

/-- Whatever the balances are by then, some run reads them. -/
theorem conclude_runs (nowhere : positionRef d intent = none) (post : Pair) :
    ∃ h r, Ran (conclude d intent tradeId none signature pre prePosition) h (.pure r) ∧ balances h = [post] := by
  have ran := (Ran.start (conclude d intent tradeId none signature pre prePosition)).playing (fun _ => landed post) 5
  unfold conclude readPair consume journal at ran ⊢
  simp only [settle_token nowhere] at ran ⊢
  exact ⟨_,_,ran,rfl⟩

/-- The check is free of false alarms exactly where the transaction can spend nothing of the mint
whose balance it compares. -/
theorem noFalseAlarm_iff (kind : intent.kind.isPerpIntentKind = false) (legal : ∀ leg ∈ legs, 0 ≤ leg.amount) :
    NoFalseAlarm intent legs ↔ ∀ leg ∈ legs, leg.Spares intent.outputMint := by
  rw [← allowance_eq_zero legal]
  constructor
  · intro silent
    by_contra some_
    let e : Execution intent legs := {
      spent := allowance legs
      paid := fun mint => if mint = intent.outputMint then intent.quote.minOutAmount else 0
      nonneg := fun mint => allowance_nonneg legal
      within := fun mint => le_rfl
      committed := (if_pos rfl).ge }
    let d : Deployment := ⟨"",fun _ => true,true⟩
    have nowhere : positionRef d intent = none := nowhere_of_kind kind
    obtain ⟨h,r,ran,read⟩ : ∃ h r, Ran (conclude d intent "" none "" ⟨0,0⟩ none) h (.pure r) ∧ balances h = [e.after ⟨0,0⟩] :=
      conclude_runs nowhere _
    obtain ⟨post,read',error⟩ := ran.wp (conclude_token nowhere none)
    obtain rfl := List.singleton_injective (read.symm.trans read')
    have short : (e.after ⟨0,0⟩).output - (⟨0,0⟩ : Pair).output < intent.quote.minOutAmount := by
      have least : 0 ≤ allowance legs intent.outputMint := allowance_nonneg legal
      simp only [Execution.after,Execution.change,e,if_pos]
      omega
    rw [tokenProblem,if_pos short] at error
    exact silent d "" none "" ⟨0,0⟩ none h r ran e read _ error
  · intro none d tradeId reservationId signature pre prePosition h r ran e read message reported
    obtain ⟨post,read',error⟩ := ran.wp (conclude_token (nowhere_of_kind kind) reservationId)
    obtain rfl := List.singleton_injective (read.symm.trans read')
    have spent := e.within intent.outputMint
    have enough := e.committed
    have whole : ¬(e.after pre).output - pre.output < intent.quote.minOutAmount := by
      rw [none] at spent
      simp only [Execution.after,Execution.change]
      omega
    rw [tokenProblem,if_neg whole,reported] at error
    cases error

end Check

/-- A call of one of the builders, with what it was given. -/
inductive Order where
  | strategySwap (deps : Strategy.GatewayExecutorDeps) (req : Strategy.StrategySwap)
  | pumpfunBuy (env : CurveEnv) (ownerWallet : String) (cfg : BuyConfig)
  | pumpfunSell (env : SellEnv) (ownerWallet : String) (cfg : SellConfig)
  | poolsOpen (env : OpenEnv) (ownerWallet : String) (cfg : OpenConfig)
  | poolsClose (json : IntentDraft → Text) (ownerWallet : String) (cfg : CloseConfig) (pool : PoolSummary)
    (position : Option LpPosition) (draft : VenueTxDraft) (summary : String)
  | poolsRebalance (json : IntentDraft → Text) (pool : PoolSummary) (draft : VenueTxDraft) (summary : String)

namespace Order

def Builds (intent : TradeIntent) : Order → Prop
  | strategySwap deps req => ∃ h, Ran (Strategy.buildIntent deps req) h (.pure intent)
  | pumpfunBuy env ownerWallet cfg => ∃ built, buildCurveBuy env ownerWallet cfg = .ok (.inl built) ∧ built.intent = intent
  | pumpfunSell env ownerWallet cfg => ∃ built, buildCurveSell env ownerWallet cfg = .ok (.inl built) ∧ built.intent = intent
  | poolsOpen env ownerWallet cfg => ∃ built, buildPoolsOpen env ownerWallet cfg = .ok built ∧ built.intent = intent
  | poolsClose json ownerWallet cfg pool position draft summary =>
    buildClose json ownerWallet cfg pool position draft summary = .ok intent
  | poolsRebalance json pool draft summary => buildRebalanceExit json pool draft summary = .ok intent

def inputLeg (intent : TradeIntent) : Leg := ⟨intent.inputMint,intent.inputAmount⟩

def feeLeg (intent : TradeIntent) : Leg :=
  ⟨Pools.WSOL_MINT,BASE_FEE_LAMPORTS + max 0 ⌊intent.priorityFeeLamports.getD 0⌋⟩

/-- The second leg of a deposit, which the intent does not tell of. -/
def baseLeg (env : OpenEnv) (ownerWallet : String) (cfg : OpenConfig) : List Leg :=
  match openRequest env ownerWallet cfg with
  | .ok (pool,req) => [⟨pool.baseMint,req.baseAmount⟩]
  | .error _ => []

/-- The legs and fees that the transaction may spend; the input leg of an exit is its fee. -/
def legs (intent : TradeIntent) : Order → List Leg
  | poolsOpen env ownerWallet cfg => inputLeg intent :: feeLeg intent :: baseLeg env ownerWallet cfg
  | poolsClose .. => [inputLeg intent]
  | poolsRebalance .. => [inputLeg intent]
  | _ => [inputLeg intent,feeLeg intent]

/-- The mint that the fill is measured in is no mint that the transaction pays with. -/
def Apart : Order → Prop
  | strategySwap _ req => req.outputMint ≠ Pools.WSOL_MINT ∧ req.outputMint ≠ req.inputMint
  | pumpfunBuy _ _ cfg => cfg.mint ≠ Pools.WSOL_MINT
  | pumpfunSell _ _ _ => False
  | poolsOpen env ownerWallet cfg => ∀ pool req, openRequest env ownerWallet cfg = .ok (pool,req) →
    pool.baseMint ≠ Pools.WSOL_MINT ∧ pool.baseMint ≠ pool.quoteMint ∧ req.baseAmount = 0
  | poolsClose _ _ _ pool _ _ _ => pool.quoteMint ≠ Pools.WSOL_MINT
  | poolsRebalance _ pool _ _ => pool.quoteMint ≠ Pools.WSOL_MINT

section Builders
variable {intent : TradeIntent}

theorem feeLeg_pos (intent : TradeIntent) : 0 < (feeLeg intent).amount := by
  have extra : 0 ≤ max 0 ⌊intent.priorityFeeLamports.getD 0⌋ := le_max_left ..
  unfold feeLeg BASE_FEE_LAMPORTS
  dsimp only
  omega

/-- What every builder but those of the exits makes sure of. -/
structure Trades (inputMint outputMint : String) (intent : TradeIntent) : Prop where
  kind : intent.kind.isPerpIntentKind = false
  input : intent.inputMint = inputMint
  positive : 0 < intent.inputAmount
  output : intent.outputMint = outputMint

theorem wp_decimalsFor {mint : String} {Q : ℕ → History Strategy.Act Strategy.Act.Ans String → Prop}
    {h : History Strategy.Act Strategy.Act.Ans String} (any : ∀ n h', Q n h') :
    (Strategy.decimalsFor mint).wp (fun _ _ => True) Q (fun _ _ => True) h := by
  unfold Strategy.decimalsFor
  simp only [wp_ite,wp_pure,wp_call,true_and,implies_true,and_true]
  exact ⟨fun _ => any _ _,fun _ n => any n _⟩

theorem buildIntent_trades {deps : Strategy.GatewayExecutorDeps} {req : Strategy.StrategySwap} :
    (Strategy.buildIntent deps req).wp (fun _ _ => True) (fun intent _ => Trades req.inputMint req.outputMint intent)
      (fun _ _ => True) [] := by
  unfold Strategy.buildIntent
  simp only [wp_bind,wp_reject,implies_true,true_and]
  intro _
  apply wp_decimalsFor
  intro inputDecimals h
  simp only [wp_bind,wp_ofExcept,wp_reject,wp_call,implies_true,true_and,and_true]
  intro amount _ positive quote build
  apply wp_decimalsFor
  intro outputDecimals h'
  exact ⟨rfl,rfl,not_le.mp positive,rfl⟩

theorem buildCurveBuy_trades {env : CurveEnv} {ownerWallet : String} {cfg : BuyConfig} {built : BuiltIntent}
    (ok : buildCurveBuy env ownerWallet cfg = .ok (.inl built)) : Trades Pools.WSOL_MINT cfg.mint built.intent := by
  obtain ⟨curve,-,bought⟩ := buildCurveBuy_ok ok
  simp only [buyOnCurve,bind_eq_ok,pure_eq_ok] at bought
  obtain ⟨budget,-,_,-,quote,-,latest,-,ctxIx,-,payer,-,buy,-,tx,-,intent,made,rfl⟩ := bought
  obtain ⟨-,inputMint,inputAmount,outputMint,-⟩ := toTradeIntent_ok made
  obtain ⟨kind,positive⟩ := toTradeIntent_leg made
  exact ⟨kind ▸ rfl,inputMint,inputAmount.symm ▸ positive,outputMint⟩

theorem buildPoolsOpen_trades {env : OpenEnv} {ownerWallet : String} {cfg : OpenConfig} {built : BuiltIntent}
    (ok : buildPoolsOpen env ownerWallet cfg = .ok built) : ∃ pool req, openRequest env ownerWallet cfg = .ok (pool,req) ∧
      Trades pool.quoteMint pool.baseMint built.intent := by
  obtain ⟨⟨pool,req⟩,requested,ok⟩ := bind_eq_ok.mp ok
  simp only [bind_eq_ok,pure_eq_ok] at ok
  obtain ⟨subject,-,refusal,-,_,-,draft,-,_,-,_,-,intent,made,rfl⟩ := ok
  obtain ⟨-,inputMint,inputAmount,outputMint,-⟩ := toTradeIntent_ok made
  obtain ⟨kind,positive⟩ := toTradeIntent_leg made
  refine ⟨pool,req,requested,?_,inputMint,inputAmount.symm ▸ positive,outputMint⟩
  rw [kind]
  dsimp only
  split <;> rfl

theorem toBaseUnits_nonneg {numberText : Double → String} {amount : Double} {decimals : ℕ} {n : ℤ}
    (ok : toBaseUnits numberText amount decimals = .ok n) : 0 ≤ n := by
  unfold toBaseUnits at ok
  cases amount with
  | finite q =>
    dsimp only at ok
    split_ifs at ok with range
    obtain rfl := Except.ok.inj ok
    have scale : (0 : ℚ) ≤ 10 ^ decimals := by positivity
    have grown := mul_nonneg range.1 scale
    apply Int.floor_nonneg.mpr
    linarith
  | infinite negative => cases ok
  | nan => cases ok

theorem openRequest_base {env : OpenEnv} {ownerWallet : String} {cfg : OpenConfig} {pool : DepositPool}
    {req : OpenLiquidityRequest} (ok : openRequest env ownerWallet cfg = .ok (pool,req)) : 0 ≤ req.baseAmount := by
  simp only [openRequest,bind_eq_ok,pure_eq_ok,Prod.mk.injEq] at ok
  obtain ⟨pool',-,quoteAmount,-,baseAmount,leg,range,-,-,rfl⟩ := ok
  unfold baseLegOf at leg
  split at leg
  · exact toBaseUnits_nonneg leg
  · exact (Except.ok.inj leg).le

theorem withdrawal_pays {json : IntentDraft → Text} {kind : IntentKind} {source summary : String} {pool : PoolSummary}
    {draft : VenueTxDraft} (exits : kind = .lpClose ∨ kind = .lpRemove ∨ kind = .lpRebalance)
    (ok : withdrawal json kind source summary pool draft = .ok intent) : Trades Pools.WSOL_MINT pool.quoteMint intent := by
  obtain ⟨fee,exit⟩ := withdrawal_exits exits ok
  obtain ⟨input,-,made⟩ := bind_eq_ok.mp ok
  obtain ⟨-,-,inputAmount,outputMint,-⟩ := toTradeIntent_ok made
  refine ⟨?_,exit.inputMint,inputAmount.symm ▸ (toTradeIntent_leg made).2,outputMint⟩
  rcases exit.kind with kind | kind | kind <;> exact kind ▸ rfl

/-- An intent whose transaction pays with one leg and its fees. -/
theorem Trades.noFalseAlarm_iff {inputMint outputMint : String} (trades : Trades inputMint outputMint intent) :
    NoFalseAlarm intent [inputLeg intent,feeLeg intent] ↔ outputMint ≠ Pools.WSOL_MINT ∧ outputMint ≠ inputMint := by
  have input : 0 < (inputLeg intent).amount := trades.positive
  have fee := feeLeg_pos intent
  have legal : ∀ leg ∈ [inputLeg intent,feeLeg intent], 0 ≤ leg.amount :=
    List.forall_mem_cons.mpr ⟨input.le,List.forall_mem_singleton.mpr fee.le⟩
  rw [Settlement.noFalseAlarm_iff trades.kind legal,List.forall_mem_cons,List.forall_mem_singleton,
    Leg.spares_iff input,Leg.spares_iff fee,trades.output,and_comm]
  rw [inputLeg,trades.input]
  exact and_congr ne_comm ne_comm

theorem Trades.exit_iff {outputMint : String} (trades : Trades Pools.WSOL_MINT outputMint intent) :
    NoFalseAlarm intent [inputLeg intent] ↔ outputMint ≠ Pools.WSOL_MINT := by
  have input : 0 < (inputLeg intent).amount := trades.positive
  rw [Settlement.noFalseAlarm_iff trades.kind (List.forall_mem_singleton.mpr input.le),List.forall_mem_singleton,
    Leg.spares_iff input,trades.output,inputLeg,trades.input]
  exact ne_comm

/-- A deposit, which may have a second leg of the mint that its fill is measured in. -/
theorem Trades.deposit_iff {quoteMint baseMint : String} (trades : Trades quoteMint baseMint intent) {baseAmount : ℤ}
    (legal : 0 ≤ baseAmount) : NoFalseAlarm intent [inputLeg intent,feeLeg intent,⟨baseMint,baseAmount⟩] ↔
      baseMint ≠ Pools.WSOL_MINT ∧ baseMint ≠ quoteMint ∧ baseAmount = 0 := by
  have input : 0 < (inputLeg intent).amount := trades.positive
  have fee := feeLeg_pos intent
  have all : ∀ leg ∈ [inputLeg intent,feeLeg intent,⟨baseMint,baseAmount⟩], 0 ≤ leg.amount :=
    List.forall_mem_cons.mpr ⟨input.le,List.forall_mem_cons.mpr ⟨fee.le,List.forall_mem_singleton.mpr legal⟩⟩
  have base : Leg.Spares baseMint ⟨baseMint,baseAmount⟩ ↔ baseAmount = 0 :=
    ⟨fun spares => spares rfl,fun none _ => none⟩
  rw [Settlement.noFalseAlarm_iff trades.kind all,List.forall_mem_cons,List.forall_mem_cons,List.forall_mem_singleton,
    Leg.spares_iff input,Leg.spares_iff fee,trades.output,base,← and_assoc,← and_assoc,and_comm (a := _ ≠ _)]
  rw [inputLeg,trades.input]
  exact and_congr_left' (and_congr ne_comm ne_comm)

end Builders

end Order

theorem no_false_alarm_iff (order : Order) (intent : TradeIntent) (built : order.Builds intent) :
    NoFalseAlarm intent (order.legs intent) ↔ order.Apart := by
  cases order with
  | strategySwap deps req =>
    obtain ⟨h,ran⟩ := built
    exact (ran.wp Order.buildIntent_trades).noFalseAlarm_iff
  | pumpfunBuy env ownerWallet cfg =>
    obtain ⟨made,ok,rfl⟩ := built
    apply (Order.buildCurveBuy_trades ok).noFalseAlarm_iff.trans
    exact and_self_iff
  | pumpfunSell env ownerWallet cfg =>
    obtain ⟨made,ok,rfl⟩ := built
    obtain ⟨kind,input,positive,output⟩ := buildCurveSell_ok ok
    have trades : Order.Trades cfg.mint Pools.WSOL_MINT made.intent := ⟨kind ▸ rfl,input,positive,output⟩
    apply trades.noFalseAlarm_iff.trans
    exact iff_of_false (fun apart => apart.1 rfl) id
  | poolsOpen env ownerWallet cfg =>
    obtain ⟨made,ok,rfl⟩ := built
    obtain ⟨pool,req,requested,trades⟩ := Order.buildPoolsOpen_trades ok
    rw [Order.legs,Order.baseLeg,requested]
    apply (trades.deposit_iff (Order.openRequest_base requested)).trans
    constructor
    · intro apart pool' req' requested'
      obtain ⟨rfl,rfl⟩ := Prod.mk.inj (Except.ok.inj (requested.symm.trans requested'))
      exact apart
    · intro apart
      exact apart pool req requested
  | poolsClose json ownerWallet cfg pool position draft summary =>
    obtain ⟨_,-,ok⟩ := bind_eq_ok.mp built
    obtain ⟨_,-,ok⟩ := bind_eq_ok.mp ok
    refine (Order.withdrawal_pays ?_ ok).exit_iff
    split
    · exact .inl rfl
    · exact .inr (.inl rfl)
  | poolsRebalance json pool draft summary =>
    obtain ⟨_,-,ok⟩ := bind_eq_ok.mp built
    exact (Order.withdrawal_pays (.inr (.inr rfl)) ok).exit_iff

namespace Sample
open Pools.Sample

def purchase : Order := .pumpfunBuy buyEnv "wallet" ⟨"mint",.finite (1 / 4),none⟩

theorem purchase_silent : ∃ intent, purchase.Builds intent ∧ (NoFalseAlarm intent (purchase.legs intent) ↔ purchase.Apart) := by
  have made : inputOf (buildCurveBuy buyEnv "wallet" ⟨"mint",.finite (1 / 4),none⟩) = some 252499998 := by decide +kernel
  obtain ⟨built,ok,-⟩ := of_inputOf made
  exact ⟨built.intent,⟨built,ok,rfl⟩,no_false_alarm_iff purchase built.intent ⟨built,ok,rfl⟩⟩

def sellEnv : SellEnv where
  toCurveEnv := buyEnv
  getTokenBalance _ _ := some 1000000000000
  sellSummary _ _ := "Sell"

def saleConfig : SellConfig := ⟨"mint",none,some 50,none⟩

/-- The sale pays at least its minimum in the mint that its fees are paid in. -/
theorem sale_alarms : ¬∀ (order : Order) (intent : TradeIntent), order.Builds intent →
    NoFalseAlarm intent (order.legs intent) := by
  intro silent
  have made : inputOf (buildCurveSell sellEnv "wallet" saleConfig) = some 500000000000 := by decide +kernel
  obtain ⟨built,ok,-⟩ := of_inputOf made
  obtain ⟨kind,input,positive,output⟩ := buildCurveSell_ok ok
  have trades : Order.Trades saleConfig.mint Pools.WSOL_MINT built.intent := ⟨kind ▸ rfl,input,positive,output⟩
  exact (trades.noFalseAlarm_iff.mp (silent (.pumpfunSell sellEnv "wallet" saleConfig) built.intent ⟨built,ok,rfl⟩)).1 rfl

end Sample

end RatifyOs.Settlement
