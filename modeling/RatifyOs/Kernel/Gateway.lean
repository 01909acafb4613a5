import RatifyOs.Async.System
import RatifyOs.Kernel.Guards

/-! `TradeGatewayImpl` and `Reconciler`, one effect for each await, each statement of the store
and each reading of the clock. -/
namespace RatifyOs.Kernel
open Async Data
open Async.Program hiding pure throw

structure SignedTx where
  wireBase64 : String
  signature : String
  deriving DecidableEq

structure MintInfo where
  isToken2022 : Bool

structure SimOutcome where
  ok : Bool
  err : Option String

structure PerpPositionRef where
  venue : String
  market : String
  owner : String
  subAccountId : ℤ

inductive ConfirmStatus where
  | confirmed
  | expired
  | failed
  deriving DecidableEq

def ConfirmStatus.text : ConfirmStatus → String
  | confirmed => "confirmed"
  | expired => "expired"
  | failed => "failed"

structure Pair where
  input : ℤ
  output : ℤ

structure Fill where
  inputDelta : ℤ
  outputDelta : ℤ
  effectiveSlippageBps : ℤ
  positionDelta : Option ℤ

structure ExecuteResult where
  tradeId : String
  state : TradeState
  signature : Option String := none
  simulated : Bool := false
  summary : String := ""
  fill : Option Fill := none
  error : Option (String × String) := none

structure ExecuteOptions where
  idempotencyKey : String
  confirmedByUser : Bool

structure ReconcileSummary where
  checked : ℕ
  confirmed : ℕ
  failed : ℕ

/-- `inspect` and `readPair` are each a `Promise.all` of two reads. -/
inductive Op where
  | now
  | newTradeId
  | policy
  | claimIdempotency (key tradeId : String) (now : ℤ)
  | getTradeByIdempotency (key : String)
  | inspect (input output : String)
  | reserve (args : ReserveArgs)
  | readPair (owner input output : String)
  | readPosition (ref : PerpPositionRef)
  | insertTrade (row : NewTradeRow) (reservationId : Option String)
  | appendJournal (event : JournalEvent)
  | simulate (wireBase64 : String)
  | sign (unsignedTxBase64 : String)
  | persistSigned (id signedWire signature : String) (now : ℤ)
  | broadcast (landMode : LandMode) (signed : SignedTx) (landHandle : Option String)
  | setSignature (id signature : String) (now : ℤ)
  | setState (id : String) (state : TradeState) (now : ℤ)
  | confirm (signature : String) (lastValidBlockHeight : ℕ)
  | releaseReservation (reservationId : String)
  | consumeReservation (reservationId : String)
  | fail (id : String) (state : TradeState) (error : String) (now : ℤ)
  | pendingSent

abbrev Op.Ans : Op → Type
  | now => ℤ
  | newTradeId => String
  | policy => PolicyConfig
  | claimIdempotency _ _ _ => Bool
  | getTradeByIdempotency _ => Option TradeRow
  | inspect _ _ => MintInfo × MintInfo
  | reserve _ => ReserveOutcome
  | readPair _ _ _ => Pair
  | readPosition _ => ℤ
  | simulate _ => SimOutcome
  | sign _ => SignedTx
  | broadcast _ _ _ => String
  | confirm _ _ => ConfirmStatus
  | pendingSent => List TradeRow
  | insertTrade _ _ | appendJournal _ | persistSigned _ _ _ _ | setSignature _ _ _ | setState _ _ _
  | releaseReservation _ | consumeReservation _ | fail _ _ _ _ => Unit

abbrev Gateway := Program Op Op.Ans Failure

abbrev Log := History Op Op.Ans Failure

structure Deployment where
  pubkey : String
  broadcasters : LandMode → Bool
  /-- A position reader is mounted. -/
  positions : Bool

def feeBufferLamports : ℤ := 3000000

def errorResult (tradeId : String) (err : Failure) (simulated : Bool) : ExecuteResult where
  tradeId
  state := .rejected
  simulated
  summary := err.message
  error := some (err.codeOr "INTERNAL",err.message)

def QuoteBucket.upper : QuoteBucket → String
  | sol => "SOL"
  | usdc => "USDC"

def QuoteBucket.text : QuoteBucket → String
  | sol => "sol"
  | usdc => "usdc"

def ReserveDenyReason.text : ReserveDenyReason → String
  | perTrade => "perTrade"
  | perHour => "perHour"
  | perDay => "perDay"

/-- `if (reservationId) store.releaseReservation(reservationId)` -/
def release : Option String → Gateway Unit
  | some reservationId => call (Op.releaseReservation reservationId)
  | none => return ()

def consume : Option String → Gateway Unit
  | some reservationId => call (Op.consumeReservation reservationId)
  | none => return ()

/-- The entry is stamped when it is written. -/
def journal (type tradeId : String) (details : List (String × Json)) : Gateway Unit := do
  let now ← call Op.now
  call (Op.appendJournal ⟨type,tradeId,now,details⟩)

section Live
variable (d : Deployment) (intent : TradeIntent) (o : ExecuteOptions) (tradeId : String)

/-- The `catch` of `#live`, with what the body had assigned when it threw. -/
def abandon (reservationId : Option String) (inserted : Bool) (err : Failure) : Gateway ExecuteResult := do
  release reservationId
  let details := [("code",.str (err.codeOr "INVALID_INTENT")),("message",.str err.message)]
  if inserted then
    let now ← call Op.now
    call (Op.fail tradeId .errored (err.codeOr "INTERNAL") now)
    journal "trade.failed" tradeId details
  else journal "guard.rejected" tradeId details
  return errorResult tradeId err false

def assertSettleable : Except Failure Unit :=
  match settleModeFor intent.kind with
  | .tokenDelta => .ok ()
  | .venuePosition =>
    refuse (¬d.positions) .settleUnverifiable
      (s!"no position reader is mounted for venue '{(intent.perp.map PerpSettleLeg.venue).getD unknown}' — " ++
        "a perp fill cannot be verified from a token balance, so this intent is refused")
where
  unknown : String := "unknown"

def positionRef : Option (PerpSettleLeg × PerpPositionRef) :=
  match intent.perp, settleModeFor intent.kind with
  | some perp, .venuePosition => some (perp,⟨perp.venue,perp.market,d.pubkey,perp.accountSubId⟩)
  | _, _ => none

def readPair : Gateway Pair := call (Op.readPair d.pubkey intent.inputMint intent.outputMint)

def readPosition : Gateway (Option ℤ) :=
  match positionRef d intent with
  | some (_,ref) => do
    let position ← call (Op.readPosition ref)
    return some position
  | none => return none

def assertMintsSupported (policy : PolicyConfig) : Gateway Unit := do
  let (inInfo,outInfo) ← call (Op.inspect intent.inputMint intent.outputMint)
  reject (¬policy.allowToken2022 ∧ (inInfo.isToken2022 ∨ outInfo.isToken2022))
    (.guard .token2022Unsupported
      "Token-2022 mint detected; refused (transfer fees / hooks are not accounted for)" [])

/-- Up to the reservation: nothing has been assigned yet. -/
def guarded (now : ℤ) : Gateway (Option QuoteBucket × Option String) := do
  let policy ← call Op.policy
  Program.ofExcept (staticGuards policy intent ⟨false,o.confirmedByUser⟩)
  Program.ofExcept (assertSettleable d intent)
  assertMintsSupported intent policy
  match quoteBucketFor intent.inputMint with
  | none => return (none,none)
  | some bucket =>
    let caps := match bucket with
      | .sol => policy.capsSol
      | .usdc => policy.capsUsdc
    let outcome ← call (Op.reserve ⟨bucket,intent.inputAmount,caps,tradeId,now⟩)
    match outcome with
    | .ok reservationId _ _ => return (some bucket,some reservationId)
    | .denied reason cap would =>
      throw (Failure.guard .capExceeded (bucket.upper ++ " " ++ reason.text ++ " cap exceeded")
        [("reason",reason.text),("cap",toString cap),("would",toString would)])

/-- From the reservation to the row. -/
def register (now : ℤ) (bucket : Option QuoteBucket) (reservationId : Option String) : Gateway (Pair × Option ℤ) := do
  let pre ← readPair d intent
  let prePosition ← readPosition d intent
  let need := intent.inputAmount + if bucket = some .sol then feeBufferLamports else 0
  reject (pre.input < need) (.guard .insufficientBalance "wallet balance cannot cover this trade plus fees"
    [("have",toString pre.input),("need",toString need)])
  call (Op.insertTrade {
    id := tradeId
    idempotencyKey := o.idempotencyKey
    intentJson := intent.json
    inputMint := intent.inputMint
    outputMint := intent.outputMint
    inputAmount := intent.inputAmount
    lastValidBlockHeight := intent.lastValidBlockHeight
    now } reservationId)
  return (pre,prePosition)

structure Settlement where
  effectiveSlippageBps : ℤ
  positionDelta : Option ℤ
  problem : Option (GuardCode × String)

def settledByPosition (perp : PerpSettleLeg) (prePosition postPosition : ℤ) : Settlement :=
  let positionDelta := postPosition - prePosition
  let filled := match perp.side with
    | .long => positionDelta
    | .short => -positionDelta
  { effectiveSlippageBps := slippageBps perp.expectedBaseAmount (max filled 0)
    positionDelta := some positionDelta
    problem :=
      if filled < perp.minBaseAmount then
        some (.settleShortfall,s!"{perp.market} position moved {filled} base units, below the committed minimum {perp.minBaseAmount}")
      else none }

/-- A position that cannot be read is reported, never a failed trade. -/
def settle (outputDelta : ℤ) (prePosition : Option ℤ) : Gateway Settlement :=
  match positionRef d intent, prePosition with
  | some (perp,ref), some prePosition =>
    tryCatch (do
      let postPosition ← call (Op.readPosition ref)
      return settledByPosition perp prePosition postPosition) fun e =>
      return { effectiveSlippageBps := 0
               positionDelta := none
               problem := some (.settleUnverified,
                 s!"confirmed on-chain, but the {perp.venue} position could not be read back: {e.message}") }
  | _, _ =>
    return { effectiveSlippageBps := slippageBps intent.quote.outAmount (max outputDelta 0)
             positionDelta := none
             problem :=
               if outputDelta < intent.quote.minOutAmount then
                 some (.settleShortfall,"received less than committed min-out")
               else none }

/-- The confirmation came back, and not as confirmed. -/
def giveUp (reservationId : Option String) (status : ConfirmStatus) : Gateway ExecuteResult := do
  let code := if status = .expired then GuardCode.confirmTimeout else .broadcastFailed
  release reservationId
  let now ← call Op.now
  call (Op.fail tradeId (if status = .expired then .expired else .errored) code.text now)
  journal "trade.failed" tradeId [("code",.str code.text),("message",.str (s!"confirmation {status.text}"))]
  return errorResult tradeId (.guard code (s!"transaction {status.text} before confirmation") []) false

/-- The transaction is confirmed: the fill is read and the reservation consumed. -/
def conclude (reservationId : Option String) (signature : String) (pre : Pair) (prePosition : Option ℤ) :
    Gateway ExecuteResult := do
  let post ← readPair d intent
  let inputDelta := post.input - pre.input
  let outputDelta := post.output - pre.output
  let settled ← settle d intent outputDelta prePosition
  consume reservationId
  let now ← call Op.now
  call (Op.setState tradeId .confirmed now)
  journal "trade.confirmed" tradeId
    ([("signature",.str signature),("inputDelta",.str (toString inputDelta)),("outputDelta",.str (toString outputDelta)),
      ("effectiveSlippageBps",.num settled.effectiveSlippageBps)] ++
      settled.positionDelta.toList.map fun delta => ("positionDelta",.str (toString delta)))
  return {
    tradeId
    state := .confirmed
    signature := some signature
    summary := match settled.problem with
      | some (_,message) => s!"{intent.summary} — WARNING: {message}"
      | none => intent.summary
    fill := some ⟨inputDelta,outputDelta,settled.effectiveSlippageBps,settled.positionDelta⟩
    error := settled.problem.map fun (code,message) => (code.text,message) }

/-- From the row on. -/
def land (now : ℤ) (bucket : Option QuoteBucket) (reservationId : Option String) (pre : Pair) (prePosition : Option ℤ) :
    Gateway ExecuteResult := do
  call (Op.appendJournal ⟨"intent.received",tradeId,now,
    [("idempotencyKey",.str o.idempotencyKey),("source",.str intent.source),("summary",.str intent.summary)]⟩)
  onlyIf reservationId.isSome (call (Op.appendJournal ⟨"trade.reserved",tradeId,now,
    [("bucket",Json.nullable (bucket.map QuoteBucket.text)),("amount",.str (toString intent.inputAmount))]⟩))
  let sim ← call (Op.simulate intent.unsignedTxBase64)
  journal "trade.simulated" tradeId [("ok",.bool sim.ok)]
  reject (¬sim.ok) (.guard .simulationFailed "preflight simulation failed" [("err",sim.err.getD "unknown")])
  let signed ← call (Op.sign intent.unsignedTxBase64)
  let now ← call Op.now
  call (Op.persistSigned tradeId signed.wireBase64 signed.signature now)
  journal "trade.signed" tradeId [("signature",.str signed.signature)]
  reject (¬d.broadcasters intent.landMode)
    (.guard .broadcastFailed (s!"no broadcaster for land mode '{intent.landMode.text}'") [])
  let signature ← tryCatch (call (Op.broadcast intent.landMode signed intent.landHandle)) fun e =>
    throw (Failure.guard .broadcastFailed e.message [])
  let now ← call Op.now
  call (Op.setSignature tradeId signature now)
  let now ← call Op.now
  call (Op.setState tradeId .sent now)
  journal "trade.sent" tradeId [("signature",.str signature)]
  let status ← call (Op.confirm signature intent.lastValidBlockHeight)
  if status ≠ .confirmed then giveUp tradeId reservationId status
  else conclude d intent tradeId reservationId signature pre prePosition

def live : Gateway ExecuteResult := do
  let now ← call Op.now
  let tradeId ← call Op.newTradeId
  let claimed ← call (Op.claimIdempotency o.idempotencyKey tradeId now)
  if claimed then
    (guarded d intent o tradeId now).attempt (abandon tradeId none false) fun (bucket,reservationId) =>
      (register d intent o tradeId now bucket reservationId).attempt (abandon tradeId reservationId false)
        fun (pre,prePosition) =>
          (land d intent o tradeId now bucket reservationId pre prePosition).attempt
            (abandon tradeId reservationId true) fun result => return result
  else
    let prior ← call (Op.getTradeByIdempotency o.idempotencyKey)
    return {
      tradeId := (prior.map TradeRow.id).getD tradeId
      state := (prior.map TradeRow.state).getD .rejected
      signature := prior.bind TradeRow.signature
      summary := "duplicate request — this idempotency key was already used"
      error := some (GuardCode.duplicateIntent.text,"idempotency key already used") }

end Live

/-- `if (text)` -/
def truthy (text : Option String) : Option String := text.filter (· ≠ "")

/-- One trade of `recover`, and whether it was confirmed. -/
def recoverTrade (trade : TradeRow) : Gateway Bool := do
  match truthy trade.signature with
  | none =>
    release (truthy trade.reservationId)
    let now ← call Op.now
    call (Op.fail trade.id .errored "RECONCILE_NO_SIGNATURE" now)
    return false
  | some signature =>
    let status ← call (Op.confirm signature trade.lastValidBlockHeight)
    if status = .confirmed then
      consume (truthy trade.reservationId)
      let now ← call Op.now
      call (Op.setState trade.id .confirmed now)
      return true
    else
      release (truthy trade.reservationId)
      let now ← call Op.now
      call (Op.fail trade.id (if status = .expired then .expired else .errored)
        (if status = .expired then "RECONCILE_EXPIRED" else "RECONCILE_FAILED") now)
      return false

def recoverTrades : List TradeRow → ReconcileSummary → Gateway ReconcileSummary
  | [], summary => return summary
  | trade :: trades, summary => do
    let confirmed ← recoverTrade trade
    recoverTrades trades
      (if confirmed then { summary with confirmed := summary.confirmed + 1 }
      else { summary with failed := summary.failed + 1 })

def recover : Gateway ReconcileSummary := do
  let pending ← call Op.pendingSent
  recoverTrades pending ⟨pending.length,0,0⟩

/-- What the environment decides at an effect: what the port answers, what the clock says and
which id is drawn. -/
structure Choice where
  reply : (op : Op) → Except Failure op.Ans := fun _ => .error (.other "")
  now : ℤ := 0
  id : String := ""

instance : Inhabited Choice := ⟨{}⟩

def handle (choice : Choice) : (op : Op) → KernelStore → Except Failure op.Ans × KernelStore
  | .now,s => (.ok choice.now,s)
  | .newTradeId,s => (.ok choice.id,s)
  | .claimIdempotency key tradeId now,s => (s.claimIdempotency key tradeId now).map .ok id
  | .getTradeByIdempotency key,s => (.ok (s.getTradeByIdempotency key),s)
  | .reserve args,s => (s.reserve args choice.id).map (·.mapError .other) id
  | .insertTrade row reservationId,s => (s.insertTrade row reservationId).map (·.mapError .other) id
  | .appendJournal event,s => (.ok (),s.appendJournal event)
  | .persistSigned id signedWire signature now,s => (.ok (),s.persistSigned id signedWire signature now)
  | .setSignature id signature now,s => (.ok (),s.setSignature id signature now)
  | .setState id state now,s => (.ok (),s.setState id state now)
  | .releaseReservation reservationId,s => (.ok (),s.releaseReservation reservationId)
  | .consumeReservation reservationId,s => (.ok (),s.consumeReservation reservationId)
  | .fail id state error now,s => (.ok (),s.fail id state error now)
  | .pendingSent,s => (.ok s.pendingSent,s)
  | op,s => (choice.reply op,s)

inductive Call where
  | live (intent : TradeIntent) (o : ExecuteOptions)
  | recover

def Call.program (d : Deployment) : Call → Gateway Unit
  | .live intent o => do
    let _ ← Kernel.live d intent o
    return ()
  | .recover => do
    let _ ← Kernel.recover
    return ()

/-- Any number of calls over one store, which survives a crash as it is. -/
def kernel (d : Deployment) : System Op Op.Ans Failure KernelStore Call Choice where
  program := Call.program d
  handle
  ambient _ s := s
  restart s := s

abbrev Pool := Config Op Op.Ans Failure KernelStore

namespace Sample

def deployment : Deployment := ⟨"owner",fun _ => true,false⟩

def policy : PolicyConfig where
  executionEnabled := true
  killSwitch := false
  maxSlippageBps := 300
  capsSol := ⟨2000,5000,9000⟩
  capsUsdc := ⟨0,0,0⟩
  mintAllowlist := none
  mintDenylist := []
  allowToken2022 := false
  priorityFeeMaxLamports := 100
  priorityFeeMaxBps := 1000

def intent : TradeIntent where
  kind := .swap
  source := "swap_jupiter"
  inputMint := "So11111111111111111111111111111111111111112"
  inputAmount := 1000
  outputMint := "mint"
  inputProvenance := .user
  outputProvenance := .user
  unsignedTxBase64 := "AQAB"
  lastValidBlockHeight := 100
  landMode := .selfRpc
  landHandle := none
  priorityFeeLamports := some 10
  quote := ⟨2000,1990,50⟩
  perp := none
  summary := "swap"
  json := []

/-- Every port agrees, and the cluster confirms. -/
def reply : (op : Op) → Except Failure op.Ans
  | .policy => .ok policy
  | .inspect _ _ => .ok (⟨false⟩,⟨false⟩)
  | .readPair _ _ _ => .ok ⟨4000000,0⟩
  | .simulate _ => .ok ⟨true,none⟩
  | .sign _ => .ok ⟨"wire","signature"⟩
  | .broadcast _ _ _ => .ok "signature"
  | .confirm _ _ => .ok .confirmed
  | _ => .error (.other "unavailable")

def stepsWith (reply : (op : Op) → Except Failure op.Ans) (thread n : ℕ) : List (Event Call Choice) :=
  List.replicate n (.perform thread { reply, id := "id" })

/-- One trade up to the call of the broadcaster, which is its nineteenth effect. -/
def handed : List (Event Call Choice) := .start (.live intent ⟨"key",true⟩) :: stepsWith reply 0 18

def start : Pool := Config.initial .empty

def returned : Thread Op Op.Ans Failure → Bool
  | ⟨.pure _,_⟩ => true
  | _ => false

end Sample

end RatifyOs.Kernel
