import Mathlib.Algebra.Ring.Int.Defs
import RatifyOs.Data.Json
import RatifyOs.Data.Table

/-! `KernelStore`: the trades, the spends that count against the caps, the idempotency keys
and the journal, each call one statement or one transaction. -/
namespace RatifyOs.Kernel
open Data

inductive TradeState where
  | reserved
  | sent
  | confirmed
  | expired
  | errored
  | rejected
  deriving DecidableEq

inductive QuoteBucket where
  | sol
  | usdc
  deriving DecidableEq

inductive SpendState where
  | reserved
  | released
  | consumed
  deriving DecidableEq

structure TradeRow where
  id : String
  idempotencyKey : String
  state : TradeState
  intentJson : Text
  signature : Option String
  inputMint : String
  outputMint : String
  inputAmount : ℤ
  lastValidBlockHeight : ℕ
  signedWire : Option String
  error : Option String
  reservationId : Option String
  createdAt : ℤ
  updatedAt : ℤ
  deriving DecidableEq

structure Spend where
  id : String
  tradeId : String
  bucket : QuoteBucket
  amount : ℤ
  state : SpendState
  createdAt : ℤ
  deriving DecidableEq

/-- A journal entry: its type, its trade, its time and the other keys of its object. -/
structure JournalEvent where
  type : String
  tradeId : String
  at_ : ℤ
  details : List (String × Json)

structure SpendCaps where
  perTrade : ℤ
  perHour : ℤ
  perDay : ℤ
  deriving DecidableEq

inductive ReserveDenyReason where
  | perTrade
  | perHour
  | perDay
  deriving DecidableEq

inductive ReserveOutcome where
  | ok (reservationId : String) (usedHour usedDay : ℤ)
  | denied (reason : ReserveDenyReason) (cap would : ℤ)
  deriving DecidableEq

structure ReserveArgs where
  bucket : QuoteBucket
  amount : ℤ
  caps : SpendCaps
  tradeId : String
  now : ℤ
  deriving DecidableEq

structure NewTradeRow where
  id : String
  idempotencyKey : String
  intentJson : Text
  inputMint : String
  outputMint : String
  inputAmount : ℤ
  lastValidBlockHeight : ℕ
  now : ℤ
  deriving DecidableEq

structure KernelStore where
  trades : Table TradeRow.id
  spends : Table Spend.id
  /-- Each claimed key with the trade that claimed it. -/
  idempotency : List (String × String × ℤ)
  journal : List JournalEvent

def hourMs : ℤ := 3600000

def dayMs : ℤ := 86400000

/-- The spend still counts against the caps. -/
def Spend.active (s : Spend) : Bool := s.state = .reserved ∨ s.state = .consumed

namespace KernelStore

def empty : KernelStore := ⟨.empty,.empty,[],[]⟩

def sumActive (s : KernelStore) (bucket : QuoteBucket) (since : ℤ) : ℤ :=
  ((s.spends.select fun x => x.bucket = bucket ∧ x.active ∧ x.createdAt ≥ since).map (·.amount)).sum

def usage (s : KernelStore) (bucket : QuoteBucket) (now : ℤ) : ℤ × ℤ :=
  (s.sumActive bucket (now - hourMs),s.sumActive bucket (now - dayMs))

/-- `false` where the key was used before. -/
def claimIdempotency (s : KernelStore) (key tradeId : String) (now : ℤ) : Bool × KernelStore :=
  if key ∈ s.idempotency.map (·.1) then (false,s)
  else (true,{ s with idempotency := s.idempotency ++ [(key,tradeId,now)] })

def getTradeByIdempotency (s : KernelStore) (key : String) : Option TradeRow :=
  s.trades.rows.find? fun r => r.idempotencyKey = key

def getTrade (s : KernelStore) (id : String) : Option TradeRow := s.trades.find? id

/-- The sums, the comparisons and the insert are one transaction; `reservationId` is drawn
at random. -/
def reserve (s : KernelStore) (args : ReserveArgs) (reservationId : String) :
    Except String ReserveOutcome × KernelStore :=
  let usedHour := s.sumActive args.bucket (args.now - hourMs)
  let usedDay := s.sumActive args.bucket (args.now - dayMs)
  if args.amount > args.caps.perTrade then (.ok (.denied .perTrade args.caps.perTrade args.amount),s)
  else if usedHour + args.amount > args.caps.perHour then
    (.ok (.denied .perHour args.caps.perHour (usedHour + args.amount)),s)
  else if usedDay + args.amount > args.caps.perDay then
    (.ok (.denied .perDay args.caps.perDay (usedDay + args.amount)),s)
  else match s.spends.insert? ⟨reservationId,args.tradeId,args.bucket,args.amount,.reserved,args.now⟩ with
    | some spends => (.ok (.ok reservationId usedHour usedDay),{ s with spends })
    | none => (.error "UNIQUE constraint failed: spends.id",s)

/-- `UPDATE spends SET state = ? WHERE id = ? AND …` -/
def setSpend (s : KernelStore) (id : String) (from_ : SpendState → Bool) (state : SpendState) : KernelStore :=
  match s.spends.find? id with
  | some x => if from_ x.state then { s with spends := s.spends.put { x with state } } else s
  | none => s

def releaseReservation (s : KernelStore) (id : String) : KernelStore := s.setSpend id (fun old => old = .reserved) .released

/-- Whatever the state of the spend was. -/
def consumeReservation (s : KernelStore) (id : String) : KernelStore := s.setSpend id (fun _ => true) .consumed

def insertTrade (s : KernelStore) (row : NewTradeRow) (reservationId : Option String) : Except String Unit × KernelStore :=
  if row.idempotencyKey ∈ s.trades.rows.map (·.idempotencyKey) then
    (.error "UNIQUE constraint failed: trades.idempotency_key",s)
  else match s.trades.insert? {
      id := row.id, idempotencyKey := row.idempotencyKey, state := .reserved, intentJson := row.intentJson
      signature := none, inputMint := row.inputMint, outputMint := row.outputMint, inputAmount := row.inputAmount
      lastValidBlockHeight := row.lastValidBlockHeight, signedWire := none, error := none, reservationId
      createdAt := row.now, updatedAt := row.now } with
    | some trades => (.ok (),{ s with trades })
    | none => (.error "UNIQUE constraint failed: trades.id",s)

/-- `UPDATE trades SET … WHERE id = ?` -/
def updateTrade (s : KernelStore) (id : String) (change : TradeRow → TradeRow) : KernelStore :=
  match s.trades.find? id with
  | some row => { s with trades := s.trades.put { change row with id := row.id } }
  | none => s

def persistSigned (s : KernelStore) (id signedWire signature : String) (now : ℤ) : KernelStore :=
  s.updateTrade id fun row => { row with signedWire := some signedWire, signature := some signature, updatedAt := now }

def setState (s : KernelStore) (id : String) (state : TradeState) (now : ℤ) : KernelStore :=
  s.updateTrade id fun row => { row with state, updatedAt := now }

def setSignature (s : KernelStore) (id signature : String) (now : ℤ) : KernelStore :=
  s.updateTrade id fun row => { row with signature := some signature, updatedAt := now }

def fail (s : KernelStore) (id : String) (state : TradeState) (error : String) (now : ℤ) : KernelStore :=
  s.updateTrade id fun row => { row with state, error := some error, updatedAt := now }

def pendingSent (s : KernelStore) : List TradeRow := s.trades.select fun row => row.state = .sent

def appendJournal (s : KernelStore) (event : JournalEvent) : KernelStore := { s with journal := s.journal ++ [event] }

end KernelStore

end RatifyOs.Kernel
