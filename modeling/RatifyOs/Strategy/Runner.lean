import RatifyOs.Data.Double
import RatifyOs.Data.Table
import Mathlib.Data.List.Sort
import RatifyOs.Async.System

/-! `strategy/store.ts`: the rows of the `strategies` table. -/
namespace RatifyOs.Strategy
open Data

def WSOL_MINT : String := "So11111111111111111111111111111111111111112"

inductive StrategyKind where
  | dca
  | twap
  | trailing_stop
  | take_profit
  deriving DecidableEq

def StrategyKind.text : StrategyKind → String
  | dca => "dca"
  | twap => "twap"
  | trailing_stop => "trailing_stop"
  | take_profit => "take_profit"

inductive StrategyStatus where
  | active
  | paused
  | done
  | errored
  deriving DecidableEq

/-- A value of `params`. Only numbers and strings are ever read. -/
inductive Param where
  | number (value : Double)
  | text (value : String)
  | other
  deriving DecidableEq

/-- `params`: what is stored is what `JSON.parse` gives back, where a number that is not
finite has become `null`, and `num` reads the two alike. -/
abbrev Params := List (String × Param)

def num (v : Option Param) (d : Double) : Double :=
  match v with
  | some (.number x) => if x.isFinite then x else d
  | _ => d

def str (v : Option Param) (d : String) : String :=
  match v with
  | some (.text s) => s
  | _ => d

/-- `{ ...p, name: value }` -/
def Params.set (p : Params) (name : String) (value : Double) : Params :=
  if (p.lookup name).isSome then p.map fun entry => if entry.1 = name then (name,.number value) else entry
  else p ++ [(name,.number value)]

structure StrategyRow where
  id : String
  userId : ℤ
  kind : StrategyKind
  status : StrategyStatus
  params : Params
  nextRunAt : Double
  createdAt : ℤ
  lastRunAt : Option ℤ
  runs : ℕ
  errors : ℕ
  lastError : Option String
  deriving DecidableEq

abbrev Strategies := Table StrategyRow.id

/-- `SELECT * FROM strategies WHERE status = 'active' AND next_run_at <= ? ORDER BY next_run_at ASC` -/
def Strategies.due (t : Strategies) (now : ℤ) : List StrategyRow :=
  (t.select fun r => r.status = .active ∧ r.nextRunAt ≤ now).insertionSort fun a b => a.nextRunAt ≤ b.nextRunAt

theorem Strategies.active_of_due {t : Strategies} {now : ℤ} {r : StrategyRow} (listed : r ∈ t.due now) :
    r ∈ t.rows ∧ r.status = .active := by
  have selected := (List.mem_insertionSort _).mp listed
  rw [Table.mem_select,decide_eq_true_iff] at selected
  exact ⟨selected.1,selected.2.1⟩

/-- `UPDATE strategies SET status = ?, … WHERE id = ?` writes the columns a run may change. -/
def Strategies.save (t : Strategies) (row : StrategyRow) : Strategies :=
  match t.find? row.id with
  | some old =>
    t.put { old with
      status := row.status
      params := row.params
      nextRunAt := row.nextRunAt
      lastRunAt := row.lastRunAt
      runs := row.runs
      errors := row.errors
      lastError := row.lastError }
  | none => t

/-- `UPDATE strategies SET status = ? WHERE id = ?` -/
def Strategies.setStatus (t : Strategies) (id : String) (status : StrategyStatus) : Strategies :=
  match t.find? id with
  | some old => t.put { old with status := status }
  | none => t

theorem Strategies.find?_save (t : Strategies) (row : StrategyRow) (id : String) :
    ((t.save row).find? id).map StrategyRow.status =
      if row.id = id then (t.find? id).map fun _ => row.status else (t.find? id).map StrategyRow.status := by
  unfold Strategies.save
  split
  · rename_i old found
    rw [Table.find?_put]
    have same : old.id = row.id := Table.key_of_find? found
    by_cases here : row.id = id
    · simp [here,same,Option.map_map,Function.comp_def]
    · simp [here,same]
  · rename_i absent
    by_cases here : row.id = id
    · simp [← here,absent]
    · simp [here]

theorem Strategies.find?_setStatus (t : Strategies) (id other : String) (status : StrategyStatus) :
    ((t.setStatus id status).find? other).map StrategyRow.status =
      if id = other then (t.find? other).map fun _ => status else (t.find? other).map StrategyRow.status := by
  unfold Strategies.setStatus
  split
  · rename_i old found
    rw [Table.find?_put]
    have same : old.id = id := Table.key_of_find? found
    by_cases here : id = other
    · simp [here,same,Option.map_map,Function.comp_def]
    · simp [here,same]
  · rename_i absent
    by_cases here : id = other
    · simp [← here,absent]
    · simp [here]

/-! `StrategyRunner`, one effect for each await, each statement of the store and each
reading of the clock, with the operator's writes to the same table. -/
open Async Data
open Async.Program hiding pure throw

inductive SwapKind where
  | buy
  | sell
  | swap
  deriving DecidableEq

/-- `amountUi` counts the input asset. -/
structure StrategySwap where
  kind : SwapKind
  amountUi : Double
  inputMint : String
  outputMint : String
  slippageBps : Option ℕ
  deriving DecidableEq

structure StrategySwapResult where
  ok : Bool
  text : String
  signature : Option String
  deriving DecidableEq

/-- The run a swap belongs to. -/
structure RunKey where
  strategy : String
  runs : ℕ
  deriving DecidableEq

/-- The idempotency key the executor is given. -/
def RunKey.text (k : RunKey) : String := s!"strat_{k.strategy}_{k.runs}"

inductive Op where
  | enter
  | leave
  | now
  | due (now : ℤ)
  | price (mint : String)
  | swap (req : StrategySwap) (idem : RunKey)
  | notify (userId : ℤ) (text : String)
  | save (row : StrategyRow)
  | setStatus (id : String) (status : StrategyStatus)
  | create (userId : ℤ) (kind : StrategyKind) (params : Params) (firstRunAt : Double)

abbrev Op.Ans : Op → Type
  | enter => Bool
  | now => ℤ
  | due _ => List StrategyRow
  | price _ => Option Double
  | swap _ _ => StrategySwapResult
  | setStatus _ _ => Bool
  | leave | notify _ _ | save _ | create _ _ _ _ => Unit

abbrev Runner := Program Op Op.Ans String

/-- The optional methods of a `StrategyExecutor` that are there. -/
structure StrategyExecutor where
  price : Bool
  notify : Bool

def MAX_CONSECUTIVE_ERRORS : ℕ := 3
def MIN_INTERVAL_SEC : Double := 15
def DEFAULT_INTERVAL_SEC : Double := 3600

def tolerance : Double := Double.ofRat (1 / 1000000000)

inductive Plan where
  | swap (req : StrategySwap)
  | skip
  | done
  deriving DecidableEq

def buy (token : String) (amountUi : Double) : StrategySwap := ⟨.buy,amountUi,WSOL_MINT,token,none⟩

def sell (token : String) (amountUi : Double) : StrategySwap := ⟨.sell,amountUi,token,WSOL_MINT,none⟩

/-- `Math.max(1, Math.floor(num(p.slices, 1)))` -/
def Params.slices (p : Params) : Double := Double.max 1 (num (p.lookup "slices") 1).floor

/-- `Math.floor(num(p.doneSlices))` -/
def Params.doneSlices (p : Params) : Double := (num (p.lookup "doneSlices") 0).floor

def planDca (p : Params) : Plan :=
  let token := str (p.lookup "token") ""
  let per := num (p.lookup "amountUiPerStep") 0
  let total := num (p.lookup "totalBudgetUi") 0
  let spent := num (p.lookup "spentUi") 0
  if token = "" ∨ per ≤ 0 then .done
  else if 0 < total ∧ total + tolerance < spent + per then .done
  else .swap (buy token per)

def planTwap (p : Params) : Plan :=
  let token := str (p.lookup "token") ""
  let totalUi := num (p.lookup "totalUi") 0
  let side := str (p.lookup "side") "buy"
  if token = "" ∨ p.slices ≤ p.doneSlices then .done
  else
    let sliceUi := totalUi / p.slices
    .swap (if side = "sell" then sell token sliceUi else buy token sliceUi)

/-- `#plan`, with the row as it leaves it. -/
def plan (e : StrategyExecutor) (strat : StrategyRow) : Runner (StrategyRow × Plan) :=
  let p := strat.params
  let token := str (p.lookup "token") ""
  let sizeUi := num (p.lookup "sizeUi") 0
  match strat.kind with
  | .dca => return (strat,planDca p)
  | .twap => return (strat,planTwap p)
  | .trailing_stop =>
    let dropPct := num (p.lookup "dropPct") 10
    if token = "" ∨ sizeUi ≤ 0 ∨ !e.price then return (strat,.skip)
    else (call (Op.price token)).bind fun (found : Option Double) => match found with
      | none => return (strat,.skip)
      | some price =>
        let peak := Double.max (num (p.lookup "peak") price) price
        let strat := { strat with params := p.set "peak" peak }
        return (strat,if price ≤ peak * (1 - dropPct / 100) then .swap (sell token sizeUi) else .skip)
  | .take_profit =>
    let gainPct := num (p.lookup "gainPct") 50
    let entry := num (p.lookup "entryPrice") 0
    if token = "" ∨ sizeUi ≤ 0 ∨ entry ≤ 0 ∨ !e.price then return (strat,.skip)
    else (call (Op.price token)).bind fun (found : Option Double) => match found with
      | none => return (strat,.skip)
      | some price => return (strat,if entry * (1 + gainPct / 100) ≤ price then .swap (sell token sizeUi) else .skip)

def applyProgress (strat : StrategyRow) (action : StrategySwap) : StrategyRow :=
  let p := strat.params
  match strat.kind with
  | .dca => { strat with params := p.set "spentUi" (num (p.lookup "spentUi") 0 + action.amountUi) }
  | .twap => { strat with params := p.set "doneSlices" (p.doneSlices + 1) }
  | _ => { strat with status := .done }

def isComplete (strat : StrategyRow) : Bool :=
  let p := strat.params
  match strat.kind with
  | .dca =>
    let total := num (p.lookup "totalBudgetUi") 0
    0 < total ∧ total - tolerance ≤ num (p.lookup "spentUi") 0
  | .twap => p.slices ≤ p.doneSlices
  | _ => false

/-- `strat.nextRunAt = Date.now() + intervalSec * 1000` -/
def rescheduled (now : ℤ) (strat : StrategyRow) : StrategyRow :=
  let intervalSec := Double.max MIN_INTERVAL_SEC (num (strat.params.lookup "intervalSec") DEFAULT_INTERVAL_SEC)
  { strat with nextRunAt := (now : Double) + intervalSec * 1000 }

def reschedule (strat : StrategyRow) : Runner StrategyRow := do
  return rescheduled (← call Op.now) strat

/-- A notification that fails does not break the runner. -/
def notify (e : StrategyExecutor) (strat : StrategyRow) (text : String) : Runner Unit :=
  if e.notify then tryCatch (call (Op.notify strat.userId text)) fun _ => return ()
  else return ()

def broken (strat : StrategyRow) (message : String) : Runner Unit := do
  let errors := strat.errors + 1
  let strat ← reschedule { strat with
    errors := errors
    lastError := some message
    status := if MAX_CONSECUTIVE_ERRORS ≤ errors then .paused else strat.status }
  call (Op.save strat)

def saved (strat : StrategyRow) (rest : Runner Unit) : Runner Unit :=
  (call (Op.save strat)).attempt (broken strat) fun _ => rest

/-- A swap the executor reported done. -/
def succeeded (e : StrategyExecutor) (strat : StrategyRow) (req : StrategySwap) (text : String) : Runner StrategyRow := do
  let strat := applyProgress { strat with errors := 0, lastError := none } req
  notify e strat s!"{strat.kind.text}: {text}"
  return strat

def refused (e : StrategyExecutor) (strat : StrategyRow) (text : String) : Runner StrategyRow := do
  let strat := { strat with errors := strat.errors + 1, lastError := some text }
  if MAX_CONSECUTIVE_ERRORS ≤ strat.errors then do
    let strat := { strat with status := .paused }
    notify e strat s!"strategy {strat.kind.text} paused after {strat.errors} errors: {text}"
    return strat
  else return strat

def answered (e : StrategyExecutor) (strat : StrategyRow) (req : StrategySwap) (res : StrategySwapResult) :
    Runner StrategyRow :=
  if res.ok then succeeded e strat req res.text else refused e strat res.text

def completed (e : StrategyExecutor) (strat : StrategyRow) : Runner StrategyRow :=
  if strat.status = .active ∧ isComplete strat then do
    let strat := { strat with status := .done }
    notify e strat s!"strategy {strat.kind.text} complete."
    return strat
  else return strat

/-- What follows `await exec.swap`. -/
def conclude (e : StrategyExecutor) (strat : StrategyRow) (req : StrategySwap) (res : StrategySwapResult) :
    Runner Unit := do
  let now ← call Op.now
  let strat ← answered e { strat with runs := strat.runs + 1, lastRunAt := some now } req res
  let strat ← completed e strat
  let strat ← reschedule strat
  saved strat (return ())

/-- `#step` -/
def step (e : StrategyExecutor) (strat : StrategyRow) : Runner Unit :=
  (plan e strat).attempt (broken strat) fun
    | (strat,.done) =>
      let strat := { strat with status := .done }
      saved strat (notify e strat s!"strategy {strat.kind.text} complete.")
    | (strat,.skip) => do
      let strat ← reschedule strat
      saved strat (return ())
    | (strat,.swap req) =>
      (call (Op.swap req ⟨strat.id,strat.runs⟩)).attempt (broken strat) fun res => conclude e strat req res

def steps (e : StrategyExecutor) : List StrategyRow → Runner Unit
  | [] => return ()
  | strat :: rest => do
    step e strat
    steps e rest

def tick (e : StrategyExecutor) : Runner Unit := do
  if ← call Op.enter then do
    tryCatch (do
      let now ← call Op.now
      let rows ← call (Op.due now)
      steps e rows) fun error => do
        call Op.leave
        throw error
    call Op.leave

inductive Call where
  | tick
  | setStatus (id : String) (status : StrategyStatus)
  | create (userId : ℤ) (kind : StrategyKind) (params : Params) (firstRunAt : Double)

structure State where
  strategies : Strategies
  running : Bool

/-- What the environment decides about an effect. `failure` is what a statement throws. -/
structure Sample where
  now : ℤ
  id : String
  price : Except String (Option Double)
  swap : Except String StrategySwapResult
  notify : Except String Unit
  failure : Option String

def Sample.statement (choice : Sample) (value : α) (after unchanged : State) : Except String α × State :=
  match choice.failure with
  | some message => (.error message,unchanged)
  | none => (.ok value,after)

def handle (choice : Sample) : (op : Op) → State → Except String op.Ans × State
  | .enter, s => (.ok !s.running,{ s with running := true })
  | .leave, s => (.ok (),{ s with running := false })
  | .now, s => (.ok choice.now,s)
  | .due now, s => choice.statement (s.strategies.due now) s s
  | .price _, s => (choice.price,s)
  | .swap _ _, s => (choice.swap,s)
  | .notify _ _, s => (choice.notify,s)
  | .save row, s => choice.statement () { s with strategies := s.strategies.save row } s
  | .setStatus id status, s =>
    choice.statement (s.strategies.find? id).isSome { s with strategies := s.strategies.setStatus id status } s
  | .create userId kind params firstRunAt, s =>
    match s.strategies.insert? ⟨choice.id,userId,kind,.active,params,firstRunAt,choice.now,none,0,0,none⟩ with
    | some strategies => choice.statement () { s with strategies := strategies } s
    | none => (.error "UNIQUE constraint failed: strategies.id",s)

def strategies (e : StrategyExecutor) : System Op Op.Ans String State Call Sample where
  program
    | .tick => tick e
    | .setStatus id status => do let _ ← call (Op.setStatus id status)
    | .create userId kind params firstRunAt => call (Op.create userId kind params firstRunAt)
  handle := handle
  ambient _ s := s
  restart s := { s with running := false }

end RatifyOs.Strategy
