import RatifyOs.Kernel.Blame

/-! `ToolRegistry.invoke` of a tool that moves value: the registry races the tool against its
timeout and its caller, and the tool goes on over the gateway whoever wins. -/
namespace RatifyOs.Tools
open Async Kernel

/-- What `wrap` returns always passes the output check, so there is no `INVALID_OUTPUT`. -/
inductive ErrorCode where
  | unknownTool
  | capabilityDenied
  | unavailable
  | invalidInput
  | timeout
  | cancelled
  | executionError
  deriving DecidableEq

structure Availability where
  available : Bool
  reason : Option String

/-- What `invoke` reads before the start. -/
structure Request where
  name : String
  /-- Of the registered tool, if there is one. -/
  capabilities : Option (List String)
  granted : List String
  availability : Except String Availability
  parsed : Bool

/-- The first check that refuses. -/
def Request.rejected (r : Request) : Option (ErrorCode × String) :=
  match r.capabilities with
  | none => some (.unknownTool,s!"Unknown tool: {r.name}")
  | some capabilities =>
    if ¬∀ cap ∈ capabilities, cap ∈ r.granted then some (.capabilityDenied,"Required capability not granted")
    else
      match r.availability with
      | .error message => some (.unavailable,message)
      | .ok status =>
        if !status.available then some (.unavailable,status.reason.getD "Tool unavailable")
        else if !r.parsed then some (.invalidInput,"Input validation failed")
        else none

structure ToolOutcome where
  isError : Bool
  text : String

/-- What a value-moving tool and the bridge await. `build` prepares the intent and reads only. -/
inductive Step where
  | context
  | confirmedByUser
  | build
  | execute (intent : TradeIntent) (o : ExecuteOptions)

abbrev Step.Ans : Step → Type
  | context => Unit
  | confirmedByUser => Bool
  | build => TradeIntent
  | execute _ _ => ExecuteResult

abbrev Tool := Program Step Step.Ans String

/-- `r.error && r.state !== "confirmed"` -/
def outcomeOf (r : ExecuteResult) : ToolOutcome :=
  if r.failed then
    ⟨true,match r.error with
      | some (code,message) => s!"{code}: {message}"
      | none => ""⟩
  else
    ⟨false,r.summary ++ match truthy r.signature with
      | some signature => s!"\nsig: {signature}"
      | none => ""⟩

/-- `execute` of a value-moving intent tool. -/
def toolExecute (o : ExecuteOptions) : Tool ToolOutcome := do
  let intent ← Program.call Step.build
  let r ← Program.call (Step.execute intent o)
  return outcomeOf r

/-- `execute` of the tool that `registerIntentTool` registers, with the key it draws. -/
def bridge (idempotencyKey : String) : Tool String := do
  Program.call Step.context
  let confirmedByUser ← Program.call Step.confirmedByUser
  let outcome ← toolExecute ⟨idempotencyKey,confirmedByUser⟩
  if outcome.isError then throw outcome.text
  return outcome.text

/-- Where the tool is: at an await of its own, or in a call of the gateway, from which it goes on. -/
inductive Stand where
  | own (p : Tool String)
  | gateway (p : Gateway ExecuteResult) (next : Except String ExecuteResult → Tool String) (history : Log)

inductive Stage where
  | checking
  | starting
  | racing
  | succeeded (data : String)
  | failed (code : ErrorCode) (message : String)

def Stage.armed : Stage → Bool
  | .starting | .racing => true
  | _ => false

def Stage.failure : Stage → Bool
  | .failed _ _ => true
  | _ => false

structure Invocation where
  stage : Stage
  /-- The reason that the caller's signal was aborted with, and the controller's. -/
  signal : Option String
  controller : Option String
  timeoutTriggered : Bool
  tool : Option Stand
  /-- The signal as it was when the tool was started. -/
  signalAtStart : Option String
  /-- A transaction of the tool has reached the network. -/
  sent : Bool
  store : KernelStore

/-- The caller may have aborted before it calls. -/
def called (aborted : Option String) (store : KernelStore) : Invocation :=
  ⟨.checking,aborted,none,false,none,none,false,store⟩

inductive Event where
  | checks (request : Request)
  | callerAborts (reason : String)
  | timesOut
  /-- The start event has been emitted. -/
  | go (idempotencyKey : String)
  /-- An await of the tool itself is answered. -/
  | answer (reply : (step : Step) → Except String step.Ans)
  /-- An effect of the tool's gateway call is answered. Bytes handed to a broadcaster that
  throws may have reached the network. -/
  | effect (choice : Choice) (reached : Bool)
  /-- Other calls of the gateway go on. -/
  | others (store : KernelStore)

/-- The transaction of this effect is on its way. -/
def sends (reached : Bool) : Record → Bool
  | ⟨.broadcast _ _ _,.ok _⟩ => true
  | ⟨.broadcast _ _ _,.error _⟩ => reached
  | _ => false

section Step
variable (d : Deployment)

/-- `code` in the `catch` of `invoke`. -/
def Invocation.code (v : Invocation) : ErrorCode :=
  if v.controller.isSome then (if v.timeoutTriggered then .timeout else .cancelled) else .executionError

/-- `abort` rejects the race, if it is on. -/
def Invocation.abort (v : Invocation) (timeout : Bool) : Invocation :=
  let v := { v with
    timeoutTriggered := v.timeoutTriggered || timeout
    controller := v.controller.or (if timeout then some "Tool timed out" else v.signal) }
  match v.stage with
  | .racing => { v with stage := .failed v.code (v.controller.getD "") }
  | _ => v

/-- Between its awaits the tool runs on; a gateway call is entered at once, and what the tool
comes to settles the race, if that is still open. -/
def Invocation.settle (v : Invocation) : Tool String → Invocation
  | .pure data =>
    let v := { v with tool := some (.own (.pure data)) }
    match v.stage with
    | .racing => { v with stage := .succeeded data }
    | _ => v
  | .throw message =>
    let v := { v with tool := some (.own (.throw message)) }
    match v.stage with
    | .racing => { v with stage := .failed v.code message }
    | _ => v
  | .perform (.execute intent o) next => { v with tool := some (.gateway (live d intent o) next []) }
  | p => { v with tool := some (.own p) }

/-- `Promise.race` of the tool, which is started in any case, against what the controller says. -/
def Invocation.start (v : Invocation) (idempotencyKey : String) : Invocation :=
  let v := if v.signal.isSome then v.abort false else v
  let v := { v with
    signalAtStart := v.signal
    stage := match v.controller with
      | some reason => .failed v.code reason
      | none => .racing }
  v.settle d (bridge idempotencyKey)

def Invocation.step (v : Invocation) : Event → Invocation
  | .checks request =>
    match v.stage with
    | .checking => { v with stage := match request.rejected with
        | some (code,message) => .failed code message
        | none => .starting }
    | _ => v
  | .callerAborts reason =>
    if v.signal.isSome then v
    else
      let v := { v with signal := some reason }
      if v.stage.armed then v.abort false else v
  | .timesOut => if v.stage.armed then v.abort true else v
  | .go idempotencyKey =>
    match v.stage with
    | .starting => v.start d idempotencyKey
    | _ => v
  | .answer reply =>
    match v.tool with
    | some (.own (.perform step next)) => v.settle d (next (reply step))
    | _ => v
  | .effect choice reached =>
    match v.tool with
    | some (.gateway (.perform op next) rest history) =>
      let result := handle choice op v.store
      let v := { v with sent := v.sent || sends reached ⟨op,result.1⟩, store := result.2 }
      match next result.1 with
      | .pure r => v.settle d (rest (.ok r))
      | .throw error => v.settle d (rest (.error error.message))
      | p => { v with tool := some (.gateway p rest (⟨op,result.1⟩ :: history)) }
    | _ => v
  | .others store => { v with store }

end Step

end RatifyOs.Tools
