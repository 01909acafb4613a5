import Mathlib.Data.List.Infix
import RatifyOs.Agent.Value
import RatifyOs.Async.Program
import RatifyOs.Data.Words

/-! `AgentRuntime.run`: a model is asked for answers, and the tools it calls are dispatched,
until it calls none or a budget is used up. What a provider answers is plain data. -/
namespace RatifyOs.Agent
open Data Async
open Async.Program (attempt call ofOption onlyIf reject)

inductive ToolEffect where
  | read
  | proposal
  | write
  deriving DecidableEq

structure ToolCall where
  id : String
  name : String
  arguments : Value

/-- An entry of `toolCalls` as a provider gives it; what is not a string is missing. -/
structure RawCall where
  id : Option String
  name : Option String
  arguments : Value

/-- A message that was found to be one of an assistant. -/
structure Assistant where
  content : String
  toolCalls : List (Option RawCall)

inductive RawCalls where
  | absent
  | other
  | array (calls : List (Option RawCall))

structure RawMessage where
  role : String
  content : Option String
  toolCalls : RawCalls

/-- The `message` of an answer, if it has one. -/
abbrev ModelResponse := Option RawMessage

inductive AgentMessage where
  | system (content : String)
  | user (content : String)
  | assistant (message : Assistant)
  | tool (content : Text) (toolCallId name : String)

inductive RuntimeErrorCode where
  | iterationBudgetExceeded
  | toolBudgetExceeded
  | loopDetected
  | deadlineExceeded
  | modelError
  | unsafeTool
  | noToolDispatcher
  | reconciliationRequired
  deriving DecidableEq

/-- What is thrown: an `AgentRuntimeError`, or anything else, which need not have a text. -/
inductive Failure where
  | runtime (code : RuntimeErrorCode) (message : String)
  | other (text : Option String)

namespace Failure

/-- `error instanceof Error ? error.message : String(error)`, which itself throws for an object
without a conversion to a string. -/
def text : Failure → Except Failure String
  | runtime _ message => .ok message
  | other (some text) => .ok text
  | other none => .error (.other (some "Cannot convert object to primitive value"))

def code : Failure → RuntimeErrorCode
  | runtime code _ => code
  | other _ => .modelError

end Failure

inductive LifecycleStatus where
  | planned
  | started
  | succeeded
  | failed
  | reconciliationRequired

inductive AgentEvent where
  | runStarted
  | iterationStarted (iteration : ℕ)
  | modelRequested (provider : String) (iteration : ℕ)
  | providerFailed (provider error : String)
  | modelResponded (provider : String) (message : Assistant)
  | toolStarted (call : ToolCall)
  | toolCompleted (call : ToolCall) (result : Value)
  | runCompleted (message : Assistant) (iterations toolCalls : ℕ)
  | runFailed (code : RuntimeErrorCode) (message : String)
  | runCancelled

structure RuntimeOptions where
  providers : List String
  /-- Whether a dispatcher, and the two callbacks, are configured. -/
  tools : Bool
  persistMessage : Bool
  persistToolLifecycle : Bool
  maxIterations : ℕ
  maxToolCalls : ℕ
  maxRepeatedToolCalls : ℕ
  locale : Locale

inductive Op where
  | aborted
  | timedOut
  | complete (provider : ℕ) (messages : List AgentMessage)
  | classify (name : String)
  | persistMessage (message : AgentMessage)
  | persistToolLifecycle (status : LifecycleStatus) (call : ToolCall) (result : Option Value) (error : Option Failure)
  | dispatch (call : ToolCall)
  | emit (event : AgentEvent)

abbrev Ans : Op → Type
  | .aborted => Bool
  | .timedOut => Bool
  | .complete _ _ => ModelResponse
  | .classify _ => Option ToolEffect
  | .persistMessage _ => Unit
  | .persistToolLifecycle _ _ _ _ => Unit
  | .dispatch _ => Value
  | .emit _ => Unit

abbrev Run (α : Type) := Program Op Ans Failure α

/-- `controller.signal.aborted`, which cannot fail. -/
def aborted : Run Bool := .perform .aborted fun
  | .ok flag => .pure flag
  | .error _ => .pure false

def timedOut : Run Bool := .perform .timedOut fun
  | .ok flag => .pure flag
  | .error _ => .pure false

/-- `yield`: a consumer asks for the next event or stops asking. -/
def emit (event : AgentEvent) : Run Unit := .perform (.emit event) fun _ => .pure ()

/-- What the separators of a tool name cut it into. -/
def nameParts (name : Text) : List Text := name.splitOnP fun c => c = '.' ∨ c = '_' ∨ c = '-'

/-- `/(^|[._-])(sign|signer|send|broadcast|write|execute)([._-]|$)|wallet/i` -/
def deniedTool (name : String) : Bool :=
  let lower := name.toList.map Char.toLower
  (nameParts lower).any (fun part => part ∈ ["sign".toList,"signer".toList,"send".toList,"broadcast".toList,
    "write".toList,"execute".toList]) ∨ "wallet".toList <:+: lower

def validateResponse : ModelResponse → Except Failure Assistant
  | some ⟨"assistant",some content,.absent⟩ => .ok ⟨content,[]⟩
  | some ⟨"assistant",some content,.array calls⟩ => .ok ⟨content,calls⟩
  | _ => .error (.runtime .modelError "Malformed model response")

/-- What the loop of `run` carries. -/
structure Loop where
  messages : List AgentMessage
  toolCount : ℕ
  sideEffects : Bool
  activeProvider : ℕ
  repeated : Text → ℕ

/-- A call that has an id and a name. -/
def toolCall : Option RawCall → Option ToolCall
  | some ⟨some id,some name,arguments⟩ =>
    if Text.trim id.toList = [] ∨ Text.trim name.toList = [] then none else some ⟨id,name,arguments⟩
  | _ => none

structure Validated where
  call : ToolCall
  signature : Text
  effect : Option ToolEffect

section Run
variable (o : RuntimeOptions)

def signature (call : ToolCall) : Text := call.name.toList ++ ':' :: stableStringify o.locale call.arguments

/-- `await this.#options.persistMessage?.(message)` -/
def persistMessage (message : AgentMessage) : Run Unit := onlyIf o.persistMessage (call (.persistMessage message))

def persistToolLifecycle (status : LifecycleStatus) (tool : ToolCall) (result : Option Value) (error : Option Failure) : Run Unit :=
  onlyIf o.persistToolLifecycle (call (.persistToolLifecycle status tool result error))

/-- The loop over the providers from the active one on. -/
def request (iteration : ℕ) (s : Loop) : List String → ℕ → Run (Assistant × ℕ)
  | [], _ => throw (.runtime .modelError "No model response")
  | provider :: rest, index => do
    emit (.modelRequested provider iteration)
    attempt (do
        let response ← call (.complete index s.messages)
        Program.ofExcept (validateResponse response))
      (fun error => do
        if ← aborted then throw error
        else
          let text ← Program.ofExcept error.text
          emit (.providerFailed provider text)
          if s.sideEffects ∨ rest = [] then throw (.runtime .modelError text)
          else request iteration s rest (index + 1))
      (fun message => do
        emit (.modelResponded provider message)
        return (message,index))

/-- The first loop over the calls of an answer, which dispatches none. -/
def validateCalls (repeated : Text → ℕ) : List (Option RawCall) → List String → Run (List Validated)
  | [], _ => return []
  | raw :: rest, seen => do
    let tool ← ofOption ((toolCall raw).filter fun tool => tool.id ∉ seen)
      (Failure.runtime .modelError "Malformed or duplicate tool call")
    let key := signature o tool
    reject (repeated key + 1 > o.maxRepeatedToolCalls)
      (Failure.runtime .loopDetected ("Repeated tool call detected: " ++ tool.name))
    let effect ← call (.classify tool.name)
    reject ((effect ≠ some .read ∧ effect ≠ some .proposal) ∨ deniedTool tool.name)
      (Failure.runtime .unsafeTool ("Runtime cannot execute tool: " ++ tool.name))
    let others ← validateCalls repeated rest (tool.id :: seen)
    return ⟨tool,key,effect⟩ :: others

/-- One turn of the second loop, up to the result of the tool. -/
def dispatchCall (v : Validated) (s : Loop) : Run (Value × Loop) := do
  let s := { s with repeated := Function.update s.repeated v.signature (s.repeated v.signature + 1) }
  persistToolLifecycle o .planned v.call none none
  emit (.toolStarted v.call)
  persistToolLifecycle o .started v.call none none
  tryCatch (do
      let result ← call (.dispatch v.call)
      persistToolLifecycle o .succeeded v.call (some result) none
      return (result,{ s with
        toolCount := s.toolCount + 1, sideEffects := s.sideEffects || v.effect = some .proposal }))
    fun error => do
      if ← aborted then throw error
      else
        persistToolLifecycle o .failed v.call none (some error)
        throw error

/-- The rest of the turn: the result is kept as a message. -/
def recordResult (v : Validated) (result : Value) (s : Loop) : Run Loop := do
  emit (.toolCompleted v.call result)
  let message := AgentMessage.tool (stableStringify o.locale result) v.call.id v.call.name
  tryCatch (do
      persistMessage o message
      return { s with messages := s.messages ++ [message] })
    fun error => do
      persistToolLifecycle o .reconciliationRequired v.call (some result) (some error)
      throw (.runtime .reconciliationRequired "Tool executed but result persistence failed")

def dispatchCalls : List Validated → Loop → Run Loop
  | [], s => return s
  | v :: rest, s => do
    let (result,s) ← dispatchCall o v s
    let s ← recordResult o v result s
    dispatchCalls rest s

/-- The loop over the iterations, of which so many are left. -/
def iterate : ℕ → ℕ → Loop → Run Unit
  | 0, _, _ => throw (.runtime .iterationBudgetExceeded "Iteration budget exceeded")
  | left + 1, iteration, s => do
    if ← aborted then throw (.other (some "aborted"))
    else
      emit (.iterationStarted iteration)
      let (message,index) ← request iteration s (o.providers.drop s.activeProvider) s.activeProvider
      let s := { s with activeProvider := index }
      if message.toolCalls.length = 0 then
        persistMessage o (.assistant message)
        emit (.runCompleted message iteration s.toolCount)
      else
        reject (iteration = o.maxIterations) (Failure.runtime .iterationBudgetExceeded "Iteration budget exceeded")
        reject (s.toolCount + message.toolCalls.length > o.maxToolCalls)
          (Failure.runtime .toolBudgetExceeded "Tool-call budget exceeded")
        reject (o.tools = false)
          (Failure.runtime .noToolDispatcher "Model requested tools but no dispatcher is configured")
        let validated ← validateCalls o s.repeated message.toolCalls []
        persistMessage o (.assistant message)
        let s ← dispatchCalls o validated { s with messages := s.messages ++ [.assistant message] }
        iterate left (iteration + 1) s

def run (messages : List AgentMessage) : Run Unit := do
  emit .runStarted
  tryCatch (iterate o o.maxIterations 1 ⟨messages,0,false,0,fun _ => 0⟩) fun error => do
    if ← aborted then
      if ← timedOut then emit (.runFailed .deadlineExceeded "Run deadline exceeded")
      else emit .runCancelled
    else
      let text ← Program.ofExcept error.text
      emit (.runFailed error.code text)

end Run

end RatifyOs.Agent
