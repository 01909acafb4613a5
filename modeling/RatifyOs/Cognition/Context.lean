import RatifyOs.Data.Double
import RatifyOs.Data.Result
import RatifyOs.Execution.Canonical

/-! `compileContext`: the oldest units that nothing protects are dropped until the rest fits, and
a hand-off summary stands in their place where there is room for it. -/
namespace RatifyOs.Cognition
open Data Data.Result Execution

inductive ContextRole where
  | system
  | user
  | assistant
  | tool
  deriving DecidableEq

inductive MessageKind where
  | approval
  | policy
  | simulation
  | transaction
  | receipt
  | handoffSummary
  deriving DecidableEq

structure ContextToolCall where
  id : String
  name : String
  arguments : Json

structure ContextMessage where
  id : String
  role : ContextRole
  content : String
  name : Option String := none
  toolCallId : Option String := none
  toolCalls : Option (List ContextToolCall) := none
  kind : Option MessageKind := none
  evidenceRef : Option String := none

namespace ContextMessage

/-- An empty list of calls is no list. -/
def callIds (m : ContextMessage) : List String := (m.toolCalls.getD []).map (·.id)

/-- An assistant's message that its tools have to answer. -/
def Calls (m : ContextMessage) : Prop := m.role = .assistant ∧ m.callIds ≠ []

instance (m : ContextMessage) : Decidable m.Calls := inferInstanceAs (Decidable (_ ∧ _))

def financial (m : ContextMessage) : Bool := m.kind.any (· ≠ .handoffSummary)

end ContextMessage

section Text

def roleName : ContextRole → String
  | .system => "system"
  | .user => "user"
  | .assistant => "assistant"
  | .tool => "tool"

def kindName : MessageKind → String
  | .approval => "approval"
  | .policy => "policy"
  | .simulation => "simulation"
  | .transaction => "transaction"
  | .receipt => "receipt"
  | .handoffSummary => "handoff-summary"

/-- A property that `JSON.stringify` leaves out where it is undefined. -/
def optionalField (key : String) (value : Option Json) : List (String × Json) :=
  (value.map fun v => (key,v)).toList

def unitsLength (text : Text) : ℕ := (text.map fun c => if c.toNat < 65536 then 1 else 2).sum

def toolCallJson (call : ContextToolCall) : Json :=
  .obj [("id",.str call.id),("name",.str call.name),("arguments",call.arguments)]

def messageJson (m : ContextMessage) : Json :=
  .obj ([("role",.str (roleName m.role)),("id",.str m.id),("content",.str m.content)]
    ++ optionalField "name" (m.name.map .str)
    ++ optionalField "toolCallId" (m.toolCallId.map .str)
    ++ optionalField "toolCalls" (m.toolCalls.map fun calls => .arr (calls.map toolCallJson))
    ++ optionalField "kind" (m.kind.map fun kind => .str (kindName kind))
    ++ optionalField "evidenceRef" (m.evidenceRef.map .str))

def defaultEstimate (m : ContextMessage) : Double :=
  .finite (((unitsLength (stringify (messageJson m)) + 3) / 4 + 8 : ℕ) : ℚ)

def evidenceCharacter (c : Char) : Bool :=
  c.isAlphanum ∨ c ∈ "._~!$&'()*+,;=:@%/-".toList

def evidenceScheme : List Char := "evidence://".toList

/-- `safeEvidenceRef` of a property that is there. -/
def safeEvidence (value : String) : Bool :=
  evidenceScheme.isPrefixOf value.toList && value.toList.drop evidenceScheme.length ≠ []
    && (value.toList.drop evidenceScheme.length).all evidenceCharacter && unitsLength value.toList ≤ 512

def safeEvidenceRef (value : Option String) : Bool := value.any safeEvidence

end Text

structure CompileOptions where
  maxTokens : Double
  headMessages : Option Double := none
  tailMessages : Option Double := none
  /-- Nothing where the function throws. -/
  estimateTokens : Option (ContextMessage → Option Double) := none

namespace CompileOptions
variable (options : CompileOptions)

def baseEstimate : ContextMessage → Option Double :=
  options.estimateTokens.getD fun m => some (defaultEstimate m)

def head : Double := Double.max 0 (options.headMessages.getD 1).floor

def tail : Double := Double.max 0 (options.tailMessages.getD 4).floor

end CompileOptions

def countable (n : Double) : Bool := n.isFinite && 0 ≤ n && n.isInteger

def validatedEstimate (fn : ContextMessage → Option Double) (m : ContextMessage) : Except String Double := do
  let n ← required (fn m) "estimateTokens threw"
  reject (countable n = false) "estimateTokens must return a finite non-negative integer"
  return n

def checkIds (seenIds : List String) : List ContextMessage → Except String Unit
  | [] => .ok ()
  | m :: rest => do
    reject (m.id = "" ∨ m.id ∈ seenIds) "Message id must be non-empty and unique"
    checkIds (m.id :: seenIds) rest

section Units

abbrev Placed := ContextMessage × ℕ

/-- The results of these calls in order, and what is left after them. -/
def takeResults : List String → List Placed → Except String (List Placed × List Placed)
  | [], rest => .ok ([],rest)
  | id :: ids, result :: rest =>
    if result.1.role ≠ .tool ∨ result.1.toolCallId ≠ some id then
      .error "Invalid tool exchange: missing, delayed, or reordered result"
    else do
      let (found,rest) ← takeResults ids rest
      return (result :: found,rest)
  | _ :: _, [] => .error "Invalid tool exchange: missing, delayed, or reordered result"

def startsWithTool (messages : List ContextMessage) : Bool := messages.head?.any (·.role = .tool)

/-- The loop of `buildUnits` from a message on. -/
def unitsFrom : ℕ → List Placed → Except String (List (List Placed))
  | 0, _ => .ok []
  | _, [] => .ok []
  | fuel + 1, current :: rest =>
    if current.1.role = .tool then .error "Invalid tool exchange: orphan or delayed result"
    else if current.1.Calls then do
      reject ("" ∈ current.1.callIds ∨ ¬current.1.callIds.Nodup) "Invalid tool exchange: duplicate or empty call id"
      let (found,rest) ← takeResults current.1.callIds rest
      reject (startsWithTool (rest.map (·.1))) "Invalid tool exchange: duplicate or orphan result"
      let units ← unitsFrom fuel rest
      return (current :: found) :: units
    else match rest with
      | next :: rest =>
        if current.1.role = .user ∧ next.1.role = .assistant ∧ ¬next.1.Calls then do
          let units ← unitsFrom fuel rest
          return [current,next] :: units
        else do
          let units ← unitsFrom fuel (next :: rest)
          return [current] :: units
      | [] => .ok [[current]]

def buildUnits (messages : List ContextMessage) : Except String (List (List Placed)) :=
  unitsFrom messages.length messages.zipIdx

end Units

section Selection

/-- What `protectedUnit` asks of one message of a unit, among `length` messages. -/
def guardedMessage (options : CompileOptions) (length : ℕ) (e : Placed) : Bool :=
  .finite e.2 < options.head || Double.max options.head (.finite length - options.tail) ≤ .finite e.2
    || e.1.financial || (e.1.role = .tool && (present e.1.evidenceRef).isSome && !safeEvidenceRef e.1.evidenceRef)

def protectedUnit (options : CompileOptions) (length : ℕ) (unit : List Placed) : Bool :=
  unit.any (guardedMessage options length)

structure Pruned where
  removed : List Placed
  kept : List Placed
  tokens : Double

/-- The loop over the units: it ends as soon as the rest fits. -/
def prune (maxTokens : Double) (isProtected : List Placed → Bool) (estimate : ℕ → Double) :
    Double → List (List Placed) → Pruned
  | tokens, [] => ⟨[],[],tokens⟩
  | tokens, unit :: units =>
    if tokens ≤ maxTokens then ⟨[],unit ++ units.flatten,tokens⟩
    else if isProtected unit then
      let rest := prune maxTokens isProtected estimate tokens units
      { rest with kept := unit ++ rest.kept }
    else
      let rest := prune maxTokens isProtected estimate (unit.foldl (fun t e => t - estimate e.2) tokens) units
      { rest with removed := unit ++ rest.removed }

structure Selection where
  pruned : List ContextMessage
  kept : List ContextMessage
  tokens : Double
  initialTokens : Double
  protectedIds : List String

def select (input : List ContextMessage) (options : CompileOptions) : Except String Selection := do
  reject (countable options.maxTokens = false) "maxTokens must be a non-negative integer"
  checkIds [] input
  let allUnits ← buildUnits input
  let estimates ← input.mapM (validatedEstimate options.baseEstimate)
  let initialTokens := estimates.foldl (· + ·) 0
  let isProtected := protectedUnit options input.length
  let pruned := prune options.maxTokens isProtected (fun i => estimates.getD i 0) initialTokens allUnits
  return {
    pruned := pruned.removed.map (·.1)
    kept := pruned.kept.map (·.1)
    tokens := pruned.tokens
    initialTokens := initialTokens
    protectedIds := (allUnits.filter isProtected).flatten.map (·.1.id) }

end Selection

section Handoff

structure SummaryReference where
  messageId : String
  description : String
  evidenceRef : Option String := none

structure HandoffSummary where
  overview : String
  references : List SummaryReference

def trustedOverview : String :=
  "Pruned context is available only through the listed message and evidence references."

def requiredReferences (pruned : List ContextMessage) : List SummaryReference :=
  (pruned.filter fun m => m.role = .tool && safeEvidenceRef m.evidenceRef).map fun m =>
    { messageId := m.id, description := "Evidence reference", evidenceRef := m.evidenceRef }

/-- The answer's references to pruned messages that are not listed yet. An item that is no
object is passed over. -/
def optionalReferences (allowed : List String) : List String → List (Option String) → List SummaryReference
  | _, [] => []
  | used, none :: items => optionalReferences allowed used items
  | used, some id :: items =>
    if id ∈ allowed ∧ id ∉ used then
      { messageId := id, description := "Archived message reference" } :: optionalReferences allowed (id :: used) items
    else optionalReferences allowed used items

/-- The `messageId` of every item the summarizer's answer lists, or nothing where there is no
summarizer, it failed or was late, or it answered no list. -/
abbrev Answer := Option (List (Option String))

def summaryOf (pruned : List ContextMessage) (answer : Answer) : Option HandoffSummary :=
  if pruned = [] then none
  else answer.map fun items =>
    let required := requiredReferences pruned
    { overview := trustedOverview
      references := required ++ optionalReferences (pruned.map (·.id)) (required.map (·.messageId)) items }

def referenceJson (r : SummaryReference) : Json :=
  .obj ([("messageId",.str r.messageId),("description",.str r.description)]
    ++ optionalField "evidenceRef" (r.evidenceRef.map .str))

def summaryJson (summary : HandoffSummary) : Json :=
  .obj [("version",.num 1),("overview",.str summary.overview),("references",.arr (summary.references.map referenceJson))]

def summaryId : String := "context-handoff-summary"

def summaryMessage (summary : HandoffSummary) : ContextMessage where
  id := summaryId
  role := .system
  kind := some .handoffSummary
  content := "TRUSTED_CONTEXT_REFERENCE_V1\n" ++ String.ofList (stringify (summaryJson summary))

/-- The index where `splice` puts a message into a list of this length. -/
def spliceIndex (head : Double) (length : ℕ) : ℕ :=
  match head with
  | .finite q => min q.floor.toNat length
  | .infinite false => length
  | .infinite true => 0
  | .nan => 0

/-- The summary with the messages around it, or the messages alone where it does not fit. -/
def handoff (options : CompileOptions) (s : Selection) (answer : Answer) :
    Except String (List ContextMessage × Option HandoffSummary) :=
  match summaryOf s.pruned answer with
  | none => .ok (s.kept,none)
  | some summary => do
    let summaryTokens ← validatedEstimate options.baseEstimate (summaryMessage summary)
    if s.tokens + summaryTokens ≤ options.maxTokens then
      let index := spliceIndex options.head s.kept.length
      return (s.kept.take index ++ summaryMessage summary :: s.kept.drop index,some summary)
    else return (s.kept,none)

end Handoff

structure ContextDiagnostics where
  initialTokens : Double
  finalTokens : Double
  prunedMessageIds : List String
  protectedMessageIds : List String
  evidenceReferences : List String
  overBudget : Bool
  summarized : Bool

structure CompiledContext where
  messages : List ContextMessage
  summary : Option HandoffSummary
  diagnostics : ContextDiagnostics

def compileContext (input : List ContextMessage) (options : CompileOptions) (answer : Answer) :
    Except String CompiledContext := do
  let s ← select input options
  let (compiled,summary) ← handoff options s answer
  let estimates ← compiled.mapM (validatedEstimate options.baseEstimate)
  let finalTokens := estimates.foldl (· + ·) 0
  let evidence := (requiredReferences s.pruned).filterMap (·.evidenceRef)
    ++ (s.kept.filter fun m => safeEvidenceRef m.evidenceRef).filterMap (·.evidenceRef)
  return {
    messages := compiled
    summary := summary
    diagnostics := {
      initialTokens := s.initialTokens
      finalTokens := finalTokens
      prunedMessageIds := s.pruned.map (·.id)
      protectedMessageIds := s.protectedIds
      evidenceReferences := evidence.eraseDups
      overBudget := options.maxTokens < finalTokens
      summarized := summary.isSome } }

end RatifyOs.Cognition
